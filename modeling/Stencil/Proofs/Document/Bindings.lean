import Stencil.Proofs.Document.Leftover

/-!
# The bindings of a document

The variables of a prepared template have different names (`nodup_names_prepare`), in which no blank
is left, and placeholders that are not empty.  However a document is made out of a template, from a
profile or from values that are given, its bindings are those of different variables (`Filled`).
With different names the last value of a name is the first one (`latestValues_eq`).
-/

namespace Stencil

/-! ## Values by name -/

/-- Where no name occurs twice, the last value of a name is the one that conditions are tested
against. -/
theorem Binding.latestValues_eq {bs : List Binding} (h : (bs.map (·.name)).Nodup) :
    latestValues bs = values bs := by
  have hkeys : (values bs).keys = bs.map (·.name) := List.map_map
  have hfold : latestValues bs = Table.override [] (values bs) := by
    rw [values, Table.override, List.foldl_map, latestValues]
  rw [hfold]
  exact Table.override_of_nodup (by rw [hkeys]; exact h)

/-! ## Variables of a prepared template -/

/-- No blank is left in the name of a candidate. -/
theorem Placeholder.notBlank_of_mem_name {catalog : Catalog} {s : List Char} {found : Candidate}
    (h : found ∈ catalog.findAll s) {c : Char} (hc : c ∈ found.name) :
    Text.isBlank c = false := by
  obtain ⟨m, -, hfind⟩ := List.mem_flatMap.1 h
  obtain ⟨_, -, -, hname, -⟩ := Matcher.exists_match_of_mem_find hfind
  rw [hname] at hc
  rcases Text.mem_collapse hc with rfl | ⟨-, hc⟩
  · decide
  · exact hc

namespace Extractor

/-- The variables of a prepared template have different names, for their keys differ. -/
theorem nodup_names_prepare (e : Extractor) (name : String) (s : List Char) :
    ((e.prepare name s).1.vars.map (·.name)).Nodup := by
  have hkeys : ((e.prepare name s).1.vars.map Variable.key).Nodup := by
    show ((e.extract (Placeholder.normalize s)).vars.map Variable.key).Nodup
    cases hblank : Text.allBlank (Placeholder.normalize s) with
    | true => simp [extract, hblank]
    | false =>
      rw [extract_vars e hblank]
      exact Variable.nodup_keys_firstClaims _
  have hkey : Variable.key = (fun name : String => Placeholder.key name.toList) ∘ (·.name) := rfl
  rw [hkey, ← List.map_map] at hkeys
  exact hkeys.of_map _

variable {e : Extractor} (hcatalog : e.catalog = .standard) (hdetector : e.detector = none)
  {title : String} {s : List Char} {v : Variable} (hv : v ∈ (e.prepare title s).1.vars)

include hcatalog hdetector hv

theorem notBlank_of_mem_name {c : Char} (hc : c ∈ v.name.toList) : Text.isBlank c = false := by
  obtain ⟨found, hfound, rfl⟩ := exists_candidate_of_mem_vars hcatalog hdetector title s hv
  rw [Variable.ofCandidate, String.toList_ofList] at hc
  exact Placeholder.notBlank_of_mem_name hfound hc

theorem name_ne_empty : v.name ≠ "" := by
  obtain ⟨found, hfound, rfl⟩ := exists_candidate_of_mem_vars hcatalog hdetector title s hv
  exact fun hname => Placeholder.name_ne_nil_of_mem_findAll hfound
    (String.ofList_eq_empty_iff.1 hname)

theorem rawPattern_ne_nil : v.rawPattern.toList ≠ [] := by
  obtain ⟨found, hfound, rfl⟩ := exists_candidate_of_mem_vars hcatalog hdetector title s hv
  obtain ⟨⟨o, -, hopens⟩, -⟩ := Placeholder.delimiters_of_mem_findAll hfound
  rw [Variable.ofCandidate, String.toList_ofList]
  rintro hnil
  rw [hnil] at hopens
  cases hopens

end Extractor

/-! ## Documents out of a template -/

namespace Document

/-- The bindings are those of variables of the template, with different names. -/
structure Filled (t : Template) (bs : List Binding) : Prop where
  nodup_names : (bs.map (·.name)).Nodup
  bound : ∀ b ∈ bs, ∃ v ∈ t.vars, ∃ value, v.bind value = b

theorem Filled.fillGiven {t : Template} {draft : List Char × List Binding}
    (h : Filled t draft.2) (pair : String × Value) : Filled t (fillGiven t draft pair).2 := by
  rcases fillGiven_cases t draft pair with ⟨hstep, -⟩ | ⟨b, hbinding, hnew, hstep⟩
  · rw [hstep]
    exact h
  · rw [hstep]
    refine ⟨?_, fun b' hb' => ?_⟩
    · rw [List.map_append, List.map_singleton, Template.name_of_binding? hbinding,
        List.nodup_append]
      exact ⟨h.nodup_names, List.nodup_singleton _,
        fun old hold name hname heq => hnew (List.mem_singleton.1 hname ▸ heq ▸ hold)⟩
    · rcases List.mem_append.1 hb' with hb' | hb'
      · exact h.bound b' hb'
      · rw [List.mem_singleton.1 hb']
        exact Template.exists_var_of_binding? hbinding

theorem filled_create (t : Template) (pairs : List (String × Value)) (name : String) :
    Filled t (create t pairs name).bindings := by
  have hwalk (draft : List Char × List Binding) (h : Filled t draft.2) :
      Filled t (pairs.foldl (Document.fillGiven t) draft).2 := by
    induction pairs generalizing draft with
    | nil => exact h
    | cons pair pairs ih => exact ih _ (h.fillGiven pair)
  exact hwalk (t.content.toList, []) ⟨List.nodup_nil, fun b hb => absurd hb List.not_mem_nil⟩

theorem filled_personalize {t : Template} (hvars : (t.vars.map (·.name)).Nodup) (p : Profile)
    (timestamp : Option Timestamp) : Filled t (personalize t p timestamp).bindings := by
  rw [bindings_personalize]
  exact ⟨(names_ownBindings_sublist p t.vars).nodup hvars,
    fun b => exists_var_of_mem_ownBindings⟩

/-- How a document is made out of a template: from a profile, at a time, or from values that are
given, under a name. -/
inductive Making
  | profile (p : Profile) (timestamp : Option Timestamp)
  | values (pairs : List (String × Value)) (name : String)

def Making.document (t : Template) : Making → Document
  | .profile p timestamp => personalize t p timestamp
  | .values pairs name => create t pairs name

theorem Making.filled {t : Template} (hvars : (t.vars.map (·.name)).Nodup) (m : Making) :
    Filled t (m.document t).bindings := by
  cases m with
  | profile p timestamp => exact filled_personalize hvars p timestamp
  | values pairs name => exact filled_create t pairs name

end Document

end Stencil
