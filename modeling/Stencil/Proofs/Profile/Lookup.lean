import Stencil.Proofs.Profile.Categories
import Stencil.Proofs.Profile.Settling

/-!
# What is found in a profile

A variable is looked up in the two categories (`current?`), then in what the profile remembers
(`remembered?`), and last under its other names (`find?_eq`).  Filling in variables of different
names looks each of them up (`autofill_eq`).

After any calls what stands in the two categories stands in a snapshot as well (`Sourced`), and the
index of frequent variables knows no name without one (`Traced.remembered?_eq`).  So the snapshots
decide whether a name is found, and the index never does (`autofill_sources`).
-/

namespace Stencil

theorem Table.given?_eq_some_iff {t : Table String} {name value : String} :
    t.given? name = some value ↔ t.lookup name = some value ∧ value ≠ "" := by
  simp [given?, Option.filter_eq_some_iff]

/-- A value of the index is that of an entry with the name. -/
theorem FrequentVariable.exists_entry_of_lookup {index : List FrequentVariable}
    {name value : String} (h : (values index).lookup name = some value) :
    ∃ f ∈ index, f.name = name ∧ f.value = value := by
  induction index using List.reverseRecOn with
  | nil => cases h
  | append_singleton index f ih =>
    have hset : values (index ++ [f]) = (values index).set f.name f.value := by
      rw [values, List.foldl_append]
      rfl
    rw [hset, Table.lookup_set] at h
    split at h
    · next hname =>
      exact ⟨f, by simp, hname.symm, Option.some.inj h⟩
    · obtain ⟨g, hg, hentry⟩ := ih h
      exact ⟨g, List.mem_append_left _ hg, hentry⟩

namespace Profile

/-! ## The places in order -/

/-- The value that one of the categories has for a name, the personal information first. -/
def current? (p : Profile) (name : String) : Option String :=
  (p.personalInfo.given? name).or (p.preferences.given? name)

/-- The value that is remembered for a name, in the latest snapshot with one or in the index. -/
def remembered? (p : Profile) (name : String) : Option String :=
  (latestGiven? name p.snapshots).or ((FrequentVariable.values p.frequent).given? name)

theorem find?_eq (p : Profile) (v : Variable) :
    p.find? v =
      (p.current? v.name).or ((p.remembered? v.name).or (p.mapped? v.mappings)) := by
  simp only [find?, current?, remembered?, Option.or_assoc]

/-- Nothing is remembered for a name that neither a snapshot nor the index has a value for. -/
theorem remembered?_eq_none {p : Profile} {name : String}
    (hsnapshots : ∀ s ∈ p.snapshots, s.fields.given? name = none)
    (hfrequent : ∀ f ∈ p.frequent, f.name = name → f.value = "") : p.remembered? name = none := by
  have hlatest : latestGiven? name p.snapshots = none := by
    refine List.findSome?_eq_none_iff.2 fun s hs => hsnapshots s ?_
    rwa [List.mem_reverse] at hs
  have hindex : (FrequentVariable.values p.frequent).given? name = none := by
    refine Option.eq_none_iff_forall_ne_some.2 fun value hvalue => ?_
    obtain ⟨hlookup, hne⟩ := Table.given?_eq_some_iff.1 hvalue
    obtain ⟨f, hf, hname, rfl⟩ := FrequentVariable.exists_entry_of_lookup hlookup
    exact hne (hfrequent f hf hname)
  rw [remembered?, hlatest, hindex]
  rfl

/-! ## Filling in -/

/-- The variables that something is found for, with what is found. -/
def found (p : Profile) (vars : List Variable) : Table String :=
  vars.filterMap fun v => (p.find? v).map fun value => (v.name, value)

theorem keys_found_sublist (p : Profile) (vars : List Variable) :
    (p.found vars).keys.Sublist (vars.map (·.name)) := by
  refine map_filterMap_sublist (fun v e he => ?_) vars
  obtain ⟨value, -, rfl⟩ := Option.map_eq_some_iff.1 he
  rfl

section

variable (p : Profile) {vars : List Variable} (hvars : (vars.map (·.name)).Nodup)

include hvars

/-- Variables of different names are looked up one by one. -/
theorem autofill_eq : p.autofill vars = p.found vars := by
  have hfold : p.autofill vars = Table.override [] (p.found vars) := by
    rw [found, Table.override, List.foldl_filterMap, autofill]
    congr 1
    funext filled v
    cases p.find? v <;> rfl
  rw [hfold]
  exact Table.override_of_nodup ((p.keys_found_sublist vars).nodup hvars)

theorem exists_var_of_mem_autofill {name value : String} (h : (name, value) ∈ p.autofill vars) :
    ∃ v ∈ vars, v.name = name ∧ p.find? v = some value := by
  rw [p.autofill_eq hvars] at h
  obtain ⟨v, hv, hentry⟩ := List.mem_filterMap.1 h
  obtain ⟨_, hfind, heq⟩ := Option.map_eq_some_iff.1 hentry
  cases heq
  exact ⟨v, hv, rfl, hfind⟩

/-- What a variable is filled in with is what is found for it. -/
theorem lookup_autofill {v : Variable} (hv : v ∈ vars) :
    (p.autofill vars).lookup v.name = p.find? v := by
  have hnodup : (p.autofill vars).keys.Nodup := by
    rw [p.autofill_eq hvars]
    exact (p.keys_found_sublist vars).nodup hvars
  cases hfind : p.find? v with
  | some value =>
    refine Table.lookup_of_mem hnodup ?_
    rw [p.autofill_eq hvars]
    exact List.mem_filterMap.2 ⟨v, hv, by rw [hfind]; rfl⟩
  | none =>
    refine Table.lookup_eq_none_of_notMem fun hmem => ?_
    obtain ⟨⟨_, value⟩, hentry, hname⟩ := List.mem_map.1 hmem
    obtain ⟨w, hw, rfl, hfound⟩ := p.exists_var_of_mem_autofill hvars hentry
    obtain rfl : w = v := List.inj_on_of_nodup_map hvars hw hv hname
    rw [hfind] at hfound
    cases hfound

end

/-! ## What every call keeps -/

/-- What stands in the personal information stands in a snapshot. -/
def Sourced (p : Profile) : Prop :=
  ∀ field value, p.personalInfo.lookup field = some value →
    ∃ s ∈ p.snapshots, s.fields.lookup field = some value

theorem sourced_empty (userId : String) : Sourced { userId } :=
  fun _ _ h => nomatch h

theorem Sourced.record {p : Profile} (h : p.Sourced) (c : Category) (timestamp : Option Timestamp)
    {fields : Table String} (hfields : fields.keys.Nodup) :
    (p.record c timestamp fields).Sourced := by
  have hold : ∀ field value, p.personalInfo.lookup field = some value →
      ∃ s ∈ p.snapshots ++ [⟨fields, c.name, timestamp⟩], s.fields.lookup field = some value := by
    intro field value hvalue
    obtain ⟨s, hs, hlookup⟩ := h field value hvalue
    exact ⟨s, List.mem_append_left _ hs, hlookup⟩
  intro field value hvalue
  show ∃ s ∈ p.snapshots ++ [⟨fields, c.name, timestamp⟩], s.fields.lookup field = some value
  cases c with
  | preferences => exact hold field value hvalue
  | personalInfo =>
    have hlookup : (p.personalInfo.override fields).lookup field = some value := hvalue
    rw [Table.lookup_override hfields, Option.or_eq_some_iff] at hlookup
    rcases hlookup with hnew | ⟨-, hbefore⟩
    · exact ⟨_, List.mem_append_right _ (List.mem_singleton_self _), hnew⟩
    · exact hold field value hbefore

theorem Sourced.deduplicate {p : Profile} (h : p.Sourced) (htraced : p.Traced) (t : Threshold) :
    (p.deduplicate t).1.Sourced := by
  intro field value hvalue
  obtain ⟨info, hinfo⟩ := p.deduplicate_fst t
  have hsnapshots : (p.deduplicate t).1.snapshots = p.snapshots := by rw [hinfo]
  rw [hsnapshots]
  rw [lookup_deduplicate, deduplicate_snd, Option.or_eq_some_iff] at hvalue
  rcases hvalue with hmerged | ⟨-, hbefore⟩
  · exact (source_of_merged htraced.fields_nodup hmerged).1
  · exact h field value hbefore

theorem Sourced.replay {p : Profile} (h : p.Sourced) (htraced : p.Traced) (calls : List Call) :
    (p.replay calls).Sourced := by
  -- merging relies on the distinct fields of a snapshot
  have hboth : (p.replay calls).Traced ∧ (p.replay calls).Sourced :=
    replay_keeps (motive := fun p => p.Traced ∧ p.Sourced)
      (fun _ c timestamp _ hfields h =>
        ⟨h.1.record c timestamp hfields, h.2.record c timestamp hfields⟩)
      (fun _ t _ h => ⟨h.1.deduplicate t, h.2.deduplicate h.1 t⟩) ⟨htraced, h⟩
  exact hboth.2

/-- What stands in the preferences stands in a snapshot. -/
theorem Traced.source_of_preferences {p : Profile} (h : p.Traced) {field value : String}
    (hvalue : p.preferences.lookup field = some value) :
    ∃ s ∈ p.snapshots, s.fields.lookup field = some value := by
  rw [h.preferences_eq] at hvalue
  obtain ⟨earlier, s, later, hsplit, hs, -⟩ :=
    lookup_overlay (fun s hs => h.fields_nodup s (List.mem_of_mem_filter hs)) hvalue
  have hmem : s ∈ earlier ++ s :: later := List.mem_append_right _ List.mem_cons_self
  rw [← hsplit] at hmem
  exact ⟨s, List.mem_of_mem_filter hmem, hs⟩

/-- The index has no value for a name without one in a snapshot. -/
theorem Traced.remembered?_eq {p : Profile} (h : p.Traced) (name : String) :
    p.remembered? name = latestGiven? name p.snapshots := by
  rw [remembered?]
  cases hlatest : latestGiven? name p.snapshots with
  | some value => rfl
  | none =>
    refine Option.eq_none_iff_forall_ne_some.2 fun value hvalue => ?_
    obtain ⟨f, hf, rfl, -⟩ :=
      FrequentVariable.exists_entry_of_lookup (Table.given?_eq_some_iff.1 hvalue).1
    obtain ⟨s, hs, hgiven⟩ := (h.mem_names_iff f.name).1 (List.mem_map_of_mem hf)
    have hsome := latestGiven?_isSome_iff.2 ⟨s, List.mem_of_mem_filter hs, hgiven⟩
    rw [hlatest] at hsome
    cases hsome

/-! ## What is found after any calls -/

section

variable {p : Profile} (hsourced : p.Sourced) (htraced : p.Traced)

include hsourced htraced

/-- What one of the categories has for a name, a snapshot has too. -/
theorem source_of_current? {name value : String} (h : p.current? name = some value) :
    value ≠ "" ∧ ∃ s ∈ p.snapshots, s.fields.lookup name = some value := by
  rw [current?, Option.or_eq_some_iff] at h
  rcases h with h | ⟨-, h⟩
  · obtain ⟨hlookup, hne⟩ := Table.given?_eq_some_iff.1 h
    exact ⟨hne, hsourced _ _ hlookup⟩
  · obtain ⟨hlookup, hne⟩ := Table.given?_eq_some_iff.1 h
    exact ⟨hne, htraced.source_of_preferences hlookup⟩

/-- What is found for a variable stands in a snapshot, under its name or another one of its. -/
theorem source_of_find? {v : Variable} {value : String} (h : p.find? v = some value) :
    value ≠ "" ∧ ∃ field ∈ v.name :: v.mappings, ∃ s ∈ p.snapshots,
      s.fields.lookup field = some value := by
  rw [find?_eq, Option.or_eq_some_iff, Option.or_eq_some_iff, htraced.remembered?_eq] at h
  rcases h with h | ⟨-, h | ⟨-, h⟩⟩
  · obtain ⟨hne, hsource⟩ := source_of_current? hsourced htraced h
    exact ⟨hne, v.name, List.mem_cons_self, hsource⟩
  · obtain ⟨s, hs, hgiven⟩ := List.exists_of_findSome?_eq_some h
    obtain ⟨hlookup, hne⟩ := Table.given?_eq_some_iff.1 hgiven
    exact ⟨hne, v.name, List.mem_cons_self, s, List.mem_reverse.1 hs, hlookup⟩
  · obtain ⟨m, hm, hgiven⟩ := List.exists_of_findSome?_eq_some h
    obtain ⟨hlookup, hne⟩ := Table.given?_eq_some_iff.1 hgiven
    exact ⟨hne, m, List.mem_cons_of_mem _ hm, hsourced _ _ hlookup⟩

/-- The snapshots decide whether something is found under the name of a variable. -/
theorem isSome_find?_iff (v : Variable) :
    (p.find? v).isSome ↔ (∃ s ∈ p.snapshots, (s.fields.given? v.name).isSome) ∨
      ∃ m ∈ v.mappings, (p.personalInfo.given? m).isSome := by
  have hmapped : (p.mapped? v.mappings).isSome ↔
      ∃ m ∈ v.mappings, (p.personalInfo.given? m).isSome := by
    simp [mapped?]
  rw [← latestGiven?_isSome_iff, ← hmapped, find?_eq, htraced.remembered?_eq, Option.isSome_or,
    Option.isSome_or, Bool.or_eq_true, Bool.or_eq_true]
  refine or_iff_right_of_imp fun hcurrent => .inl ?_
  obtain ⟨value, hvalue⟩ := Option.isSome_iff_exists.1 hcurrent
  obtain ⟨hne, s, hs, hlookup⟩ := source_of_current? hsourced htraced hvalue
  rw [latestGiven?_isSome_iff]
  exact ⟨s, hs, Option.isSome_iff_exists.2 ⟨value, Table.given?_eq_some_iff.2 ⟨hlookup, hne⟩⟩⟩

end

/-- Without the index the same is found. -/
theorem Traced.find?_withoutIndex {p : Profile} (h : p.Traced) (v : Variable) :
    Profile.find? { p with frequent := [] } v = p.find? v := by
  have hremembered : Profile.remembered? { p with frequent := [] } v.name =
      latestGiven? v.name p.snapshots := Option.or_none
  rw [find?_eq, find?_eq, h.remembered?_eq, hremembered]
  rfl

/-- **What is filled in.**  After any calls a variable is filled in if some snapshot has a value for
its name or the personal information has one under another name of it.  Each value that is filled
in is not empty and stands in some snapshot.  The index of frequent variables makes no
difference. -/
theorem autofill_sources (userId : String) (calls : List Call) {vars : List Variable}
    (hvars : (vars.map (·.name)).Nodup) :
    let p := replay { userId } calls
    (∀ v ∈ vars, ((p.autofill vars).lookup v.name).isSome ↔
      (∃ s ∈ p.snapshots, (s.fields.given? v.name).isSome) ∨
        ∃ m ∈ v.mappings, (p.personalInfo.given? m).isSome) ∧
    (∀ name value, (name, value) ∈ p.autofill vars →
      value ≠ "" ∧ ∃ v ∈ vars, v.name = name ∧ ∃ field ∈ v.name :: v.mappings,
        ∃ s ∈ p.snapshots, s.fields.lookup field = some value) ∧
    Profile.autofill { p with frequent := [] } vars = p.autofill vars := by
  intro p
  have htraced : p.Traced := (traced_empty userId).replay calls
  have hsourced : p.Sourced := (sourced_empty userId).replay (traced_empty userId) calls
  refine ⟨fun v hv => ?_, fun name value hmem => ?_, ?_⟩
  · rw [p.lookup_autofill hvars hv]
    exact isSome_find?_iff hsourced htraced v
  · obtain ⟨v, hv, hname, hfind⟩ := p.exists_var_of_mem_autofill hvars hmem
    obtain ⟨hne, hsource⟩ := source_of_find? hsourced htraced hfind
    exact ⟨hne, v, hv, hname, hsource⟩
  · rw [autofill_eq _ hvars, autofill_eq _ hvars]
    exact List.filterMap_congr fun v _ => by rw [htraced.find?_withoutIndex]

/-- A name that was emptied is found in a snapshot, an address under its other name, and a city
nowhere. -/
theorem autofill_sources_visitor :
    let calls : List Call :=
      [.store (.field "name" (.text "Ann Lee")) (.text "personal_info") none,
        .store (.field "email" (.text "ann@lee.org")) (.text "personal_info") none,
        .store (.field "theme" (.text "dark")) (.text "preferences") none,
        .store (.field "name" (.text "")) (.text "personal_info") none,
        .deduplicate ⟨Threshold.standard, by decide⟩]
    let vars : List Variable :=
      [{ name := "name" }, { name := "address", mappings := ["mail", "email"] },
        { name := "theme" }, { name := "city" }]
    let p := replay { userId := "ann" } calls
    p.personalInfo.given? "name" = none ∧
      ((p.autofill vars).lookup "name").isSome ∧ ((p.autofill vars).lookup "address").isSome ∧
      ((p.autofill vars).lookup "city").isSome = false ∧
      (∀ name value, (name, value) ∈ p.autofill vars →
        ∃ s ∈ p.snapshots, ∃ field, s.fields.lookup field = some value) ∧
      Profile.autofill { p with frequent := [] } vars = p.autofill vars ∧ p.frequent ≠ [] := by
  intro calls vars p
  obtain ⟨hfilled, hsource, hindex⟩ :=
    autofill_sources "ann" calls (show (vars.map (·.name)).Nodup by decide)
  have hname : ∃ s ∈ p.snapshots, (s.fields.given? "name").isSome := by decide +kernel
  have haddress : ∃ m ∈ ["mail", "email"], (p.personalInfo.given? m).isSome := by decide +kernel
  have hcity : ¬ ((∃ s ∈ p.snapshots, (s.fields.given? "city").isSome) ∨
      ∃ m ∈ [], (p.personalInfo.given? m).isSome) := by decide +kernel
  refine ⟨by decide +kernel, (hfilled { name := "name" } (by decide)).2 (.inl hname),
    (hfilled { name := "address", mappings := ["mail", "email"] } (by decide)).2 (.inr haddress),
    Bool.eq_false_iff.2 fun h => hcity ((hfilled { name := "city" } (by decide)).1 h),
    fun name value hmem => ?_, hindex, by decide +kernel⟩
  obtain ⟨-, v, -, -, field, -, s, hs, hlookup⟩ := hsource name value hmem
  exact ⟨s, hs, field, hlookup⟩

end Profile

end Stencil
