import Stencil.Proofs.Rule.Insertion
import Stencil.Session

/-!
# Three ways to fill in a template

A profile fills the variables that it has a value for (`ownBindings`), and each of them puts its
value in place of its placeholder (`foldl_fillOwn`).  The same content and the same bindings come
from giving these values by name (`foldl_fillGiven`), and the same content comes from inserting each
value once more under the name of its binding; so

    personalize t p  =  create t (the values that were filled in)
                     =  insertText (the values that were filled in)         (personalize_agrees)
-/

namespace Stencil

/-- The bindings of the variables that a profile has a value for, in the order of the variables. -/
def Document.ownBindings (p : Profile) (vars : List Variable) : List Binding :=
  vars.filterMap fun v => (ownValue? p v).map v.bind

/-- The name and the value of a binding, as they are given by hand. -/
def Binding.given (b : Binding) : Value :=
  .object [("name", .text b.name), ("value", .text b.value)]

/-- The binding of a variable asks for its placeholder, if it has one. -/
theorem Variable.putAll_bind (v : Variable) (value : String) (s : List Char) :
    Binding.putAll [v.bind value] s =
      if v.rawPattern.isEmpty then s
      else Text.replaceAll v.rawPattern.toList value.toList s := by
  show Replacement.applyWritten v.writtenPattern.toList value.toList s = _
  unfold writtenPattern
  by_cases hraw : v.rawPattern.isEmpty = true
  · rw [if_pos hraw, if_pos hraw]
    rfl
  · have hne : v.rawPattern.toList ≠ [] := by simpa using hraw
    rw [if_neg hraw, if_neg hraw, String.toList_ofList,
      Replacement.applyWritten_ofLiteral hne]

namespace Template

/-- The binding of a value that is given by name, if there is a variable of that name. -/
def binding? (t : Template) (pair : String × Value) : Option Binding :=
  (t.vars.find? fun v => v.name = pair.1).map fun v => v.bind pair.2.storedText

section

variable {t : Template} {pair : String × Value}

theorem name_of_binding? {b : Binding} (h : t.binding? pair = some b) : b.name = pair.1 := by
  obtain ⟨v, hv, rfl⟩ := Option.map_eq_some_iff.1 h
  have hname : v.name = pair.1 := by simpa using List.find?_some hv
  exact hname

theorem exists_var_of_binding? {b : Binding} (h : t.binding? pair = some b) :
    ∃ v ∈ t.vars, ∃ value, v.bind value = b := by
  obtain ⟨v, hv, hbind⟩ := Option.map_eq_some_iff.1 h
  exact ⟨v, List.mem_of_find?_eq_some hv, _, hbind⟩

theorem binding?_ne_none {v : Variable} (hv : v ∈ t.vars) (value : Value) :
    t.binding? (v.name, value) ≠ none := by
  intro hnone
  have hfind := List.find?_eq_none.1 (Option.map_eq_none_iff.1 hnone) v hv
  exact hfind (decide_eq_true rfl)

end

end Template

namespace Document

/-! ## What a profile fills in -/

def fillOwn (p : Profile) (draft : List Char × List Binding) (v : Variable) :
    List Char × List Binding :=
  match ownValue? p v with
  | some value => fillLiteral draft v value
  | none => draft

/-- Filling in from a profile puts the values of the variables that have one in their places, one
after the other, and binds them. -/
theorem foldl_fillOwn (p : Profile) (vars : List Variable) (s : List Char) (bs : List Binding) :
    vars.foldl (fillOwn p) (s, bs) =
      (Binding.putAll (ownBindings p vars) s, bs ++ ownBindings p vars) := by
  induction vars generalizing s bs with
  | nil => simp [ownBindings, Binding.putAll]
  | cons v vars ih =>
    rw [List.foldl_cons]
    cases hvalue : ownValue? p v with
    | none =>
      have hown : ownBindings p (v :: vars) = ownBindings p vars := by
        simp [ownBindings, hvalue]
      have hstep : fillOwn p (s, bs) v = (s, bs) := by simp [fillOwn, hvalue]
      rw [hown, hstep]
      exact ih s bs
    | some value =>
      have hown : ownBindings p (v :: vars) = v.bind value :: ownBindings p vars := by
        simp [ownBindings, hvalue]
      have hstep : fillOwn p (s, bs) v =
          (Binding.putAll [v.bind value] s, bs ++ [v.bind value]) := by
        simp only [fillOwn, hvalue, fillLiteral, Variable.putAll_bind]
      rw [hown, hstep, ih, List.append_assoc]
      rfl

section

variable (t : Template) (p : Profile) (timestamp : Option Timestamp)

theorem content_personalize :
    (personalize t p timestamp).content =
      String.ofList (Binding.putAll (ownBindings p t.vars) t.content.toList) := by
  show String.ofList (t.vars.foldl (fillOwn p) (t.content.toList, [])).1 = _
  rw [foldl_fillOwn]

theorem bindings_personalize :
    (personalize t p timestamp).bindings = ownBindings p t.vars := by
  show (t.vars.foldl (fillOwn p) (t.content.toList, [])).2 = _
  rw [foldl_fillOwn, List.nil_append]

end

/-- Each binding is that of a variable. -/
theorem exists_var_of_mem_ownBindings {p : Profile} {vars : List Variable} {b : Binding}
    (h : b ∈ ownBindings p vars) : ∃ v ∈ vars, ∃ value, v.bind value = b := by
  obtain ⟨v, hv, hb⟩ := List.mem_filterMap.1 h
  obtain ⟨value, -, hbind⟩ := Option.map_eq_some_iff.1 hb
  exact ⟨v, hv, value, hbind⟩

/-- The bindings have the names of their variables, in order. -/
theorem names_ownBindings_sublist (p : Profile) (vars : List Variable) :
    ((ownBindings p vars).map (·.name)).Sublist (vars.map (·.name)) := by
  refine map_filterMap_sublist (fun v b hb => ?_) vars
  obtain ⟨value, -, rfl⟩ := Option.map_eq_some_iff.1 hb
  rfl

/-! ## The same values given by name -/

theorem givenPairs_given (bs : List Binding) :
    givenPairs (.list (bs.map Binding.given)) = bs.map fun b => (b.name, .text b.value) := by
  rw [givenPairs, List.filterMap_map, ← List.filterMap_eq_map]
  rfl

variable {t : Template}

/-- A given value is ignored, for want of a variable or because the name is bound, or it is put in
its place and bound. -/
theorem fillGiven_cases (t : Template) (draft : List Char × List Binding) (pair : String × Value) :
    (fillGiven t draft pair = draft ∧
        (t.binding? pair = none ∨ pair.1 ∈ draft.2.map (·.name))) ∨
      ∃ b, t.binding? pair = some b ∧ pair.1 ∉ draft.2.map (·.name) ∧
        fillGiven t draft pair = (Binding.putAll [b] draft.1, draft.2 ++ [b]) := by
  obtain ⟨name, value⟩ := pair
  have hany : (draft.2.any fun b => b.name = name) = true ↔ name ∈ draft.2.map (·.name) := by
    simp
  cases hfind : t.vars.find? fun v => v.name = name with
  | none =>
    refine .inl ⟨by simp only [fillGiven, hfind], .inl ?_⟩
    rw [Template.binding?, hfind]
    rfl
  | some v =>
    have hbinding : t.binding? (name, value) = some (v.bind value.storedText) := by
      rw [Template.binding?, hfind]
      rfl
    by_cases hmem : name ∈ draft.2.map (·.name)
    · exact .inl ⟨by simp only [fillGiven, hfind, hany.2 hmem, if_true], .inr hmem⟩
    · refine .inr ⟨_, hbinding, hmem, ?_⟩
      simp only [fillGiven, hfind, if_neg (mt hany.1 hmem)]
      rfl

/-- Values that are given under different names are put in their places one after the other, unless
there is no variable of their name. -/
theorem foldl_fillGiven {pairs : List (String × Value)} (s : List Char)
    {filled : List Binding} (hnames : (filled.map (·.name) ++ pairs.map Prod.fst).Nodup) :
    pairs.foldl (fillGiven t) (s, filled) =
      (Binding.putAll (pairs.filterMap t.binding?) s, filled ++ pairs.filterMap t.binding?) := by
  induction pairs generalizing s filled with
  | nil => simp [Binding.putAll]
  | cons pair pairs ih =>
    have hnew : pair.1 ∉ filled.map (·.name) := fun hmem =>
      (List.nodup_append.1 hnames).2.2 _ hmem _ List.mem_cons_self rfl
    rw [List.foldl_cons]
    rcases fillGiven_cases t (s, filled) pair with
      ⟨hstep, hnone | hmem⟩ | ⟨b, hbinding, -, hstep⟩
    · have hrest : (filled.map (·.name) ++ pairs.map Prod.fst).Nodup :=
        hnames.sublist ((List.sublist_cons_self ..).append_left _)
      rw [hstep, ih s hrest, List.filterMap_cons_none hnone]
    · exact absurd hmem hnew
    · have hrest : ((filled ++ [b]).map (·.name) ++ pairs.map Prod.fst).Nodup := by
        rw [List.map_append, List.map_singleton, Template.name_of_binding? hbinding,
          List.append_assoc]
        exact hnames
      rw [hstep, ih _ hrest, List.filterMap_cons_some hbinding, List.append_assoc]
      rfl

section

variable {pairs : List (String × Value)} (hkeys : (pairs.map Prod.fst).Nodup) (name : String)

include hkeys

theorem bindings_create : (create t pairs name).bindings = pairs.filterMap t.binding? := by
  show (pairs.foldl (fillGiven t) (t.content.toList, [])).2 = _
  rw [foldl_fillGiven _ (by simpa using hkeys), List.nil_append]

theorem content_create :
    (create t pairs name).content =
      String.ofList (Binding.putAll (create t pairs name).bindings t.content.toList) := by
  rw [bindings_create hkeys]
  show String.ofList (pairs.foldl (fillGiven t) (t.content.toList, [])).1 = _
  rw [foldl_fillGiven _ (by simpa using hkeys)]

end

/-- The document of values that are given for different variables. -/
theorem create_given (hvars : (t.vars.map (·.name)).Nodup) {given : List Binding}
    (hnames : (given.map (·.name)).Nodup)
    (hgiven : ∀ b ∈ given, ∃ v ∈ t.vars, ∃ value, v.bind value = b) (name : String) :
    create t (given.map fun b => (b.name, .text b.value)) name =
      { name := name
        templateName := t.name
        content := String.ofList (Binding.putAll given t.content.toList)
        bindings := given } := by
  have htaken : ∀ b ∈ given, t.binding? (b.name, .text b.value) = some b := by
    intro b hb
    obtain ⟨v, hv, value, rfl⟩ := hgiven b hb
    have hfind : t.vars.find? (fun w => w.name = (v.bind value).name) = some v :=
      find?_of_nodup hvars hv
    rw [Template.binding?, hfind]
    rfl
  have hall : (given.map fun b => (b.name, Value.text b.value)).filterMap t.binding? = given := by
    rw [List.filterMap_map]
    exact (List.filterMap_congr htaken).trans List.filterMap_some
  have hkeys : ((given.map fun b => (b.name, Value.text b.value)).map Prod.fst).Nodup := by
    rw [List.map_map]
    exact hnames
  unfold create
  rw [foldl_fillGiven t.content.toList (by simpa using hkeys), hall, List.nil_append]

end Document

/-! ## The three ways -/

/-- **Three ways to fill in a template.**  In a template whose variables have different names, the
values that a profile fills in may as well be given by name, under any name of the document, or be
inserted once more under the names of the bindings, if these can stand in a target: no target is
skipped, and the content and the bindings are the same. -/
theorem personalize_agrees {t : Template} (hvars : (t.vars.map (·.name)).Nodup) (p : Profile)
    (timestamp : Option Timestamp) :
    let d := Document.personalize t p timestamp
    (∀ (s : Session) (name : String), s.template = some t → name ≠ "" →
      let created : Document := { d with name := name, history := [] }
      s.create (.list (d.bindings.map Binding.given)) (.text name) =
        .ok (created, { s with document := some created })) ∧
    ((∀ v ∈ t.vars, IsTargetName v.name) → ∀ (source : TextSource) (ruleName : String),
      let o := Action.applyNamed source ruleName "insertText"
        (d.bindings.map fun b => .text b.target) ⟨t.content, d.bindings⟩
      o.skipped = [] ∧ o.draft = ⟨d.content, d.bindings⟩) := by
  intro d
  have hbindings : d.bindings = Document.ownBindings p t.vars :=
    Document.bindings_personalize t p timestamp
  have hcontent : d.content = String.ofList (Binding.putAll d.bindings t.content.toList) := by
    rw [hbindings]
    exact Document.content_personalize t p timestamp
  have hvar : ∀ b ∈ d.bindings, ∃ v ∈ t.vars, ∃ value, v.bind value = b := by
    rw [hbindings]
    exact fun b => Document.exists_var_of_mem_ownBindings
  have hnames : (d.bindings.map (·.name)).Nodup := by
    rw [hbindings]
    exact (Document.names_ownBindings_sublist p t.vars).nodup hvars
  refine ⟨fun s name htemplate hname => ?_, fun htargets source ruleName => ?_⟩
  · have hcreate : Document.create t (Document.givenPairs (.list (d.bindings.map Binding.given)))
        name = { d with name := name, history := [] } := by
      rw [Document.givenPairs_given, Document.create_given hvars hnames hvar, ← hcontent]
      rfl
    have hgiven : (Value.text name).isGiven = true := by simpa [Value.isGiven] using hname
    have hread : ((Wire.text (.text name)).under "name").orRefuse = .ok name := rfl
    simp only [Session.create, htemplate, needed, bind, Except.bind, hgiven, Bool.not_true,
      Bool.false_eq_true, if_false, hread, hcreate, pure, Except.pure]
  · have htargets' : ∀ b ∈ d.bindings, IsTargetName b.name := by
      intro b hb
      obtain ⟨v, hv, value, rfl⟩ := hvar b hb
      exact htargets v hv
    have hinsert := Action.apply_insertText_settled source ruleName hnames (fun b hb => hb)
      htargets' t.content.toList
    rw [String.ofList_toList, ← hcontent] at hinsert
    exact hinsert.symm

/-- Placeholders of special characters and slashes, a variable without a placeholder, and values
with a colon, a backslash and another placeholder. -/
theorem personalize_agrees_specials :
    let t : Template :=
      { content := "Dear [a.b]$, see (x/y)\\1"
        vars := [{ name := "who", rawPattern := "[a.b]$" }, { name := "tone" },
          { name := "see also", rawPattern := "(x/y)\\1" }] }
    let p : Profile :=
      { personalInfo := [("who", "(x/y)\\1: Ada"), ("see also", "\\0\n"), ("tone", "warm")] }
    let d := Document.personalize t p none
    let created : Document := { d with name := "copy", history := [] }
    let inserted := Action.applyNamed {} "fill" "insertText"
      (d.bindings.map fun b => .text b.target) ⟨t.content, d.bindings⟩
    ((t.vars.map (·.name)).Nodup ∧ (∀ v ∈ t.vars, IsTargetName v.name) ∧ d.bindings.length = 3 ∧
      d.content = "Dear \\0\n: Ada, see \\0\n") ∧
    Session.create { template := some t } (.list (d.bindings.map Binding.given)) (.text "copy") =
      .ok (created, { template := some t, document := some created }) ∧
    inserted.skipped = [] ∧ inserted.draft = ⟨d.content, d.bindings⟩ := by
  intro t p d created inserted
  have hvars : (t.vars.map (·.name)).Nodup := by decide
  have htargets : ∀ v ∈ t.vars, IsTargetName v.name := by decide +kernel
  obtain ⟨hcreate, hinsert⟩ := personalize_agrees hvars p none
  exact ⟨⟨hvars, htargets, by decide +kernel, by decide +kernel⟩,
    hcreate { template := some t } "copy" rfl (by decide), hinsert htargets {} "fill"⟩

end Stencil
