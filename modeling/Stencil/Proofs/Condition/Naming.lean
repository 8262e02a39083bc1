import Stencil.Document.Basic
import Stencil.Proofs.Condition.Composition

/-!
# Conditions and the variables that they name

A condition is tested against the values of variables, and what comes of it depends on the values of
those that are named in its comparisons only (`names`, `holds_congr`).  In free-form data these are
the variables that its comparisons name, at any depth, where a comparison or a joint that cannot be
read names none (`Named`, `mem_names_ofValue_iff`).  Of several bindings for a name the first one
counts (`Binding.lookup_values`).  So no other binding is seen, nor the order of bindings for
different names (`SeesOnly`, `sees_only_names`).
-/

namespace Stencil

open Wire

/-! ## The first binding of a name -/

namespace Binding

/-- The value of the first binding with the name. -/
def first? (bindings : List Binding) (name : String) : Option String :=
  (bindings.find? fun b => b.name == name).map (·.value)

/-- Conditions are tested against the first binding of each name. -/
theorem lookup_values (bindings : List Binding) (name : String) :
    (values bindings).lookup name = first? bindings name := by
  induction bindings with
  | nil => rfl
  | cons b rest ih =>
    have hcons : values (b :: rest) = (b.name, b.value) :: values rest := rfl
    rw [hcons, List.lookup_cons, first?, List.find?_cons]
    by_cases h : b.name = name
    · subst h
      simp
    · have hleft : (b.name == name) = false := by simpa using h
      have hright : (name == b.name) = false := by simpa using fun heq : name = b.name => h heq.symm
      rw [hleft, hright]
      exact ih

/-- Where names are distinct, the order of the bindings is not seen. -/
theorem first?_perm {bs bs' : List Binding} (hnames : (bs.map (·.name)).Nodup) (h : bs.Perm bs')
    (name : String) : first? bs name = first? bs' name := by
  unfold first?
  congr 1
  induction h with
  | nil => rfl
  | cons b h ih =>
    rw [List.map_cons, List.nodup_cons] at hnames
    rw [List.find?_cons, List.find?_cons, ih hnames.2]
  | swap b b' rest =>
    rw [List.map_cons, List.map_cons, List.nodup_cons, List.mem_cons, not_or] at hnames
    simp only [List.find?_cons]
    cases hb : b.name == name with
    | false => rfl
    | true =>
      have hother : (b'.name == name) = false := by
        rw [← eq_of_beq hb]
        simpa using hnames.1.1
      rw [hother]
  | trans h _ ih ih' =>
    exact (ih hnames).trans (ih' ((h.map _).nodup_iff.1 hnames))

/-- Bindings for other names are passed over. -/
theorem first?_append {extra : List Binding} {name : String} (h : ∀ b ∈ extra, b.name ≠ name)
    (front back : List Binding) :
    first? (front ++ (extra ++ back)) name = first? (front ++ back) name := by
  have hnone : extra.find? (fun b => b.name == name) = none :=
    List.find?_eq_none.2 fun b hb => by simpa using h b hb
  simp only [first?, List.find?_append, hnone, Option.none_or]

/-- An object with the names and values of bindings gives the same values. -/
theorem valuesOf_textTable (t : Table String) : valuesOf (textTable t) = .valid t := by
  refine congrArg Checked.valid ?_
  rw [List.map_map]
  exact List.map_id t

end Binding

namespace Condition

/-! ## The names in a condition -/

mutual

/-- The variables that are compared in the condition, from left to right. -/
def names : Condition → List String
  | .absent => []
  | .simple name _ _ => [name]
  | .compound _ parts => namesOfAll parts

/-- The variables that are compared in the conditions. -/
def namesOfAll : List Condition → List String
  | [] => []
  | c :: rest => c.names ++ namesOfAll rest

end

theorem namesOfAll_eq_flatMap (cs : List Condition) : namesOfAll cs = cs.flatMap names := by
  induction cs with
  | nil => rw [namesOfAll, List.flatMap_nil]
  | cons c rest ih => rw [namesOfAll, ih, List.flatMap_cons]

theorem mem_names_compound {operator : Option String} {parts : List Condition} {name : String} :
    name ∈ (compound operator parts).names ↔ ∃ c ∈ parts, name ∈ c.names := by
  rw [names, namesOfAll_eq_flatMap, List.mem_flatMap]

section

variable {values values' : Table String}

mutual

/-- A condition has one outcome under values that agree on its names. -/
theorem holds_congr (c : Condition)
    (h : ∀ name ∈ c.names, values.lookup name = values'.lookup name) :
    c.holds values = c.holds values' := by
  cases c with
  | absent => rw [holds, holds]
  | simple name operator expected =>
    have hname := h name (by rw [names]; exact List.mem_singleton_self name)
    rw [holds, holds, compare, compare, hname]
  | compound operator parts =>
    rw [names] at h
    have hparts := holds_congr_of_mem parts h
    have hall : (∀ c ∈ parts, c.holds values = true) ↔ ∀ c ∈ parts, c.holds values' = true :=
      forall₂_congr fun c hc => by rw [hparts c hc]
    have hsome : (∃ c ∈ parts, c.holds values = true) ↔ ∃ c ∈ parts, c.holds values' = true :=
      exists_congr fun c => and_congr_right fun hc => by rw [hparts c hc]
    rw [Bool.eq_iff_iff, holds_compound, holds_compound, hall, hsome]

theorem holds_congr_of_mem (cs : List Condition)
    (h : ∀ name ∈ namesOfAll cs, values.lookup name = values'.lookup name) :
    ∀ c ∈ cs, c.holds values = c.holds values' := by
  cases cs with
  | nil => exact fun c hc => absurd hc List.not_mem_nil
  | cons c rest =>
    rw [namesOfAll, List.forall_mem_append] at h
    rw [List.forall_mem_cons]
    exact ⟨holds_congr c h.1, holds_congr_of_mem rest h.2⟩

end

end

/-! ## The names in free-form data -/

/-- A comparison in the data, at any depth, names the variable.  A comparison that lacks a name or
an operator and a joint whose operator is no text name none. -/
inductive Named (name : String) : Value → Prop
  | compared {fields : Fields} {operator : String} (type_eq : typeOf fields = .text "simple")
      (name_eq : value? fields variableName = some (.text name))
      (operator_eq : value? fields operatorName = some (.text operator)) :
      Named name (.object fields)
  | joined {fields : Fields} {cs : List Value} (joins : Joins fields cs)
      (readable : ∀ v, value? fields joinName = some v → v = .null ∨ ∃ s, v = .text s)
      {c : Value} (mem : c ∈ cs) (member : Named name c) : Named name (.object fields)

/-- An operator can be read if it is a text, or null or left out. -/
theorem exists_operator_iff {fields : Fields} :
    (∃ operator, optional text? none joinName fields = .valid operator) ↔
      ∀ v, value? fields joinName = some v → v = .null ∨ ∃ s, v = .text s := by
  simp only [optional_eq_valid_iff]
  constructor
  · rintro ⟨operator, ⟨hnone, -⟩ | ⟨v, hv, hread⟩⟩ w hw
    · rw [hnone] at hw
      cases hw
    · rw [hv] at hw
      cases hw
      cases v with
      | null => exact .inl rfl
      | text s => exact .inr ⟨s, rfl⟩
      | _ => cases hread
  · intro h
    cases hv : value? fields joinName with
    | none => exact ⟨none, .inl ⟨rfl, rfl⟩⟩
    | some v =>
      rcases h v hv with rfl | ⟨s, rfl⟩
      · exact ⟨none, .inr ⟨_, rfl, rfl⟩⟩
      · exact ⟨some s, .inr ⟨_, rfl, rfl⟩⟩

/-- What is read for a value has names if it is a comparison or a joint that can be read. -/
theorem mem_names_toOption {read : Checked Condition} {name : String} :
    name ∈ (read.toOption.getD .absent).names ↔ ∃ c, read = .valid c ∧ name ∈ c.names := by
  cases read with
  | valid c => simp [Checked.toOption]
  | invalid issues => simp [Checked.toOption, names]

theorem mem_names_of_named {name : String} {v : Value} (h : Named name v) :
    name ∈ (ofValue v).names := by
  induction h with
  | compared htype hname hoperator =>
    rw [ofValue_simple htype, mem_names_toOption]
    refine ⟨_, (checkSimple_eq_valid_iff htype).2 ⟨_, _, hname, hoperator, rfl⟩, ?_⟩
    rw [names]
    exact List.mem_singleton_self _
  | @joined fields cs hjoins hreadable c hmem _ ih =>
    obtain ⟨operator, hoperator⟩ := exists_operator_iff.2 hreadable
    rw [ofValue_compound hjoins.type_eq, mem_names_toOption]
    refine ⟨_, (checkCompound_eq_valid_iff hjoins.type_eq).2 ⟨_, cs, hjoins, hoperator, rfl⟩, ?_⟩
    exact mem_names_compound.2 ⟨ofValue c, List.mem_map_of_mem hmem, ih⟩

/-- Only comparisons and joints have names. -/
theorem type_of_names {name : String} {v : Value} (h : name ∈ (ofValue v).names) :
    ∃ fields, v = .object fields ∧
      (typeOf fields = .text "compound" ∨ typeOf fields = .text "simple") := by
  have hne : ofValue v ≠ .absent := by
    intro habsent
    rw [habsent, names] at h
    cases h
  exact type_of_ofValue hne

theorem named_of_mem_names {name : String} (v : Value) (h : name ∈ (ofValue v).names) :
    Named name v := by
  obtain ⟨fields, hv, htype | htype⟩ := type_of_names h
  · rw [hv, ofValue_compound htype, mem_names_toOption] at h
    obtain ⟨_, hread, hname⟩ := h
    obtain ⟨operator, cs, hjoins, hoperator, rfl⟩ := (checkCompound_eq_valid_iff htype).1 hread
    obtain ⟨_, hmem, hname⟩ := mem_names_compound.1 hname
    obtain ⟨c, hc, rfl⟩ := List.mem_map.1 hmem
    have hsmaller : sizeOf c < sizeOf v := hv ▸ sizeOf_lt_of_joins hjoins hc
    rw [hv]
    exact .joined hjoins (exists_operator_iff.1 ⟨operator, hoperator⟩) hc
      (named_of_mem_names c hname)
  · rw [hv, ofValue_simple htype, mem_names_toOption] at h
    obtain ⟨_, hread, hname⟩ := h
    obtain ⟨name', operator, hvariable, hoperator, rfl⟩ := (checkSimple_eq_valid_iff htype).1 hread
    rw [names, List.mem_singleton] at hname
    rw [hv]
    exact .compared htype (hname ▸ hvariable) hoperator
termination_by sizeOf v

/-- The names in what is read are those that the data names. -/
theorem mem_names_ofValue_iff {name : String} {v : Value} :
    name ∈ (ofValue v).names ↔ Named name v :=
  ⟨named_of_mem_names v, mem_names_of_named⟩

/-! ## Bindings that are seen -/

/-- Of the bindings a test sees the first one of each named variable and nothing else. -/
structure SeesOnly (named : String → Prop) (test : Table String → Bool) : Prop where
  /-- Lists are the same to it in which the first bindings of every named variable have one value,
  or in which both lack one. -/
  agreeing : ∀ bs bs' : List Binding,
    (∀ name, named name → Binding.first? bs name = Binding.first? bs' name) →
      test (Binding.values bs) = test (Binding.values bs')
  /-- Where names are distinct, the order of the bindings is not seen. -/
  reordered : ∀ bs bs' : List Binding, (bs.map (·.name)).Nodup → bs.Perm bs' →
    test (Binding.values bs') = test (Binding.values bs)
  /-- Nor is it seen whether they are given as a list or as an object. -/
  object : ∀ bs bs' : List Binding, (bs.map (·.name)).Nodup → bs.Perm bs' →
    ∃ values, Binding.valuesOf (textTable (Binding.values bs')) = .valid values ∧
      test values = test (Binding.values bs)
  /-- Bindings for other variables are not seen, wherever they stand. -/
  others : ∀ front extra back : List Binding, (∀ b ∈ extra, ¬ named b.name) →
    test (Binding.values (front ++ (extra ++ back))) = test (Binding.values (front ++ back))

/-- A test that depends on the values of named variables does not see how they are bound. -/
theorem SeesOnly.of_congr {named : String → Prop} {test : Table String → Bool}
    (h : ∀ values values' : Table String,
      (∀ name, named name → values.lookup name = values'.lookup name) →
        test values = test values') : SeesOnly named test := by
  have hagree : ∀ bs bs' : List Binding,
      (∀ name, named name → Binding.first? bs name = Binding.first? bs' name) →
        test (Binding.values bs) = test (Binding.values bs') := by
    intro bs bs' hfirst
    refine h _ _ fun name hname => ?_
    rw [Binding.lookup_values, Binding.lookup_values, hfirst name hname]
  have hperm : ∀ bs bs' : List Binding, (bs.map (·.name)).Nodup → bs.Perm bs' →
      test (Binding.values bs') = test (Binding.values bs) := fun bs bs' hnames hperm =>
    hagree bs' bs fun name _ => (Binding.first?_perm hnames hperm name).symm
  refine ⟨hagree, hperm, fun bs bs' hnames hp => ?_, fun front extra back hother => ?_⟩
  · exact ⟨_, Binding.valuesOf_textTable _, hperm bs bs' hnames hp⟩
  · refine hagree _ _ fun name hname => Binding.first?_append ?_ front back
    exact fun b hb heq => hother b hb (heq ▸ hname)

/-- **A condition sees the variables that it names.**  Its outcome depends on the first bindings of
these variables only, be it a condition that has been read or free-form data, in which what cannot
be read names nothing. -/
theorem sees_only_names :
    (∀ c : Condition, SeesOnly (· ∈ c.names) c.holds) ∧
      ∀ v : Value, SeesOnly (Named · v) fun values => evaluate values v := by
  refine ⟨fun c => .of_congr fun values values' h => holds_congr c h, fun v => ?_⟩
  refine .of_congr fun values values' h => holds_congr (ofValue v) fun name hname => ?_
  exact h name (mem_names_ofValue_iff.1 hname)

/-- A joint that names `who` and holds a comparison without an operator, which does not name `tone`:
the second binding of `who` and the bindings of `tone` are not seen, in whatever order they come. -/
theorem sees_only_names_malformed :
    let v := joined (some (.text "AND"))
      [.object [("variable", .text "who"), ("operator", .text "equals"), ("value", .text "Ada")],
        joined (some (.text "OR")) [.object [("variable", .text "tone")],
          .object [("variable", .text "who"), ("operator", .text "isNotEmpty")]]]
    let ada : Binding := { name := "who", value := "Ada" }
    let bob : Binding := { name := "who", value := "Bob" }
    let formal : Binding := { name := "tone", value := "formal" }
    (ofValue v).names = ["who", "who"] ∧ evaluate (Binding.values [ada]) v = true ∧
      evaluate (Binding.values [ada, bob]) v = evaluate (Binding.values [ada]) v ∧
      evaluate (Binding.values [formal, ada]) v = evaluate (Binding.values [ada]) v ∧
      evaluate (Binding.values [formal, ada]) v = evaluate (Binding.values [ada, formal]) v ∧
      ∃ values, Binding.valuesOf (.object [("tone", .text "formal"), ("who", .text "Ada")]) =
        .valid values ∧ evaluate values v = true := by
  intro v ada bob formal
  have hnames : (ofValue v).names = ["who", "who"] := by decide +kernel
  have hholds : evaluate (Binding.values [ada]) v = true := by decide +kernel
  have hwho : ∀ name, Named name v → name = "who" := by
    intro name h
    have hmem := mem_names_ofValue_iff.2 h
    rw [hnames] at hmem
    simpa using hmem
  obtain ⟨-, hraw⟩ := sees_only_names
  have hsees := hraw v
  have hother : evaluate (Binding.values [formal, ada]) v = evaluate (Binding.values [ada]) v := by
    refine hsees.others [] [formal] [ada] fun b hb hnamed => ?_
    obtain rfl := List.mem_singleton.1 hb
    exact absurd (hwho _ hnamed) (by decide)
  have hdistinct : ([ada, formal].map (·.name)).Nodup := by decide
  have hswap : [ada, formal].Perm [formal, ada] := .swap formal ada []
  have hreordered := hsees.reordered [ada, formal] [formal, ada] hdistinct hswap
  refine ⟨hnames, hholds, ?_, hother, hreordered, ?_⟩
  · refine hsees.agreeing [ada, bob] [ada] fun name hnamed => ?_
    rw [hwho name hnamed]
    rfl
  · obtain ⟨values, hvalues, hsame⟩ := hsees.object [ada, formal] [formal, ada] hdistinct hswap
    exact ⟨values, hvalues, by rw [hsame, ← hreordered, hother, hholds]⟩

end Condition

end Stencil
