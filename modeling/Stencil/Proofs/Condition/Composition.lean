import Stencil.Condition.Evaluation
import Stencil.Proofs.Wire

/-!
# Conditions that are written as free-form data

Free-form data is read as a condition and the condition is tested; what comes of it is said by the
data alone (`Satisfied`, `evaluate_eq_true_iff`).  An object that joins conditions holds by the
outcomes of its members, whatever is written in them, and not by their order or number:

    evaluate values (joined AND cs) = (!cs.isEmpty && cs.all (evaluate values))
    evaluate values (joined OR cs)  = cs.any (evaluate values)                (evaluate_joined)
-/

namespace Stencil.Condition

open Wire

def evaluate (values : Table String) (v : Value) : Bool := (ofValue v).holds values

/-- The object joins the conditions that these values write; without a field for them it joins
none. -/
structure Joins (fields : Fields) (cs : List Value) : Prop where
  type_eq : typeOf fields = .text "compound"
  parts : value? fields partsName = some (.list cs) ∨ value? fields partsName = none ∧ cs = []

theorem Joins.unique {fields : Fields} {cs cs' : List Value} (h : Joins fields cs)
    (h' : Joins fields cs') : cs = cs' := by
  rcases h.parts with hcs | ⟨hnone, rfl⟩
  · rcases h'.parts with hcs' | ⟨hnone', -⟩
    · rw [hcs] at hcs'
      cases hcs'
      rfl
    · rw [hcs] at hnone'
      cases hnone'
  · rcases h'.parts with hcs' | ⟨-, rfl⟩
    · rw [hnone] at hcs'
      cases hcs'
    · rfl

/-! ## What is read -/

/-- The type of an object passes its own check. -/
theorem optional_literal {fields : Fields} {s : String} (h : typeOf fields = .text s) :
    optional (literal s) () typeName fields = .valid () := by
  refine optional_eq_valid_iff.2 ?_
  have hfield : value? fields typeName = fields.lookup "type" := by
    simp only [value?, find?, typeName, Name.same]
    cases hlookup : fields.lookup "type" <;> rfl
  rw [hfield]
  unfold typeOf at h
  cases hlookup : fields.lookup "type" with
  | none => exact .inl ⟨rfl, rfl⟩
  | some v =>
    rw [hlookup] at h
    have hv : v = .text s := h
    exact .inr ⟨v, rfl, by rw [hv]; exact if_pos rfl⟩

theorem ofValue_compound {fields : Fields} (h : typeOf fields = .text "compound") :
    ofValue (.object fields) =
      (checkCompound fields (partsOfFields fields)).toOption.getD .absent := by
  rw [ofValue, ofFields, h]
  rfl

theorem ofValue_simple {fields : Fields} (h : typeOf fields = .text "simple") :
    ofValue (.object fields) = (checkSimple fields).toOption.getD .absent := by
  rw [ofValue, ofFields, h]
  rfl

/-- Reading the fields that are lists keeps each in its place. -/
theorem value?_partsOfFields (fields : Fields) (name : Name) :
    value? (partsOfFields fields) name = (value? fields name).map partsOf := by
  unfold value? find?
  rw [lookup_partsOfFields, lookup_partsOfFields]
  cases fields.lookup name.wire with
  | some v => rfl
  | none => cases fields.lookup name.plain <;> rfl

theorem checkParts_eq_valid_iff {fields : Fields} {parts : List Condition} :
    checkParts (partsOfFields fields) = .valid parts ↔
      (value? fields partsName = none ∧ parts = []) ∨
        ∃ cs, value? fields partsName = some (.list cs) ∧ parts = cs.map ofValue := by
  have hfield := value?_partsOfFields fields partsName
  unfold checkParts
  cases hfind : find? (partsOfFields fields) partsName with
  | none =>
    rw [value?, hfind, Option.map_none] at hfield
    have hnone : value? fields partsName = none := Option.map_eq_none_iff.1 hfield.symm
    simp [hnone, eq_comm]
  | some found =>
    obtain ⟨name, read⟩ := found
    rw [value?, hfind, Option.map_some] at hfield
    obtain ⟨v, hv, rfl⟩ := Option.map_eq_some_iff.1 hfield.symm
    cases v with
    | list items => simp [hv, partsOf, ofItems_eq_map, eq_comm]
    | _ => simp [hv, partsOf, Checked.fail, Checked.under]

/-- An operator is read where a text is written. -/
theorem optional_join_eq_valid_iff {fields : Fields} {s : String} :
    optional text? none joinName fields = .valid (some s) ↔
      value? fields joinName = some (.text s) := by
  rw [optional_eq_valid_iff]
  constructor
  · rintro (⟨-, h⟩ | ⟨v, hv, hread⟩)
    · cases h
    · cases v with
      | text t =>
        cases hread
        exact hv
      | _ => cases hread
  · exact fun h => .inr ⟨_, h, rfl⟩

/-! ## Joined conditions -/

/-- A joint holds if it says AND, joins something and all of it holds, or if it says OR and
something that it joins holds. -/
theorem holds_compound {values : Table String} {operator : Option String}
    {parts : List Condition} :
    holds values (.compound operator parts) = true ↔
      (operator = some "AND" ∧ parts ≠ [] ∧ ∀ c ∈ parts, holds values c = true) ∨
        (operator = some "OR" ∧ ∃ c ∈ parts, holds values c = true) := by
  rw [holds, Bool.and_eq_true, Bool.not_eq_true', List.isEmpty_eq_false_iff]
  by_cases hand : operator = some "AND"
  · simp [hand, allHold_eq_all]
  · by_cases hor : operator = some "OR"
    · simp only [hor, someHolds_eq_any, Option.some.injEq, String.reduceEq, if_false,
        if_true, List.any_eq_true, true_and, false_and, false_or]
      exact ⟨fun h => h.2, fun ⟨c, hc, h⟩ => ⟨List.ne_nil_of_mem hc, c, hc, h⟩⟩
    · simp [hand, hor]

theorem holds_toOption {values : Table String} {read : Checked Condition} :
    holds values (read.toOption.getD .absent) = true ↔
      ∃ c, read = .valid c ∧ holds values c = true := by
  cases read with
  | valid c => simp [Checked.toOption]
  | invalid issues => simp [Checked.toOption, holds]

/-- An object of the type of joints is read as the joint of what is read for the values that it
joins, if its operator can be read. -/
theorem checkCompound_eq_valid_iff {fields : Fields} (htype : typeOf fields = .text "compound")
    {c : Condition} :
    checkCompound fields (partsOfFields fields) = .valid c ↔
      ∃ operator cs, Joins fields cs ∧ optional text? none joinName fields = .valid operator ∧
        c = .compound operator (cs.map ofValue) := by
  constructor
  · intro h
    obtain ⟨_, operator, h₁, hoperator, rfl⟩ := Checked.seq_eq_valid_iff.1 h
    obtain ⟨_, parts, h₂, hparts, rfl⟩ := Checked.seq_eq_valid_iff.1 h₁
    obtain ⟨_, -, rfl⟩ := Checked.map_eq_valid_iff.1 h₂
    rcases checkParts_eq_valid_iff.1 hparts with ⟨hnone, rfl⟩ | ⟨cs, hcs, rfl⟩
    · exact ⟨operator, [], ⟨htype, .inr ⟨hnone, rfl⟩⟩, hoperator, rfl⟩
    · exact ⟨operator, cs, ⟨htype, .inl hcs⟩, hoperator, rfl⟩
  · rintro ⟨operator, cs, hjoins, hoperator, rfl⟩
    have hparts : checkParts (partsOfFields fields) = .valid (cs.map ofValue) := by
      rcases hjoins.parts with hcs | ⟨hnone, rfl⟩
      · exact checkParts_eq_valid_iff.2 (.inr ⟨cs, hcs, rfl⟩)
      · exact checkParts_eq_valid_iff.2 (.inl ⟨hnone, rfl⟩)
    rw [checkCompound, optional_literal htype, hparts, hoperator]
    rfl

/-- An object of the type of joints holds by the outcomes of the values that it joins. -/
theorem evaluate_compound {values : Table String} {fields : Fields}
    (htype : typeOf fields = .text "compound") :
    evaluate values (.object fields) = true ↔
      ∃ cs, Joins fields cs ∧
        ((value? fields joinName = some (.text "AND") ∧ cs ≠ [] ∧
            ∀ c ∈ cs, evaluate values c = true) ∨
          (value? fields joinName = some (.text "OR") ∧ ∃ c ∈ cs, evaluate values c = true)) := by
  rw [evaluate, ofValue_compound htype, holds_toOption]
  constructor
  · rintro ⟨c, hc, hholds⟩
    obtain ⟨operator, cs, hjoins, hoperator, rfl⟩ := (checkCompound_eq_valid_iff htype).1 hc
    refine ⟨cs, hjoins, ?_⟩
    rcases holds_compound.1 hholds with ⟨rfl, hne, hall⟩ | ⟨rfl, c, hc, hc'⟩
    · refine .inl ⟨optional_join_eq_valid_iff.1 hoperator, by simpa using hne, ?_⟩
      exact fun c hc => hall _ (List.mem_map_of_mem hc)
    · obtain ⟨raw, hraw, rfl⟩ := List.mem_map.1 hc
      exact .inr ⟨optional_join_eq_valid_iff.1 hoperator, raw, hraw, hc'⟩
  · rintro ⟨cs, hjoins, houtcome⟩
    have hchecked : ∀ s, value? fields joinName = some (.text s) →
        checkCompound fields (partsOfFields fields) =
          .valid (.compound (some s) (cs.map ofValue)) := fun s hs =>
      (checkCompound_eq_valid_iff htype).2
        ⟨some s, cs, hjoins, optional_join_eq_valid_iff.2 hs, rfl⟩
    rcases houtcome with ⟨hand, hne, hall⟩ | ⟨hor, c, hc, hc'⟩
    · refine ⟨_, hchecked _ hand, holds_compound.2 (.inl ⟨rfl, by simpa using hne, ?_⟩)⟩
      intro c hc
      obtain ⟨raw, hraw, rfl⟩ := List.mem_map.1 hc
      exact hall raw hraw
    · exact ⟨_, hchecked _ hor, holds_compound.2
        (.inr ⟨rfl, ofValue c, List.mem_map_of_mem hc, hc'⟩)⟩

/-! ## Comparisons -/

/-- The text that an object compares with: nothing if it has no field for it. -/
def expectedText (fields : Fields) : String := ((value? fields valueName).map comparedText).getD ""

theorem optional_value (fields : Fields) :
    optional (fun v => .valid (comparedText v)) "" valueName fields =
      .valid (expectedText fields) := by
  unfold expectedText
  refine optional_eq_valid_iff.2 ?_
  cases hvalue : value? fields valueName with
  | none => exact .inl ⟨rfl, rfl⟩
  | some v => exact .inr ⟨v, rfl, rfl⟩

theorem required_text_eq_valid_iff {name : Name} {fields : Fields} {s : String} :
    required text name fields = .valid s ↔ value? fields name = some (.text s) := by
  rw [required_eq_valid_iff]
  constructor
  · rintro ⟨v, hv, hread⟩
    cases v with
    | text t =>
      cases hread
      exact hv
    | _ => cases hread
  · exact fun h => ⟨_, h, rfl⟩

/-- An object of the type of comparisons is read if it names a variable and an operator. -/
theorem checkSimple_eq_valid_iff {fields : Fields} (htype : typeOf fields = .text "simple")
    {c : Condition} :
    checkSimple fields = .valid c ↔
      ∃ name operator, value? fields variableName = some (.text name) ∧
        value? fields operatorName = some (.text operator) ∧
        c = .simple name operator (expectedText fields) := by
  constructor
  · intro h
    obtain ⟨_, expected, h₁, hexpected, rfl⟩ := Checked.seq_eq_valid_iff.1 h
    obtain ⟨_, operator, h₂, hoperator, rfl⟩ := Checked.seq_eq_valid_iff.1 h₁
    obtain ⟨_, name, h₃, hname, rfl⟩ := Checked.seq_eq_valid_iff.1 h₂
    obtain ⟨_, -, rfl⟩ := Checked.map_eq_valid_iff.1 h₃
    rw [optional_value] at hexpected
    cases hexpected
    exact ⟨name, operator, required_text_eq_valid_iff.1 hname,
      required_text_eq_valid_iff.1 hoperator, rfl⟩
  · rintro ⟨name, operator, hname, hoperator, rfl⟩
    rw [checkSimple, optional_literal htype, required_text_eq_valid_iff.2 hname,
      required_text_eq_valid_iff.2 hoperator, optional_value]
    rfl

/-- An object of the type of comparisons holds if it names a variable and an operator and the
comparison holds. -/
theorem evaluate_simple {values : Table String} {fields : Fields}
    (htype : typeOf fields = .text "simple") :
    evaluate values (.object fields) = true ↔
      ∃ name operator, value? fields variableName = some (.text name) ∧
        value? fields operatorName = some (.text operator) ∧
        compare values name operator (expectedText fields) = true := by
  rw [evaluate, ofValue_simple htype, holds_toOption]
  constructor
  · rintro ⟨c, hc, hholds⟩
    obtain ⟨name, operator, hname, hoperator, rfl⟩ := (checkSimple_eq_valid_iff htype).1 hc
    exact ⟨name, operator, hname, hoperator, hholds⟩
  · rintro ⟨name, operator, hname, hoperator, hcompare⟩
    exact ⟨_, (checkSimple_eq_valid_iff htype).2 ⟨name, operator, hname, hoperator, rfl⟩, hcompare⟩

/-- A variable without a value fails every comparison. -/
theorem compare_of_unbound {values : Table String} {name : String}
    (h : values.lookup name = none) (operator expected : String) :
    compare values name operator expected = false := by
  rw [compare, h]

/-! ## What the data says -/

/-- The data says that the condition holds: it is a comparison that holds, or a joint that says AND
and joins something and only what holds, or a joint that says OR and joins something that holds. -/
inductive Satisfied (values : Table String) : Value → Prop
  | simple {fields : Fields} {name operator : String}
      (type_eq : typeOf fields = .text "simple")
      (name_eq : value? fields variableName = some (.text name))
      (operator_eq : value? fields operatorName = some (.text operator))
      (holds : compare values name operator (expectedText fields) = true) :
      Satisfied values (.object fields)
  | all {fields : Fields} {cs : List Value} (joins : Joins fields cs)
      (operator_eq : value? fields joinName = some (.text "AND")) (nonempty : cs ≠ [])
      (members : ∀ c ∈ cs, Satisfied values c) : Satisfied values (.object fields)
  | any {fields : Fields} {cs : List Value} (joins : Joins fields cs)
      (operator_eq : value? fields joinName = some (.text "OR")) {c : Value} (mem : c ∈ cs)
      (member : Satisfied values c) : Satisfied values (.object fields)

theorem evaluate_of_satisfied {values : Table String} {v : Value} (h : Satisfied values v) :
    evaluate values v = true := by
  induction h with
  | simple htype hname hoperator hcompare =>
    exact (evaluate_simple htype).2 ⟨_, _, hname, hoperator, hcompare⟩
  | all hjoins hoperator hne _ ih =>
    exact (evaluate_compound hjoins.type_eq).2 ⟨_, hjoins, .inl ⟨hoperator, hne, ih⟩⟩
  | any hjoins hoperator hmem _ ih =>
    exact (evaluate_compound hjoins.type_eq).2 ⟨_, hjoins, .inr ⟨hoperator, _, hmem, ih⟩⟩

/-- What an object joins is smaller than the object. -/
theorem sizeOf_lt_of_joins {fields : Fields} {cs : List Value} (h : Joins fields cs) {c : Value}
    (hc : c ∈ cs) : sizeOf c < sizeOf (Value.object fields) := by
  rcases h.parts with hcs | ⟨-, rfl⟩
  · obtain ⟨name, hmem⟩ := mem_of_value? hcs
    have hmember := List.sizeOf_lt_of_mem hc
    have hfield := List.sizeOf_lt_of_mem hmem
    simp only [Prod.mk.sizeOf_spec, Value.list.sizeOf_spec] at hfield
    simp only [Value.object.sizeOf_spec]
    omega
  · cases hc

/-- Only comparisons and joints are read. -/
theorem type_of_ofValue {v : Value} (h : ofValue v ≠ .absent) :
    ∃ fields, v = .object fields ∧
      (typeOf fields = .text "compound" ∨ typeOf fields = .text "simple") := by
  cases v with
  | object fields =>
    refine ⟨fields, rfl, ?_⟩
    rw [ofValue, ofFields] at h
    split at h
    · rename_i htype
      exact .inl htype
    · rename_i htype
      exact .inr htype
    · exact absurd rfl h
  | _ =>
    refine absurd ?_ h
    rw [ofValue]
    exact fun fields hv => nomatch hv

/-- Only comparisons and joints hold. -/
theorem type_of_evaluate {values : Table String} {v : Value} (h : evaluate values v = true) :
    ∃ fields, v = .object fields ∧
      (typeOf fields = .text "compound" ∨ typeOf fields = .text "simple") := by
  refine type_of_ofValue fun habsent => ?_
  rw [evaluate, habsent, holds] at h
  cases h

theorem satisfied_of_evaluate {values : Table String} (v : Value)
    (h : evaluate values v = true) : Satisfied values v := by
  obtain ⟨fields, hv, htype | htype⟩ := type_of_evaluate h
  · rw [hv] at h
    obtain ⟨cs, hjoins, houtcome⟩ := (evaluate_compound htype).1 h
    have hmember : ∀ c ∈ cs, evaluate values c = true → Satisfied values c := by
      intro c hc hholds
      have hsmaller : sizeOf c < sizeOf v := hv ▸ sizeOf_lt_of_joins hjoins hc
      exact satisfied_of_evaluate c hholds
    rw [hv]
    rcases houtcome with ⟨hoperator, hne, hall⟩ | ⟨hoperator, c, hc, hholds⟩
    · exact .all hjoins hoperator hne fun c hc => hmember c hc (hall c hc)
    · exact .any hjoins hoperator hc (hmember c hc hholds)
  · rw [hv] at h ⊢
    obtain ⟨name, operator, hname, hoperator, hcompare⟩ := (evaluate_simple htype).1 h
    exact .simple htype hname hoperator hcompare
termination_by sizeOf v

/-- What is read and tested is what the data says. -/
theorem evaluate_eq_true_iff {values : Table String} {v : Value} :
    evaluate values v = true ↔ Satisfied values v :=
  ⟨satisfied_of_evaluate v, evaluate_of_satisfied⟩

/-! ## Joints as they are written -/

/-- The object that joins conditions by an operator, or without one. -/
def joined (operator : Option Value) (cs : List Value) : Value :=
  .object ((operator.map fun v => ("logicalOperator", v)).toList ++ [("subConditions", .list cs)])

theorem joins_joined (operator : Option Value) (cs : List Value) :
    ∃ fields, joined operator cs = .object fields ∧ Joins fields cs ∧
      value? fields joinName = operator := by
  refine ⟨_, rfl, ⟨?_, .inl ?_⟩, ?_⟩ <;> cases operator <;> rfl

/-- A joint holds by the outcomes of its members. -/
theorem evaluate_of_joins {values : Table String} {fields : Fields} {cs : List Value}
    (h : Joins fields cs) :
    evaluate values (.object fields) = true ↔
      (value? fields joinName = some (.text "AND") ∧ cs ≠ [] ∧
          ∀ c ∈ cs, evaluate values c = true) ∨
        (value? fields joinName = some (.text "OR") ∧ ∃ c ∈ cs, evaluate values c = true) := by
  rw [evaluate_compound h.type_eq]
  constructor
  · rintro ⟨cs', h', houtcome⟩
    rwa [h.unique h']
  · exact fun houtcome => ⟨cs, h, houtcome⟩

theorem evaluate_joined_eq_true_iff {values : Table String} {operator : Option Value}
    {cs : List Value} :
    evaluate values (joined operator cs) = true ↔
      (operator = some (.text "AND") ∧ cs ≠ [] ∧ ∀ c ∈ cs, evaluate values c = true) ∨
        (operator = some (.text "OR") ∧ ∃ c ∈ cs, evaluate values c = true) := by
  obtain ⟨fields, hjoined, hjoins, rfl⟩ := joins_joined operator cs
  rw [hjoined, evaluate_of_joins hjoins]

/-- **Joined conditions.**  What is evaluated is what the data says.  AND holds of some conditions
that all hold, OR of conditions of which one holds, anything else of none, in whatever order, number
and spelling the conditions are given; and no comparison holds of a variable without a value. -/
theorem evaluate_joined (values : Table String) (cs : List Value) :
    (∀ v, evaluate values v = true ↔ Satisfied values v) ∧
    (evaluate values (joined (some (.text "AND")) cs) =
        (!cs.isEmpty && cs.all (evaluate values)) ∧
      evaluate values (joined (some (.text "OR")) cs) = cs.any (evaluate values) ∧
      ∀ operator, operator ≠ some (.text "AND") → operator ≠ some (.text "OR") →
        evaluate values (joined operator cs) = false) ∧
    (∀ fields, Joins fields cs →
      evaluate values (.object fields) = evaluate values (joined (value? fields joinName) cs)) ∧
    (∀ name, values.lookup name = none →
      (∀ operator expected, holds values (.simple name operator expected) = false) ∧
      ∀ fields, typeOf fields = .text "simple" →
        value? fields variableName = some (.text name) →
          evaluate values (.object fields) = false) ∧
    ∀ operator cs', (∀ c, c ∈ cs' ↔ c ∈ cs) →
      evaluate values (joined operator cs') = evaluate values (joined operator cs) := by
  refine ⟨fun v => evaluate_eq_true_iff, ⟨?_, ?_, ?_⟩, ?_, ?_, ?_⟩
  · rw [Bool.eq_iff_iff, evaluate_joined_eq_true_iff]
    simp
  · rw [Bool.eq_iff_iff, evaluate_joined_eq_true_iff]
    simp
  · intro operator hand hor
    rw [← Bool.not_eq_true, evaluate_joined_eq_true_iff]
    rintro (⟨h, -⟩ | ⟨h, -⟩)
    · exact hand h
    · exact hor h
  · intro fields hjoins
    rw [Bool.eq_iff_iff, evaluate_joined_eq_true_iff, evaluate_of_joins hjoins]
  · intro name hunbound
    refine ⟨fun operator expected => ?_, fun fields htype hname => ?_⟩
    · rw [holds, compare_of_unbound hunbound]
    · rw [← Bool.not_eq_true, evaluate_simple htype]
      rintro ⟨name', operator, hname', -, hcompare⟩
      rw [hname] at hname'
      cases hname'
      rw [compare_of_unbound hunbound] at hcompare
      cases hcompare
  · intro operator cs' hmem
    have hnil : cs' ≠ [] ↔ cs ≠ [] := by
      simp only [ne_eq, List.eq_nil_iff_forall_not_mem, hmem]
    rw [Bool.eq_iff_iff, evaluate_joined_eq_true_iff, evaluate_joined_eq_true_iff]
    simp only [hnil, hmem]

/-- A text that is no condition, a joint inside, a comparison of an unbound variable, the same
conditions in another order and twice, and a joint with a type and another spelling. -/
theorem evaluate_joined_malformed :
    let values : Table String := [("who", "Ada")]
    let ada : Value :=
      .object [("variable", .text "who"), ("operator", .text "equals"), ("value", .text "Ada")]
    let unbound : Table Value := [("variable", .text "tone"), ("operator", .text "isEmpty")]
    let inside := joined (some (.text "OR")) [.text "no condition", ada]
    let spelled : Table Value :=
      [("sub_conditions", .list [inside, ada]), ("type", .text "compound"),
        ("logical_operator", .text "AND")]
    evaluate values ada = true ∧
    evaluate values inside = true ∧
    evaluate values (.object spelled) = true ∧
    evaluate values (joined (some (.text "XOR")) [inside, ada]) = false ∧
    evaluate values (.object unbound) = false ∧
    evaluate values (joined (some (.text "AND")) [ada, inside, ada]) = true := by
  intro values ada unbound inside spelled
  have hada : evaluate values ada = true := by decide +kernel
  have hinside : evaluate values inside = true := by
    obtain ⟨-, ⟨-, hor, -⟩, -⟩ := evaluate_joined values [.text "no condition", ada]
    rw [hor]
    simp [hada]
  obtain ⟨-, ⟨hand, -, hother⟩, hspelled, hunbound, hmembers⟩ :=
    evaluate_joined values [inside, ada]
  have hall : evaluate values (joined (some (.text "AND")) [inside, ada]) = true := by
    rw [hand]
    simp [hinside, hada]
  refine ⟨hada, hinside, ?_, hother _ (by simp) (by simp),
    (hunbound "tone" rfl).2 unbound rfl rfl, ?_⟩
  · rw [hspelled spelled ⟨rfl, .inl rfl⟩]
    exact hall
  · rw [hmembers _ [ada, inside, ada] (by intro c; simp [or_comm])]
    exact hall

end Stencil.Condition
