import Stencil.Proofs.Condition.Composition
import Stencil.Proofs.Rule.Skipping

/-!
# Rules that are written and read again

A condition is read as it was written, at every depth and with the places of what could not be read
(`Condition.ofValue_toValue`), and so is a rule (`Rule.check_toValue`).  A condition may therefore
be tested as it is given, as it is read, as part of a rule, or when the rule was written and read
again:

    Rule.check (object with condition x) = .valid r →
      r.condition.holds values = evaluate values x                          (readings_agree)
-/

namespace Stencil

open Wire

/-! ## Conditions -/

namespace Condition

/-- A joint is read with what is read for its members. -/
theorem ofValue_joint (operator : Option String) (members : List Value) :
    ofValue (.object [("type", .text "compound"), ("subConditions", .list members),
      ("logicalOperator", textOrNull operator)]) = .compound operator (ofItems members) := by
  cases operator <;> rfl

mutual

/-- A condition is read as it was written. -/
theorem ofValue_toValue (c : Condition) : ofValue c.toValue = c := by
  cases c with
  | absent => rfl
  | simple name operator expected => rfl
  | compound operator parts => rw [toValue, ofValue_joint, ofItems_toValues parts]

theorem ofItems_toValues (cs : List Condition) : ofItems (toValues cs) = cs := by
  cases cs with
  | nil => rfl
  | cons c rest => rw [toValues, ofItems, ofValue_toValue c, ofItems_toValues rest]

end

end Condition

/-! ## Rules -/

namespace Rule

/-- A rule is read as it was written. -/
theorem check_toValue (r : Rule) : check r.toValue = .valid r := by
  refine checkFields_eq_valid_iff.2 ⟨rfl, rfl, ?_, rfl, ?_⟩
  · show Checked.under "condition" (.valid (Condition.ofValue r.condition.toValue)) = _
    rw [Condition.ofValue_toValue, Checked.under_valid]
  · show Checked.under "targetVariables" (checkTargets (textList r.targets)) = _
    rw [RuleSource.checkTargets_textList, Checked.under_valid]

/-- The condition that an object gives a rule; without a field for it there is none. -/
def givenCondition (fields : Fields) : Value := (value? fields conditionField).getD .null

/-- The condition of a rule is what is read for the condition that is given. -/
theorem condition_eq {fields : Fields} {r : Rule} (h : checkFields fields = .valid r) :
    r.condition = Condition.ofValue (givenCondition fields) := by
  have hcondition := (checkFields_eq_valid_iff.1 h).2.2.1
  unfold givenCondition
  rcases optional_eq_valid_iff.1 hcondition with ⟨hnone, habsent⟩ | ⟨v, hv, hread⟩
  · rw [hnone, habsent]
    rfl
  · rw [hv]
    exact (Checked.valid.inj hread).symm

/-- Whatever a rule is given as its condition, it is still a rule. -/
theorem checkFields_set_condition {fields : Fields} {r : Rule} (h : checkFields fields = .valid r)
    (x : Value) : checkFields (Table.set "condition" x fields) =
      .valid { r with condition := Condition.ofValue x } := by
  obtain ⟨hname, hdescription, -, haction, htargets⟩ := checkFields_eq_valid_iff.1 h
  refine checkFields_eq_valid_iff.2 ⟨?_, ?_, ?_, ?_, ?_⟩
  · rwa [optional_set_of_ne _ (by decide) (by decide)]
  · rwa [optional_set_of_ne _ (by decide) (by decide)]
  · simp [Wire.optional, find?, conditionField, Name.same]
  · rwa [required_set_of_ne _ (by decide) (by decide)]
  · rwa [optional_set_of_ne _ (by decide) (by decide)]

/-- **Rules on the wire.**  Every rule that is read is read again as it is written, and so is a list
of rules.  Its condition has the outcome of the condition that it was given, before and after.  Any
value may be given as the condition; what is tested is the same whether it is tested as it stands,
as it is read, in a rule, or as that rule writes it. -/
theorem readings_agree (values : Table String) :
    (∀ v r, check v = .valid r → check r.toValue = .valid r) ∧
    (∀ rules : List Rule, list check (.list (rules.map toValue)) = .valid rules) ∧
    ∀ fields r, checkFields fields = .valid r →
      r.condition.holds values = Condition.evaluate values (givenCondition fields) ∧
      ∀ x : Value, ∃ read, check (.object (Table.set "condition" x fields)) = .valid read ∧
        check read.toValue = .valid read ∧
        read.condition = Condition.ofValue x ∧
        read.condition.holds values = Condition.evaluate values x ∧
        Condition.evaluate values read.condition.toValue = Condition.evaluate values x := by
  refine ⟨fun _ r _ => check_toValue r, fun rules => ?_, fun fields r h => ⟨?_, fun x => ?_⟩⟩
  · exact Checked.members_map rules (fun r _ => check_toValue r) 0
  · rw [condition_eq h, Condition.evaluate]
  · refine ⟨_, checkFields_set_condition h x, check_toValue _, rfl, rfl, ?_⟩
    rw [Condition.evaluate, Condition.ofValue_toValue]
    rfl

/-- A rule in the other spelling whose condition joins a text, a truth value to compare with and a
joint of nothing; the same rule with a text for its condition. -/
theorem readings_agree_spelled :
    let compared : Value :=
      .object [("variable", .text "who"), ("operator", .text "equals"), ("value", .bool true)]
    let given : Value := .object [("sub_conditions", .list [.text "no condition", compared,
      .object [("subConditions", .list [])]]), ("logical_operator", .text "OR")]
    let fields : Fields :=
      [("target_variables", .text "who:Ada"), ("condition", given), ("action", .text "insertText")]
    let r : Rule :=
      { condition := .compound (some "OR")
          [.absent, .simple "who" "equals" "true", .compound none []]
        action := "insertText"
        targets := ["who:Ada"] }
    checkFields fields = .valid r ∧
      check r.toValue = .valid r ∧
      r.condition.holds [("who", "true")] = Condition.evaluate [("who", "true")] given ∧
      Condition.evaluate [("who", "true")] given = true ∧
      ∃ read, check (.object (Table.set "condition" (.text "no condition") fields)) = .valid read ∧
        check read.toValue = .valid read ∧ read.condition = .absent := by
  intro compared given fields r
  have hread : checkFields fields = .valid r := rfl
  obtain ⟨hwritten, -, hreadings⟩ := readings_agree [("who", "true")]
  obtain ⟨hgiven, hany⟩ := hreadings fields r hread
  obtain ⟨read, hset, hagain, hcondition, -, -⟩ := hany (.text "no condition")
  exact ⟨hread, hwritten (.object fields) r hread, hgiven, by decide +kernel, read, hset, hagain,
    hcondition⟩

end Rule

end Stencil
