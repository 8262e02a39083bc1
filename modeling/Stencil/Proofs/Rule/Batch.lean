import Stencil.Document.Evolution
import Stencil.Proofs.Wire

/-!
# Rules in one batch and in two

Running two lists of rules at once is running the second on the draft that the first leaves behind;
the reports of the two runs are joined (`Run.fromPosition_append`).  The positions of the second
list differ between the two ways, but a position is only seen in the name of a rule that has none:

    (∀ raw ∈ second, raw.IsNamed) →
      Run.ofRules source (first ++ second) d = … .followedBy …      (ofRules_append_eq_followedBy)
-/

namespace Stencil

/-! ## Rules with a name of their own -/

/-- The fields of an object make a rule exactly when each of them can be read. -/
theorem Rule.checkFields_eq_valid_iff {fields : Wire.Fields} {r : Rule} :
    checkFields fields = .valid r ↔
      Wire.optional Wire.text "" nameField fields = .valid r.name ∧
      Wire.optional Wire.text "" descriptionField fields = .valid r.description ∧
      Wire.optional (fun v => .valid (Condition.ofValue v)) .absent conditionField fields =
        .valid r.condition ∧
      Wire.required Wire.text actionField fields = .valid r.action ∧
      Wire.optional checkTargets [] targetsField fields = .valid r.targets := by
  unfold checkFields
  constructor
  · intro h
    obtain ⟨_, targets, h₄, htargets, rfl⟩ := Checked.seq_eq_valid_iff.1 h
    obtain ⟨_, action, h₃, haction, rfl⟩ := Checked.seq_eq_valid_iff.1 h₄
    obtain ⟨_, condition, h₂, hcondition, rfl⟩ := Checked.seq_eq_valid_iff.1 h₃
    obtain ⟨_, description, h₁, hdescription, rfl⟩ := Checked.seq_eq_valid_iff.1 h₂
    obtain ⟨name, hname, rfl⟩ := Checked.map_eq_valid_iff.1 h₁
    exact ⟨hname, hdescription, hcondition, haction, htargets⟩
  · rintro ⟨hname, hdescription, hcondition, haction, htargets⟩
    rw [hname, hdescription, hcondition, haction, htargets]
    rfl

/-- The rule carries a name that is not empty, whether it has been read or not. -/
def RuleSource.IsNamed : RuleSource → Prop
  | .rule r => r.name ≠ ""
  | .raw (.object fields) => ∃ name, fields.lookup "name" = some (.text name) ∧ name ≠ ""
  | .raw _ => False

theorem RuleSource.givenName_of_lookup {fields : Table Value} {name : String}
    (h : fields.lookup "name" = some (.text name)) (hne : name ≠ "") (position : Nat) :
    givenName position fields = name := by
  have hgiven : (Value.text name).isGiven = true := by simpa [Value.isGiven] using hne
  simp [givenName, h, hgiven, Value.display]

/-- A rule with a name is read in the same way at every position. -/
theorem RuleSource.read_eq_of_isNamed {raw : RuleSource} (h : raw.IsNamed) (p q : Nat) :
    raw.read p = raw.read q := by
  unfold IsNamed at h
  split at h
  · rfl
  · obtain ⟨name, hlookup, hne⟩ := h
    simp only [read, givenName_of_lookup hlookup hne]
  · exact h.elim

/-- The rule that is read carries the name that was given. -/
theorem RuleSource.name_ne_of_isNamed {raw : RuleSource} (h : raw.IsNamed) {p : Nat} {r : Rule}
    (hr : raw.read p = .ok r) : r.name ≠ "" := by
  unfold IsNamed at h
  split at h
  · cases hr
    exact h
  · rename_i fields
    obtain ⟨name, hlookup, hne⟩ := h
    simp only [read] at hr
    split at hr
    · rename_i r' hcheck
      cases hr
      have hname := (Rule.checkFields_eq_valid_iff.1 hcheck).1
      simp only [Wire.optional, Wire.find?, Rule.nameField, Wire.Name.same, hlookup, Wire.text,
        Checked.under_valid] at hname
      cases hname
      exact hne
    · cases hr
  · exact h.elim

theorem Rule.nameAt_of_name_ne {r : Rule} (h : r.name ≠ "") (p : Nat) : r.nameAt p = r.name := by
  have hempty : r.name.isEmpty = false := by simpa using h
  simp [nameAt, hempty]

/-- What comes of a rule with a name does not depend on its position. -/
theorem RuleSource.consider_eq_of_isNamed {raw : RuleSource} (h : raw.IsNamed)
    (source : TextSource) (p q : Nat) (d : Draft) :
    raw.consider source p d = raw.consider source q d := by
  unfold consider
  rw [read_eq_of_isNamed h p q]
  cases hread : raw.read q with
  | error s => rfl
  | ok r =>
    have hname := name_ne_of_isNamed h hread
    simp only [Rule.nameAt_of_name_ne hname]

/-! ## Two lists of rules -/

namespace Run

/-- One run after another: what the second leaves of the draft, and what both report. -/
def followedBy (first second : Run) : Run where
  draft := second.draft
  applied := first.applied ++ second.applied
  skippedRules := first.skippedRules ++ second.skippedRules
  skippedTargets := first.skippedTargets ++ second.skippedTargets
  requests := first.requests ++ second.requests

/-- Running two lists of rules is running the second where the first has ended. -/
theorem fromPosition_append (source : TextSource) (p : Nat) (first second : List RuleSource)
    (d : Draft) :
    fromPosition source p (first ++ second) d =
      (fromPosition source p first d).followedBy
        (fromPosition source (p + first.length) second (fromPosition source p first d).draft) := by
  induction first generalizing p d with
  | nil => simp [fromPosition, followedBy]
  | cons raw rest ih =>
    have hlen : p + (raw :: rest).length = p + 1 + rest.length := by
      rw [List.length_cons]; omega
    rw [List.cons_append, hlen]
    cases hverdict : raw.consider source p d with
    | skipped s =>
      simp only [fromPosition, hverdict, ih (p + 1) d]
      simp [followedBy]
    | applied entry outcome =>
      simp only [fromPosition, hverdict, ih (p + 1) outcome.draft]
      simp [followedBy]

/-- Rules with names can be run from any position. -/
theorem fromPosition_eq_of_isNamed (source : TextSource) {rules : List RuleSource}
    (h : ∀ raw ∈ rules, raw.IsNamed) (p q : Nat) (d : Draft) :
    fromPosition source p rules d = fromPosition source q rules d := by
  induction rules generalizing p q d with
  | nil => rfl
  | cons raw rest ih =>
    have hraw := h raw List.mem_cons_self
    have hrest := ih fun raw' h' => h raw' (List.mem_cons_of_mem raw h')
    rw [fromPosition, fromPosition, RuleSource.consider_eq_of_isNamed hraw source p q d]
    cases raw.consider source q d with
    | skipped s => simp only [hrest (p + 1) (q + 1) d]
    | applied entry outcome => simp only [hrest (p + 1) (q + 1) outcome.draft]

theorem ofRules_append (source : TextSource) (first : List RuleSource) {second : List RuleSource}
    (h : ∀ raw ∈ second, raw.IsNamed) (d : Draft) :
    ofRules source (first ++ second) d =
      (ofRules source first d).followedBy
        (ofRules source second (ofRules source first d).draft) := by
  unfold ofRules
  rw [fromPosition_append, fromPosition_eq_of_isNamed source h (0 + first.length) 0]

end Run

/-- What rules make of a document: its content and its bindings are those of the run, and its
history grows by the entries of the applied rules. -/
theorem Document.applyRules_fst (source : TextSource) (timestamp : Option Timestamp)
    (rules : List RuleSource) (doc : Document) :
    (doc.applyRules source timestamp rules).1 =
      { doc with
        content := (Run.ofRules source rules doc.draft).draft.content
        bindings := (Run.ofRules source rules doc.draft).draft.bindings
        history := doc.history ++
          (Run.ofRules source rules doc.draft).applied.map
            fun e => { e with timestamp := timestamp } } := rfl

/-- **One batch or two.** Rules may be run at once or in two steps: the run of `first ++ second` is
the run of `first` followed by the run of `second` on the draft that is left, and a document ends
the same, its history included.  Only the rules of the second list need names of their own, for
their positions change. -/
theorem ofRules_append_eq_followedBy (source : TextSource) (first second : List RuleSource)
    (h : ∀ raw ∈ second, raw.IsNamed) :
    (∀ d : Draft,
      Run.ofRules source (first ++ second) d =
        (Run.ofRules source first d).followedBy
          (Run.ofRules source second (Run.ofRules source first d).draft)) ∧
    ∀ (timestamp : Option Timestamp) (doc : Document),
      (doc.applyRules source timestamp (first ++ second)).1 =
        ((doc.applyRules source timestamp first).1.applyRules source timestamp second).1 := by
  refine ⟨Run.ofRules_append source first h, fun timestamp doc => ?_⟩
  have hdraft : (doc.applyRules source timestamp first).1.draft =
      (Run.ofRules source first doc.draft).draft := rfl
  rw [Document.applyRules_fst, Document.applyRules_fst source timestamp second, hdraft,
    Run.ofRules_append source first h]
  simp [Run.followedBy, Document.applyRules_fst]

/-- Of two rules that only apply to a visitor without a name, the second is not applied, at once and
in two steps. -/
theorem ofRules_append_eq_followedBy_visitor :
    let nameless := Condition.simple "who" "isEmpty" ""
    let first := RuleSource.rule
      { condition := nameless, action := "insertText", targets := ["who:Ada"] }
    let second := RuleSource.raw (.object [("name", .text "again"), ("condition", nameless.toValue),
      ("action", .text "insertText"), ("targetVariables", .text "who:Grace")])
    let d : Draft := ⟨"Dear __who__", [⟨"who", "", "__who__"⟩]⟩
    (∀ raw ∈ [second], raw.IsNamed) ∧
      Run.ofRules {} ([first] ++ [second]) d =
        (Run.ofRules {} [first] d).followedBy
          (Run.ofRules {} [second] (Run.ofRules {} [first] d).draft) ∧
      (Run.ofRules {} ([first] ++ [second]) d).draft =
        ⟨"Dear Ada", [⟨"who", "Ada", "__who__"⟩]⟩ := by
  intro nameless first second d
  have hnamed : ∀ raw ∈ [second], raw.IsNamed := by
    intro raw hraw
    rw [List.mem_singleton.1 hraw]
    exact ⟨"again", rfl, by decide⟩
  exact ⟨hnamed, (ofRules_append_eq_followedBy {} [first] [second] hnamed).1 d, by decide +kernel⟩

end Stencil
