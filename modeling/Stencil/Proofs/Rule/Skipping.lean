import Stencil.Proofs.Rule.Batch

/-!
# What is skipped changes nothing

A run follows each rule and each target of it; `Run.fates` says what became of them, one entry for
each rule with one verdict for each target, and the reports of the run are read off the fates
(`Run.fromPosition_reports`).  `Run.carriedOut` keeps the rules that were applied and, of their
targets, those that were not skipped.  Running these alone ends in the same draft and skips nothing:

    Run.ofRules source (carriedOut rules fates) d  ends as  Run.ofRules source rules d
                                                              (ofRules_carriedOut)
-/

namespace Stencil

/-! ## What becomes of targets and rules -/

/-- For each target why it was skipped, or nothing if the action was carried out for it. -/
def Action.verdicts (source : TextSource) (a : Action) :
    List Value → Draft → List (Option SkipReason)
  | [], _ => []
  | target :: rest, d =>
    match (a.attempt source target d).outcome with
    | .ok changed => none :: a.verdicts source rest changed
    | .error reason => some reason :: a.verdicts source rest d

/-- The members of a list whose verdict is that they were not skipped. -/
def notSkipped {α : Type} : List α → List (Option SkipReason) → List α
  | x :: xs, none :: verdicts => x :: notSkipped xs verdicts
  | _ :: xs, some _ :: verdicts => notSkipped xs verdicts
  | _, _ => []

/-- What became of a rule: it was skipped, or it was applied under a name. -/
inductive Fate
  | skipped (report : SkippedRule)
  | applied (name : String) (r : Rule) (a : Action) (verdicts : List (Option SkipReason))

namespace Fate

def entry? : Fate → Option HistoryEntry
  | .skipped _ => none
  | .applied name r _ _ => some (.ofRule name r)

def skippedRule? : Fate → Option SkippedRule
  | .skipped report => some report
  | .applied _ _ _ _ => none

/-- The reports of the skipped targets of an applied rule. -/
def skippedTargets : Fate → List SkippedTarget
  | .skipped _ => []
  | .applied name r a verdicts =>
    (r.targets.zip verdicts).filterMap fun (target, verdict) =>
      verdict.map fun reason => ⟨name, a.name, target, reason⟩

/-- The fate is one that the rule at a position can have: if it was applied, it was read as the rule
of the fate, under its name there, and each of its targets has a verdict. -/
def IsOf (position : Nat) (raw : RuleSource) : Fate → Prop
  | .skipped _ => True
  | .applied name r a verdicts =>
    raw.read position = .ok r ∧ name = r.nameAt position ∧ Action.ofName? r.action = some a ∧
      verdicts.length = r.targets.length

end Fate

namespace RuleSource

def fate (source : TextSource) (position : Nat) (raw : RuleSource) (d : Draft) : Fate :=
  match raw.read position with
  | .error report => .skipped report
  | .ok r =>
    let name := r.nameAt position
    if !r.condition.holds (Binding.values d.bindings) then .skipped ⟨name, .conditionNotMet⟩
    else
      match Action.ofName? r.action with
      | none => .skipped ⟨name, .unknownAction r.action⟩
      | some a => .applied name r a (a.verdicts source (r.targets.map .text) d)

/-- The rule with other targets; an object keeps its other fields. -/
def withTargets (targets : List String) : RuleSource → RuleSource
  | .rule r => .rule { r with targets := targets }
  | .raw (.object fields) =>
    .raw (.object (Table.set Rule.targetsField.wire (Wire.textList targets) fields))
  | .raw v => .raw v

/-- The rule with the targets that were not skipped, if it was applied. -/
def carriedOut? (raw : RuleSource) : Fate → Option RuleSource
  | .skipped _ => none
  | .applied _ r _ verdicts => some (raw.withTargets (notSkipped r.targets verdicts))

end RuleSource

namespace Run

def fates (source : TextSource) : (position : Nat) → List RuleSource → Draft → List Fate
  | _, [], _ => []
  | position, raw :: rest, d =>
    raw.fate source position d ::
      match raw.consider source position d with
      | .skipped _ => fates source (position + 1) rest d
      | .applied _ outcome => fates source (position + 1) rest outcome.draft

/-- The rules that were applied, each with the targets that were not skipped. -/
def carriedOut : List RuleSource → List Fate → List RuleSource
  | raw :: rest, fate :: fates => (raw.carriedOut? fate).toList ++ carriedOut rest fates
  | _, _ => []

end Run

/-! ## Targets -/

namespace Action

theorem length_verdicts (source : TextSource) (a : Action) (targets : List Value) (d : Draft) :
    (a.verdicts source targets d).length = targets.length := by
  induction targets generalizing d with
  | nil => rfl
  | cons target rest ih =>
    rw [verdicts]
    split <;> rw [List.length_cons, List.length_cons, ih]

/-- The skipped targets are reported in order, each with its verdict. -/
theorem skipped_apply (source : TextSource) (name : String) (a : Action) (targets : List String)
    (d : Draft) :
    (a.apply source name (targets.map .text) d).skipped =
      (targets.zip (a.verdicts source (targets.map .text) d)).filterMap fun (target, verdict) =>
        verdict.map fun reason => ⟨name, a.name, target, reason⟩ := by
  induction targets generalizing d with
  | nil => rfl
  | cons target rest ih =>
    simp only [List.map_cons, apply, verdicts]
    cases (a.attempt source (.text target) d).outcome with
    | ok changed => simp [ih changed]
    | error reason => simp [ih d, Value.display]

theorem notSkipped_map {α β : Type} (f : α → β) (xs : List α)
    (verdicts : List (Option SkipReason)) :
    notSkipped (xs.map f) verdicts = (notSkipped xs verdicts).map f := by
  fun_induction notSkipped xs verdicts with
  | case1 x xs verdicts ih => simp [notSkipped, ih]
  | case2 x xs reason verdicts ih => simp [notSkipped, ih]
  | case3 xs verdicts h₁ h₂ =>
    cases xs with
    | nil => rfl
    | cons x xs =>
      cases verdicts with
      | nil => rfl
      | cons v vs =>
        cases v with
        | none => exact (h₁ x xs vs rfl rfl).elim
        | some reason => exact (h₂ x xs reason vs rfl rfl).elim

/-- Without the targets that are skipped an action ends in the same draft and skips nothing, under
whatever name it is reported. -/
theorem apply_notSkipped (source : TextSource) (name name' : String) (a : Action)
    (targets : List Value) (d : Draft) :
    (a.apply source name' (notSkipped targets (a.verdicts source targets d)) d).draft =
        (a.apply source name targets d).draft ∧
      (a.apply source name' (notSkipped targets (a.verdicts source targets d)) d).skipped = [] := by
  induction targets generalizing d with
  | nil => exact ⟨rfl, rfl⟩
  | cons target rest ih =>
    cases htried : (a.attempt source target d).outcome with
    | ok changed =>
      simp only [verdicts, htried, notSkipped, apply]
      exact ih changed
    | error reason =>
      simp only [verdicts, htried, notSkipped, apply]
      exact ih d

/-- A target that is skipped leaves the draft as it is. -/
theorem draft_apply_of_skipped (source : TextSource) (name : String) (a : Action) {target : Value}
    {d : Draft} (h : (a.apply source name [target] d).skipped ≠ []) :
    (a.apply source name [target] d).draft = d := by
  simp only [apply] at h ⊢
  split at h
  · exact absurd rfl h
  · rfl

end Action

/-! ## Rules -/

namespace RuleSource

/-- Everything that can become of a rule: it is skipped, or it can be read, its condition holds, its
action is known and is carried out for its targets. -/
theorem consider_cases (source : TextSource) (p : Nat) (raw : RuleSource) (d : Draft) :
    (∃ report, raw.fate source p d = .skipped report ∧ raw.consider source p d = .skipped report) ∨
    ∃ r a, raw.read p = .ok r ∧ r.condition.holds (Binding.values d.bindings) = true ∧
      Action.ofName? r.action = some a ∧
      raw.fate source p d =
        .applied (r.nameAt p) r a (a.verdicts source (r.targets.map .text) d) ∧
      raw.consider source p d =
        .applied (.ofRule (r.nameAt p) r)
          (a.apply source (r.nameAt p) (r.targets.map .text) d) := by
  unfold fate consider
  cases hread : raw.read p with
  | error report => exact Or.inl ⟨report, rfl, rfl⟩
  | ok r =>
    cases hholds : r.condition.holds (Binding.values d.bindings) with
    | false => exact Or.inl ⟨⟨r.nameAt p, .conditionNotMet⟩, by simp [hholds], by simp [hholds]⟩
    | true =>
      cases haction : Action.ofName? r.action with
      | none =>
        exact Or.inl ⟨⟨r.nameAt p, .unknownAction r.action⟩, by simp [hholds, haction],
          by simp [hholds, haction]⟩
      | some a =>
        exact Or.inr ⟨r, a, rfl, hholds, haction, by simp [hholds, haction],
          by simp [hholds, haction]⟩

/-- A rule that is known to be read, to hold and to have an action is applied. -/
theorem consider_eq_applied (source : TextSource) {p : Nat} {raw : RuleSource} {d : Draft}
    {r : Rule} {a : Action} (hread : raw.read p = .ok r)
    (hholds : r.condition.holds (Binding.values d.bindings) = true)
    (haction : Action.ofName? r.action = some a) :
    raw.consider source p d =
      .applied (.ofRule (r.nameAt p) r) (a.apply source (r.nameAt p) (r.targets.map .text) d) := by
  simp [consider, hread, hholds, haction]

/-- A list of texts is read as the targets that it writes. -/
theorem checkTargets_textList (targets : List String) :
    Rule.checkTargets (Wire.textList targets) = .valid targets := by
  have hmembers : Checked.members Wire.text 0 (targets.map .text) = .valid targets :=
    Checked.members_map targets (fun _ _ => rfl) 0
  simpa [Rule.checkTargets, Wire.textList, Wire.tuple] using hmembers

/-- A rule with other targets is read as before but for its targets. -/
theorem read_withTargets {raw : RuleSource} {p : Nat} {r : Rule} (h : raw.read p = .ok r)
    (targets : List String) (q : Nat) :
    (raw.withTargets targets).read q = .ok { r with targets := targets } := by
  unfold read at h
  split at h
  · cases h
    rfl
  · rename_i fields
    split at h
    · rename_i r' hcheck
      cases h
      obtain ⟨hname, hdescription, hcondition, haction, -⟩ := Rule.checkFields_eq_valid_iff.1 hcheck
      have htargets : Wire.optional Rule.checkTargets [] Rule.targetsField
          (Table.set Rule.targetsField.wire (Wire.textList targets) fields) = .valid targets := by
        simp [Wire.optional, Wire.find?, checkTargets_textList]
      have hset : Rule.checkFields
          (Table.set Rule.targetsField.wire (Wire.textList targets) fields) =
            .valid { r with targets := targets } := by
        refine Rule.checkFields_eq_valid_iff.2 ⟨?_, ?_, ?_, ?_, htargets⟩
        · rwa [Wire.optional_set_of_ne _ (by decide) (by decide)]
        · rwa [Wire.optional_set_of_ne _ (by decide) (by decide)]
        · rwa [Wire.optional_set_of_ne _ (by decide) (by decide)]
        · rwa [Wire.required_set_of_ne _ (by decide) (by decide)]
      simp only [withTargets, read, hset]
    · cases h
  · cases h

end RuleSource

/-! ## Runs -/

namespace Run

/-- The reports of a run are those of the fates of its rules, in order, one fate for each rule. -/
theorem fromPosition_reports (source : TextSource) (p : Nat) (rules : List RuleSource) (d : Draft) :
    (fates source p rules d).length = rules.length ∧
    (fromPosition source p rules d).applied = (fates source p rules d).filterMap Fate.entry? ∧
    (fromPosition source p rules d).skippedRules =
      (fates source p rules d).filterMap Fate.skippedRule? ∧
    (fromPosition source p rules d).skippedTargets =
      (fates source p rules d).flatMap Fate.skippedTargets := by
  induction rules generalizing p d with
  | nil => exact ⟨rfl, rfl, rfl, rfl⟩
  | cons raw rest ih =>
    rcases raw.consider_cases source p d with
      ⟨report, hfate, hverdict⟩ | ⟨r, a, -, -, -, hfate, hverdict⟩
    · obtain ⟨hlength, happlied, hrules, htargets⟩ := ih (p + 1) d
      simp only [fates, fromPosition, hfate, hverdict]
      refine ⟨?_, ?_, ?_, ?_⟩
      · rw [List.length_cons, List.length_cons, hlength]
      · simp [List.filterMap_cons, Fate.entry?, happlied]
      · simp [Fate.skippedRule?, hrules]
      · simpa [Fate.skippedTargets] using htargets
    · obtain ⟨hlength, happlied, hrules, htargets⟩ :=
        ih (p + 1) (a.apply source (r.nameAt p) (r.targets.map .text) d).draft
      simp only [fates, fromPosition, hfate, hverdict]
      refine ⟨?_, ?_, ?_, ?_⟩
      · rw [List.length_cons, List.length_cons, hlength]
      · simp [Fate.entry?, happlied]
      · simp [List.filterMap_cons, Fate.skippedRule?, hrules]
      · simp [Fate.skippedTargets, htargets, Action.skipped_apply]

/-- Each rule has a fate of its own. -/
theorem isOf_fates (source : TextSource) (p : Nat) (rules : List RuleSource) (d : Draft) {i : Nat}
    {raw : RuleSource} {fate : Fate} (hraw : rules[i]? = some raw)
    (hfate : (fates source p rules d)[i]? = some fate) : fate.IsOf (p + i) raw := by
  induction rules generalizing p d i with
  | nil => cases hraw
  | cons first rest ih =>
    cases i with
    | zero =>
      cases hraw
      cases hfate
      rcases raw.consider_cases source p d with
        ⟨report, hfate, -⟩ | ⟨r, a, hread, -, haction, hfate, -⟩
      · simp only [hfate, Fate.IsOf]
      · simp only [hfate, Fate.IsOf, Action.length_verdicts, List.length_map]
        exact ⟨hread, rfl, haction, trivial⟩
    | succ i =>
      have hstep : p + (i + 1) = p + 1 + i := by omega
      rw [hstep]
      simp only [fates, List.getElem?_cons_succ] at hraw hfate
      split at hfate
      · exact ih (p + 1) d hraw hfate
      · exact ih (p + 1) _ hraw hfate

/-- Running the rules that were carried out, from any position, ends in the same draft, applies each
of them and skips nothing. -/
theorem fromPosition_carriedOut (source : TextSource) (p q : Nat) (rules : List RuleSource)
    (d : Draft) :
    let kept := carriedOut rules (fates source p rules d)
    (fromPosition source q kept d).draft = (fromPosition source p rules d).draft ∧
    (fromPosition source q kept d).applied.length = kept.length ∧
    (fromPosition source q kept d).skippedRules = [] ∧
    (fromPosition source q kept d).skippedTargets = [] := by
  induction rules generalizing p q d with
  | nil => exact ⟨rfl, rfl, rfl, rfl⟩
  | cons raw rest ih =>
    rcases raw.consider_cases source p d with
      ⟨report, hfate, hverdict⟩ | ⟨r, a, hread, hholds, haction, hfate, hverdict⟩
    · simp only [fates, fromPosition, carriedOut, hfate, hverdict, RuleSource.carriedOut?,
        Option.toList_none, List.nil_append]
      exact ih (p + 1) q d
    · let verdicts := a.verdicts source (r.targets.map .text) d
      let kept := notSkipped r.targets verdicts
      let r' : Rule := { r with targets := kept }
      -- the rule with fewer targets is applied as before, at whatever position it now stands
      have hverdict' := RuleSource.consider_eq_applied source (p := q) (r := r')
        (RuleSource.read_withTargets hread kept q) hholds haction
      have hsame := a.apply_notSkipped source (r.nameAt p) (r'.nameAt q) (r.targets.map .text) d
      rw [Action.notSkipped_map] at hsame
      obtain ⟨hdraft, hskipped⟩ := hsame
      obtain ⟨ihdraft, ihapplied, ihrules, ihtargets⟩ :=
        ih (p + 1) (q + 1) (a.apply source (r.nameAt p) (r.targets.map .text) d).draft
      simp only [fates, fromPosition, carriedOut, hfate, hverdict, RuleSource.carriedOut?,
        Option.toList_some, List.cons_append, List.nil_append, hverdict', r', kept, verdicts,
        hdraft, hskipped]
      refine ⟨ihdraft, ?_, ihrules, ihtargets⟩
      rw [List.length_cons, List.length_cons, ihapplied]

/-- A rule that is skipped leaves the draft as it is. -/
theorem draft_ofRules_of_skipped (source : TextSource) {raw : RuleSource} {d : Draft}
    (h : (ofRules source [raw] d).skippedRules ≠ []) : (ofRules source [raw] d).draft = d := by
  simp only [ofRules, fromPosition] at h ⊢
  split at h
  · rfl
  · exact absurd rfl h

end Run

/-- **Skips change nothing.**  The reports of a run are those of the fates of its rules.  Of the
rules keep those that were applied, each without the targets that were skipped: running these ends
in the same draft, applies every one of them and skips no rule and no target.  In particular a
single rule that is skipped leaves the draft as it is, and so does a single target. -/
theorem ofRules_carriedOut (source : TextSource) (rules : List RuleSource) (d : Draft) :
    let run := Run.ofRules source rules d
    let fates := Run.fates source 0 rules d
    let kept := Run.carriedOut rules fates
    let again := Run.ofRules source kept d
    (∀ (i : Nat) (raw : RuleSource) (fate : Fate), rules[i]? = some raw → fates[i]? = some fate →
      fate.IsOf i raw) ∧
    (fates.length = rules.length ∧ run.applied = fates.filterMap Fate.entry? ∧
      run.skippedRules = fates.filterMap Fate.skippedRule? ∧
      run.skippedTargets = fates.flatMap Fate.skippedTargets) ∧
    (again.draft = run.draft ∧ again.applied.length = kept.length ∧ again.skippedRules = [] ∧
      again.skippedTargets = []) ∧
    (∀ raw : RuleSource, (Run.ofRules source [raw] d).skippedRules ≠ [] →
      (Run.ofRules source [raw] d).draft = d) ∧
    ∀ (a : Action) (name : String) (target : Value),
      (a.apply source name [target] d).skipped ≠ [] →
        (a.apply source name [target] d).draft = d := by
  refine ⟨fun i raw fate hraw hfate => ?_, Run.fromPosition_reports source 0 rules d,
    Run.fromPosition_carriedOut source 0 0 rules d, fun _ => Run.draft_ofRules_of_skipped source,
    fun a name _ => a.draft_apply_of_skipped source name⟩
  have hof := Run.isOf_fates source 0 rules d hraw hfate
  rwa [Nat.zero_add] at hof

/-- A text among the rules, a generator that fails and a target without a colon: what is left of the
rules fills in the same text. -/
theorem ofRules_carriedOut_failures :
    let source : TextSource := { generator := some fun _ _ => .error "no answer" }
    let text := RuleSource.raw (.text "no rule")
    let nameless := Condition.simple "who" "isEmpty" ""
    let generated := RuleSource.rule
      { condition := nameless, action := "generateText", targets := ["who:a name"] }
    let given := RuleSource.rule
      { condition := nameless, action := "insertText", targets := ["Ada", "who:Ada"] }
    let rules := [text, generated, given]
    let d : Draft := ⟨"Dear __who__", [⟨"who", "", "__who__"⟩]⟩
    let run := Run.ofRules source rules d
    let again := Run.ofRules source (Run.carriedOut rules (Run.fates source 0 rules d)) d
    (run.draft = ⟨"Dear Ada", [⟨"who", "Ada", "__who__"⟩]⟩ ∧ run.skippedRules.length = 1 ∧
      run.skippedTargets.length = 2) ∧
    (again.draft = run.draft ∧ again.skippedRules = [] ∧ again.skippedTargets = []) ∧
    ((Run.ofRules source [text] d).skippedRules ≠ [] ∧ (Run.ofRules source [text] d).draft = d) ∧
    let failed := Action.generateText.apply source "" [.text "who:a name"] d
    failed.skipped ≠ [] ∧ failed.draft = d := by
  intro source text nameless generated given rules d run again
  obtain ⟨-, -, ⟨hdraft, -, hrules, htargets⟩, hrule, htarget⟩ := ofRules_carriedOut source rules d
  have hskipped : (Run.ofRules source [text] d).skippedRules ≠ [] := by decide +kernel
  have hfailed : (Action.generateText.apply source "" [.text "who:a name"] d).skipped ≠ [] := by
    decide +kernel
  exact ⟨by decide +kernel, ⟨hdraft, hrules, htargets⟩, ⟨hskipped, hrule text hskipped⟩, hfailed,
    htarget .generateText "" (.text "who:a name") hfailed⟩

end Stencil
