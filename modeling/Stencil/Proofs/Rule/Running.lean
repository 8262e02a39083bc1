import Stencil.Proofs.Rule.Skipping

/-!
# Runs with text from anywhere

A service that writes texts may answer the same request in different ways.  `Run.answered` is the
run in which each target of each rule has a text source of its own; with one source throughout it is
the run itself (`Run.answered_const`).  `Run.Leads` says where such runs may lead: every rule that
applies is carried out and gives one entry, and every other rule is passed over
(`Run.leads_answered`).  Whatever the texts are, the same variables stay bound
(`Run.Leads.sameBound`).
-/

namespace Stencil

/-! ## Rules that apply -/

/-- The rule at a position applies to a draft: it can be read, its condition holds and its action is
known. -/
structure RuleSource.Applies (p : Nat) (raw : RuleSource) (d : Draft) (r : Rule) (a : Action) :
    Prop where
  read_eq : raw.read p = .ok r
  holds : r.condition.holds (Binding.values d.bindings) = true
  action_eq : Action.ofName? r.action = some a

namespace RuleSource

/-- The rule at a position and its action if it applies to the draft, or the report that it is
skipped. -/
def select (p : Nat) (raw : RuleSource) (d : Draft) : Except SkippedRule (Rule × Action) :=
  match raw.read p with
  | .error report => .error report
  | .ok r =>
    if !r.condition.holds (Binding.values d.bindings) then .error ⟨r.nameAt p, .conditionNotMet⟩
    else
      match Action.ofName? r.action with
      | none => .error ⟨r.nameAt p, .unknownAction r.action⟩
      | some a => .ok (r, a)

/-- A rule that is selected is carried out, and one that is not is skipped. -/
theorem consider_eq (source : TextSource) (p : Nat) (raw : RuleSource) (d : Draft) :
    raw.consider source p d =
      match raw.select p d with
      | .error report => .skipped report
      | .ok (r, a) =>
        .applied (.ofRule (r.nameAt p) r)
          (a.apply source (r.nameAt p) (r.targets.map .text) d) := by
  unfold consider select
  cases raw.read p with
  | error report => rfl
  | ok r =>
    dsimp only
    split
    · rfl
    · cases Action.ofName? r.action <;> rfl

theorem select_eq_ok_iff {p : Nat} {raw : RuleSource} {d : Draft} {r : Rule} {a : Action} :
    raw.select p d = .ok (r, a) ↔ raw.Applies p d r a := by
  constructor
  · intro h
    unfold select at h
    split at h
    · cases h
    · rename_i r' hread
      split at h
      · cases h
      · rename_i hholds
        split at h
        · cases h
        · rename_i a' haction
          cases h
          exact ⟨hread, by simpa using hholds, haction⟩
  · intro h
    simp [select, h.read_eq, h.holds, h.action_eq]

end RuleSource

/-! ## Runs with a text source for each target -/

/-- Carries the action out for the targets that begin at a position, each with the text source of
its position. -/
def Action.applyEach (ruleName : String) (a : Action) (sources : Nat → TextSource) :
    (position : Nat) → List Value → Draft → Outcome
  | _, [], d => { draft := d }
  | position, target :: rest, d =>
    let tried := a.attempt (sources position) target d
    match tried.outcome with
    | .ok changed =>
      let o := applyEach ruleName a sources (position + 1) rest changed
      { o with requests := tried.requests ++ o.requests }
    | .error reason =>
      let o := applyEach ruleName a sources (position + 1) rest d
      { o with
        skipped := ⟨ruleName, a.name, target.display, reason⟩ :: o.skipped
        requests := tried.requests ++ o.requests }

theorem Action.applyEach_const (source : TextSource) (ruleName : String) (a : Action)
    (position : Nat) (targets : List Value) (d : Draft) :
    a.applyEach ruleName (fun _ => source) position targets d =
      a.apply source ruleName targets d := by
  induction targets generalizing position d with
  | nil => rfl
  | cons target rest ih =>
    cases htried : (a.attempt source target d).outcome with
    | ok changed => simp only [applyEach, apply, htried, ih]
    | error reason => simp only [applyEach, apply, htried, ih]

/-- Runs the rules that begin at a position; `sources p i` is the text source of the target `i` of
the rule `p`. -/
def Run.answered (sources : Nat → Nat → TextSource) :
    (position : Nat) → List RuleSource → Draft → Run
  | _, [], d => { draft := d }
  | position, raw :: rest, d =>
    match raw.select position d with
    | .error report =>
      let run := answered sources (position + 1) rest d
      { run with skippedRules := report :: run.skippedRules }
    | .ok (r, a) =>
      let name := r.nameAt position
      let outcome := a.applyEach name (sources position) 0 (r.targets.map .text) d
      let run := answered sources (position + 1) rest outcome.draft
      { run with
        applied := .ofRule name r :: run.applied
        skippedTargets := outcome.skipped ++ run.skippedTargets
        requests := outcome.requests ++ run.requests }

/-- The run with one text source throughout. -/
theorem Run.answered_const (source : TextSource) (p : Nat) (rules : List RuleSource) (d : Draft) :
    answered (fun _ _ => source) p rules d = fromPosition source p rules d := by
  induction rules generalizing p d with
  | nil => rfl
  | cons raw rest ih =>
    simp only [answered, fromPosition, raw.consider_eq]
    cases raw.select p d with
    | error report => simp only [ih]
    | ok selected => simp only [ih, Action.applyEach_const]

theorem Run.answered_eq_ofRules {sources : Nat → Nat → TextSource} {source : TextSource}
    (h : ∀ p i, sources p i = source) (rules : List RuleSource) (d : Draft) :
    answered sources 0 rules d = ofRules source rules d := by
  have hsources : sources = fun _ _ => source := by
    funext p i
    exact h p i
  rw [hsources, answered_const, ofRules]

/-! ## Where runs lead -/

/-- Carrying the action out for the targets in turn, each with some text source, may lead from one
draft to another. -/
inductive Action.Leads (a : Action) : List Value → Draft → Draft → Prop
  | nil (d : Draft) : a.Leads [] d d
  | done {source : TextSource} {target : Value} {rest : List Value} {d changed d' : Draft}
      (outcome_eq : (a.attempt source target d).outcome = .ok changed)
      (more : a.Leads rest changed d') : a.Leads (target :: rest) d d'
  | skipped {source : TextSource} {target : Value} {rest : List Value} {d d' : Draft}
      {reason : SkipReason} (outcome_eq : (a.attempt source target d).outcome = .error reason)
      (more : a.Leads rest d d') : a.Leads (target :: rest) d d'

/-- Running the rules that begin at a position may lead from one draft to another and give these
entries, one for each rule that applies when it is its turn. -/
inductive Run.Leads : Nat → List RuleSource → Draft → List HistoryEntry → Draft → Prop
  | nil (p : Nat) (d : Draft) : Leads p [] d [] d
  | applied {p : Nat} {raw : RuleSource} {rest : List RuleSource} {d changed d' : Draft}
      {r : Rule} {a : Action} {entries : List HistoryEntry} (applies : raw.Applies p d r a)
      (targets : a.Leads (r.targets.map .text) d changed)
      (more : Leads (p + 1) rest changed entries d') :
      Leads p (raw :: rest) d (.ofRule (r.nameAt p) r :: entries) d'
  | skipped {p : Nat} {raw : RuleSource} {rest : List RuleSource} {d d' : Draft}
      {entries : List HistoryEntry} (applies : ∀ r a, ¬ raw.Applies p d r a)
      (more : Leads (p + 1) rest d entries d') : Leads p (raw :: rest) d entries d'

theorem Action.leads_applyEach (ruleName : String) (a : Action) (sources : Nat → TextSource)
    (position : Nat) (targets : List Value) (d : Draft) :
    a.Leads targets d (a.applyEach ruleName sources position targets d).draft := by
  induction targets generalizing position d with
  | nil => exact .nil d
  | cons target rest ih =>
    cases htried : (a.attempt (sources position) target d).outcome with
    | ok changed =>
      simp only [applyEach, htried]
      exact .done htried (ih (position + 1) changed)
    | error reason =>
      simp only [applyEach, htried]
      exact .skipped htried (ih (position + 1) d)

theorem Run.leads_answered (sources : Nat → Nat → TextSource) (p : Nat) (rules : List RuleSource)
    (d : Draft) :
    Leads p rules d (answered sources p rules d).applied (answered sources p rules d).draft := by
  induction rules generalizing p d with
  | nil => exact .nil p d
  | cons raw rest ih =>
    cases hselect : raw.select p d with
    | error report =>
      simp only [answered, hselect]
      refine .skipped (fun r a happlies => ?_) (ih (p + 1) d)
      rw [RuleSource.select_eq_ok_iff.2 happlies] at hselect
      cases hselect
    | ok selected =>
      obtain ⟨r, a⟩ := selected
      simp only [answered, hselect]
      exact .applied (RuleSource.select_eq_ok_iff.1 hselect) (a.leads_applyEach _ _ 0 _ d)
        (ih (p + 1) _)

theorem Run.leads_fromPosition (source : TextSource) (p : Nat) (rules : List RuleSource)
    (d : Draft) :
    Leads p rules d (fromPosition source p rules d).applied
      (fromPosition source p rules d).draft := by
  rw [← answered_const]
  exact leads_answered _ p rules d

/-! ## What stays bound -/

/-- The same variables are bound in the same order, and their values stand for the same texts. -/
structure Draft.SameBound (d d' : Draft) : Prop where
  names : d'.bindings.map (·.name) = d.bindings.map (·.name)
  patterns : d'.bindings.map (·.writtenPattern) = d.bindings.map (·.writtenPattern)

theorem Draft.SameBound.refl (d : Draft) : d.SameBound d := ⟨rfl, rfl⟩

theorem Draft.SameBound.trans {d d' d'' : Draft} (h : d.SameBound d') (h' : d'.SameBound d'') :
    d.SameBound d'' :=
  ⟨h'.names.trans h.names, h'.patterns.trans h.patterns⟩

theorem Draft.sameBound_fill? {name text : String} {d d' : Draft}
    (h : d.fill? name text = .ok d') : d.SameBound d' := by
  unfold fill? at h
  split at h
  · cases h
  · cases h
    exact ⟨Binding.setFirst_names name text d.bindings,
      Binding.setFirst_patterns name text d.bindings⟩

/-- A target changes values, not what is bound. -/
theorem Action.sameBound_attempt {source : TextSource} {target : Value} {a : Action} {d d' : Draft}
    (h : (a.attempt source target d).outcome = .ok d') : d.SameBound d' := by
  cases a with
  | reveal =>
    simp only [attempt] at h
    split at h <;> cases h
    exact ⟨rfl, rfl⟩
  | hide =>
    simp only [attempt] at h
    split at h <;> cases h
    exact ⟨rfl, rfl⟩
  | insertText =>
    simp only [attempt] at h
    split at h
    · cases h
    · exact Draft.sameBound_fill? h
  | generateText =>
    simp only [attempt] at h
    split at h
    · cases h
    · unfold generate at h
      split at h
      · cases h
      · cases h
      · simp only at h
        split at h
        · cases h
        · exact Draft.sameBound_fill? h
        · cases h

theorem Action.Leads.sameBound {a : Action} {targets : List Value} {d d' : Draft}
    (h : a.Leads targets d d') : d.SameBound d' := by
  induction h with
  | nil d => exact .refl d
  | done houtcome _ ih => exact (Action.sameBound_attempt houtcome).trans ih
  | skipped _ _ ih => exact ih

theorem Run.Leads.sameBound {p : Nat} {rules : List RuleSource} {d d' : Draft}
    {entries : List HistoryEntry} (h : Leads p rules d entries d') : d.SameBound d' := by
  induction h with
  | nil p d => exact .refl d
  | applied _ htargets _ ih => exact htargets.sameBound.trans ih
  | skipped _ _ ih => exact ih

end Stencil
