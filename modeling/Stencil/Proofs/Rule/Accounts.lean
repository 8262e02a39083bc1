import Stencil.Proofs.Rule.Running

/-!
# The accounts of a run

What a run did for each target is a `Turn`, and what it did for each rule is an `Account`: the rule
was skipped, or it was applied and took one turn for each target.  The accounts of a run are as many
as its rules, each tells of the rule at its position, and the reports of the run are read off them
(`Run.accountedFor_answered`).  A turn that inserts or generates text skips its target unless the
target names something that is bound and there is a text (`Turn.skip?_of_insertText`,
`Turn.skip?_of_generateText`).
-/

namespace Stencil

/-! ## Turns -/

/-- A variable of that name is bound. -/
def Draft.Binds (d : Draft) (name : String) : Prop := name ∈ d.bindings.map (·.name)

theorem Draft.binds_iff {d : Draft} {name : String} : d.Binds name ↔ d.binding? name ≠ none := by
  simp [Binds, binding?, List.find?_eq_none]

/-- A text is filled in exactly for names that are bound. -/
theorem Draft.exists_fill?_iff {d : Draft} {name text : String} :
    (∃ changed, d.fill? name text = .ok changed) ↔ d.Binds name := by
  rw [binds_iff, fill?]
  cases d.binding? name <;> simp

theorem Draft.bindings_of_fill? {d changed : Draft} {name text : String}
    (h : d.fill? name text = .ok changed) :
    changed.bindings = Binding.setFirst name text d.bindings := by
  unfold fill? at h
  split at h
  · cases h
  · cases h
    rfl

/-- What is done for a target: by which action, with which text source and on which draft. -/
structure Turn where
  action : Action
  target : Value
  source : TextSource
  draft : Draft

namespace Turn

def outcome (t : Turn) : Except SkipReason Draft :=
  (t.action.attempt t.source t.target t.draft).outcome

/-- Why the target is skipped, if it is. -/
def skip? (t : Turn) : Option SkipReason :=
  match t.outcome with
  | .ok _ => none
  | .error reason => some reason

/-- The draft after the turn. -/
def after (t : Turn) : Draft :=
  match t.outcome with
  | .ok changed => changed
  | .error _ => t.draft

/-- The text that the generator, if there is one, gives for a prompt and the beginning of the
content. -/
def reply? (t : Turn) (prompt : String) : Option String :=
  match t.source.generator with
  | none => none
  | some generator =>
    match generator prompt
        (String.ofList (Text.leading t.source.contextChars t.draft.content.toList)) with
    | .ok (.text text) => some text
    | _ => none

variable (t : Turn)

theorem skip?_eq_none_iff : t.skip? = none ↔ ∃ changed, t.outcome = .ok changed := by
  unfold skip?
  cases t.outcome <;> simp

/-- Text that is generated is filled in as the generator gives it, and without it the target is
skipped. -/
theorem outcome_generate (name prompt : String) :
    (∃ text, t.reply? prompt = some text ∧
        (Action.generate t.source name prompt t.draft).outcome = t.draft.fill? name text) ∨
      t.reply? prompt = none ∧
        ∃ reason, (Action.generate t.source name prompt t.draft).outcome = .error reason := by
  unfold reply? Action.generate
  cases hgenerator : t.source.generator with
  | none =>
    refine .inr ⟨rfl, ?_⟩
    cases t.draft.binding? name with
    | none => exact ⟨_, rfl⟩
    | some b => exact ⟨_, rfl⟩
  | some generator =>
    dsimp only
    split
    case h_1 text hreply =>
      refine .inl ⟨text, rfl, ?_⟩
      -- a name that is not bound has the same fault before the request as after it
      cases hbinding : t.draft.binding? name with
      | none => simp only [Draft.fill?, hbinding]
      | some b => simp only [hreply]
    case h_2 hreply =>
      refine .inr ⟨rfl, ?_⟩
      cases t.draft.binding? name with
      | none => exact ⟨_, rfl⟩
      | some b =>
        dsimp only
        split
        case h_1 message _ => exact ⟨_, rfl⟩
        case h_2 text htext => exact absurd htext (hreply text)
        case h_3 => exact ⟨_, rfl⟩

/-- Text that is given is written exactly if the target has a name and a text and the name is
bound. -/
theorem skip?_of_insertText (h : t.action = .insertText) :
    t.skip? = none ↔
      ∃ name text, splitTarget? t.target = some (name, text) ∧ t.draft.Binds name := by
  rw [skip?_eq_none_iff, outcome, h, Action.attempt]
  cases splitTarget? t.target with
  | none => simp
  | some parts =>
    obtain ⟨name, text⟩ := parts
    constructor
    · intro hfill
      exact ⟨name, text, rfl, Draft.exists_fill?_iff.1 hfill⟩
    · rintro ⟨name, text, heq, hbinds⟩
      cases heq
      exact Draft.exists_fill?_iff.2 hbinds

/-- Text is generated exactly if the target has a name and a prompt, the name is bound and there is
a generator that gives a text. -/
theorem skip?_of_generateText (h : t.action = .generateText) :
    t.skip? = none ↔
      ∃ name prompt text, splitTarget? t.target = some (name, prompt) ∧ t.draft.Binds name ∧
        t.reply? prompt = some text := by
  rw [skip?_eq_none_iff, outcome, h, Action.attempt]
  cases splitTarget? t.target with
  | none => simp
  | some parts =>
    obtain ⟨name, prompt⟩ := parts
    dsimp only
    rcases t.outcome_generate name prompt with ⟨text, hreply, houtcome⟩ | ⟨hreply, reason, houtcome⟩
    · rw [houtcome, Draft.exists_fill?_iff]
      constructor
      · intro hbinds
        exact ⟨name, prompt, text, rfl, hbinds, hreply⟩
      · rintro ⟨name, prompt, text, heq, hbinds, -⟩
        cases heq
        exact hbinds
    · rw [houtcome]
      constructor
      · rintro ⟨changed, hchanged⟩
        cases hchanged
      · rintro ⟨name, prompt, text, heq, -, hsome⟩
        cases heq
        rw [hreply] at hsome
        cases hsome

theorem sameBound_after : t.draft.SameBound t.after := by
  unfold after
  split
  · rename_i changed houtcome
    exact Action.sameBound_attempt houtcome
  · exact .refl t.draft

end Turn

/-- The turns that an action takes for the targets that begin at a position, each on the draft that
the one before leaves. -/
def Action.turns (a : Action) (sources : Nat → TextSource) :
    (position : Nat) → List Value → Draft → List Turn
  | _, [], _ => []
  | position, target :: rest, d =>
    let turn : Turn := ⟨a, target, sources position, d⟩
    turn :: a.turns sources (position + 1) rest turn.after

section

variable (a : Action) (sources : Nat → TextSource) (position : Nat) (targets : List Value)
  (d : Draft)

theorem Action.targets_turns : (a.turns sources position targets d).map (·.target) = targets := by
  induction targets generalizing position d with
  | nil => rfl
  | cons target rest ih => rw [turns, List.map_cons, ih]

/-- Each turn is taken by the action, with the text source of its position. -/
theorem Action.turn_of_getElem? {i : Nat} {t : Turn}
    (h : (a.turns sources position targets d)[i]? = some t) :
    t.action = a ∧ t.source = sources (position + i) := by
  induction targets generalizing position d i with
  | nil => cases h
  | cons target rest ih =>
    cases i with
    | zero =>
      cases h
      exact ⟨rfl, rfl⟩
    | succ i =>
      have hposition : position + (i + 1) = position + 1 + i := by omega
      rw [hposition]
      exact ih _ _ h

/-- Every turn finds the same variables bound. -/
theorem Action.sameBound_of_mem_turns {t : Turn} (h : t ∈ a.turns sources position targets d) :
    d.SameBound t.draft := by
  induction targets generalizing position d with
  | nil => cases h
  | cons target rest ih =>
    rcases List.mem_cons.1 h with rfl | h
    · exact .refl d
    · exact (Turn.sameBound_after _).trans (ih _ _ h)

/-- Carrying the action out ends behind the last turn, and the targets of the turns that skip theirs
are reported in order. -/
theorem Action.applyEach_cons (ruleName : String) (target : Value) :
    let turn : Turn := ⟨a, target, sources position, d⟩
    let rest := a.applyEach ruleName sources (position + 1) targets turn.after
    (a.applyEach ruleName sources position (target :: targets) d).draft = rest.draft ∧
      (a.applyEach ruleName sources position (target :: targets) d).skipped =
        (turn.skip?.map fun reason => ⟨ruleName, a.name, target.display, reason⟩).toList ++
          rest.skipped := by
  intro turn rest
  have houtcome : turn.outcome = (a.attempt (sources position) target d).outcome := rfl
  simp only [rest, applyEach, Turn.after, Turn.skip?, houtcome]
  cases (a.attempt (sources position) target d).outcome with
  | ok changed => exact ⟨rfl, rfl⟩
  | error reason => exact ⟨rfl, rfl⟩

theorem Action.skipped_applyEach (ruleName : String) :
    (a.applyEach ruleName sources position targets d).skipped =
      (a.turns sources position targets d).filterMap fun t =>
        t.skip?.map fun reason => ⟨ruleName, a.name, t.target.display, reason⟩ := by
  induction targets generalizing position d with
  | nil => rfl
  | cons target rest ih =>
    rw [(a.applyEach_cons sources position rest d ruleName target).2, ih, turns]
    cases hskip : (Turn.mk a target (sources position) d).skip? <;> simp [hskip]

end

/-! ## Accounts -/

/-- What a run did for a rule: it was skipped, or it was applied under a name and took turns. -/
inductive Account
  | skipped (report : SkippedRule)
  | applied (name : String) (r : Rule) (a : Action) (turns : List Turn)

namespace Account

def turns : Account → List Turn
  | .skipped _ => []
  | .applied _ _ _ turns => turns

/-- The entry in the history, if the rule was applied. -/
def logged? : Account → Option HistoryEntry
  | .skipped _ => none
  | .applied name r _ _ => some (.ofRule name r)

def skippedRule? : Account → Option SkippedRule
  | .skipped report => some report
  | .applied _ _ _ _ => none

/-- The reports of the turns that skipped their targets. -/
def skippedTargets : Account → List SkippedTarget
  | .skipped _ => []
  | .applied name _ a turns => turns.filterMap fun t =>
    t.skip?.map fun reason => ⟨name, a.name, t.target.display, reason⟩

section

variable (report : SkippedRule) (name : String) (r : Rule) (a : Action) (taken : List Turn)

@[simp] theorem logged?_skipped : (skipped report).logged? = none := rfl

@[simp] theorem logged?_applied : (applied name r a taken).logged? = some (.ofRule name r) := rfl

@[simp] theorem skippedRule?_skipped : (skipped report).skippedRule? = some report := rfl

@[simp] theorem skippedRule?_applied : (applied name r a taken).skippedRule? = none := rfl

end

/-- A rule gives an entry in the history or is reported as skipped, and not both. -/
theorem isSome_logged?_iff (account : Account) :
    account.logged?.isSome = true ↔ account.skippedRule? = none := by
  cases account <;> simp

/-- The account tells of the rule at a position: that it was skipped, with the report, or that it
was applied under its name there and took a turn for each of its targets. -/
def IsOf (sources : Nat → Nat → TextSource) (position : Nat) (raw : RuleSource) : Account → Prop
  | .skipped report => ∃ d, raw.select position d = .error report
  | .applied name r a turns =>
    (∃ d, raw.select position d = .ok (r, a)) ∧ name = r.nameAt position ∧
      turns.map (·.target) = r.targets.map .text ∧
      ∀ (i : Nat) (t : Turn), turns[i]? = some t → t.action = a ∧ t.source = sources position i

end Account

namespace Run

/-- The accounts of the rules that begin at a position; `sources p i` is the text source of the
target `i` of the rule `p`. -/
def accounts (sources : Nat → Nat → TextSource) :
    (position : Nat) → List RuleSource → Draft → List Account
  | _, [], _ => []
  | position, raw :: rest, d =>
    match raw.select position d with
    | .error report => .skipped report :: accounts sources (position + 1) rest d
    | .ok (r, a) =>
      let name := r.nameAt position
      let targets := r.targets.map .text
      .applied name r a (a.turns (sources position) 0 targets d) ::
        accounts sources (position + 1) rest
          (a.applyEach name (sources position) 0 targets d).draft

/-- The accounts are those of the run: there is one for each rule, which tells of the rule at its
position, and the reports of the run are read off them. -/
structure AccountedFor (sources : Nat → Nat → TextSource) (position : Nat)
    (rules : List RuleSource) (run : Run) (accounts : List Account) : Prop where
  length : accounts.length = rules.length
  isOf : ∀ (i : Nat) (raw : RuleSource) (account : Account), rules[i]? = some raw →
    accounts[i]? = some account → account.IsOf sources (position + i) raw
  applied : run.applied = accounts.filterMap (·.logged?)
  skippedRules : run.skippedRules = accounts.filterMap (·.skippedRule?)
  skippedTargets : run.skippedTargets = accounts.flatMap (·.skippedTargets)

section

variable (sources : Nat → Nat → TextSource) (p : Nat) (rules : List RuleSource) (d : Draft)

theorem isOf_accounts (i : Nat) (raw : RuleSource) (account : Account) (hraw : rules[i]? = some raw)
    (haccount : (accounts sources p rules d)[i]? = some account) :
    account.IsOf sources (p + i) raw := by
  induction rules generalizing p d i with
  | nil => cases hraw
  | cons first rest ih =>
    rw [accounts] at haccount
    cases i with
    | zero =>
      cases hraw
      split at haccount
      · rename_i report hselect
        cases haccount
        exact ⟨d, hselect⟩
      · rename_i r a hselect
        cases haccount
        refine ⟨⟨d, hselect⟩, rfl, a.targets_turns _ 0 _ d, fun i t ht => ?_⟩
        have hturn := a.turn_of_getElem? _ 0 _ d ht
        rwa [Nat.zero_add] at hturn
    | succ i =>
      have hposition : p + (i + 1) = p + 1 + i := by omega
      rw [hposition]
      split at haccount
      · exact ih _ _ _ hraw haccount
      · exact ih _ _ _ hraw haccount

/-- The reports of a run are read off its accounts, one for each rule. -/
theorem accountedFor_answered :
    AccountedFor sources p rules (answered sources p rules d) (accounts sources p rules d) := by
  have hreports : (accounts sources p rules d).length = rules.length ∧
      (answered sources p rules d).applied =
        (accounts sources p rules d).filterMap (·.logged?) ∧
      (answered sources p rules d).skippedRules =
        (accounts sources p rules d).filterMap (·.skippedRule?) ∧
      (answered sources p rules d).skippedTargets =
        (accounts sources p rules d).flatMap (·.skippedTargets) := by
    induction rules generalizing p d with
    | nil => exact ⟨rfl, rfl, rfl, rfl⟩
    | cons raw rest ih =>
      cases hselect : raw.select p d with
      | error report =>
        obtain ⟨hlength, happlied, hrules, htargets⟩ := ih (p + 1) d
        simp only [answered, accounts, hselect]
        refine ⟨?_, ?_, ?_, ?_⟩
        · rw [List.length_cons, List.length_cons, hlength]
        · simp [List.filterMap_cons, happlied]
        · simp [hrules]
        · rw [List.flatMap_cons, Account.skippedTargets, List.nil_append, htargets]
      | ok selected =>
        obtain ⟨r, a⟩ := selected
        obtain ⟨hlength, happlied, hrules, htargets⟩ := ih (p + 1)
          (a.applyEach (r.nameAt p) (sources p) 0 (r.targets.map .text) d).draft
        simp only [answered, accounts, hselect]
        refine ⟨?_, ?_, ?_, ?_⟩
        · rw [List.length_cons, List.length_cons, hlength]
        · simp [happlied]
        · simp [List.filterMap_cons, hrules]
        · rw [List.flatMap_cons, Account.skippedTargets, a.skipped_applyEach, htargets]
  obtain ⟨hlength, happlied, hrules, htargets⟩ := hreports
  exact ⟨hlength, isOf_accounts sources p rules d, happlied, hrules, htargets⟩

/-- Every turn of a run finds the variables bound that were bound at first. -/
theorem sameBound_of_mem_accounts {account : Account}
    (haccount : account ∈ accounts sources p rules d) {t : Turn} (ht : t ∈ account.turns) :
    d.SameBound t.draft := by
  induction rules generalizing p d with
  | nil => cases haccount
  | cons raw rest ih =>
    rw [accounts] at haccount
    split at haccount
    · rcases List.mem_cons.1 haccount with rfl | haccount
      · cases ht
      · exact ih _ _ haccount
    · rename_i r a _
      rcases List.mem_cons.1 haccount with rfl | haccount
      · exact a.sameBound_of_mem_turns _ 0 _ d ht
      · have hleads := a.leads_applyEach (r.nameAt p) (sources p) 0 (r.targets.map .text) d
        exact hleads.sameBound.trans (ih _ _ haccount)

end

theorem AccountedFor.isOf_of_mem {sources : Nat → Nat → TextSource} {p : Nat}
    {rules : List RuleSource} {run : Run} {accounts : List Account}
    (h : AccountedFor sources p rules run accounts) {account : Account}
    (hmem : account ∈ accounts) : ∃ i raw, account.IsOf sources (p + i) raw := by
  obtain ⟨i, hi, rfl⟩ := List.getElem_of_mem hmem
  have hraw := List.getElem?_eq_getElem (h.length ▸ hi : i < rules.length)
  exact ⟨i, _, h.isOf i _ _ hraw (List.getElem?_eq_getElem hi)⟩

/-- Each account gives one report, an entry in the history or a skipped rule. -/
theorem AccountedFor.length_reports {sources : Nat → Nat → TextSource} {p : Nat}
    {rules : List RuleSource} {run : Run} {accounts : List Account}
    (h : AccountedFor sources p rules run accounts) :
    run.applied.length + run.skippedRules.length = rules.length := by
  rw [h.applied, h.skippedRules, ← h.length]
  clear h
  induction accounts with
  | nil => rfl
  | cons account accounts ih =>
    cases account with
    | skipped report =>
      simp only [List.filterMap_cons, Account.logged?_skipped, Account.skippedRule?_skipped,
        List.length_cons]
      omega
    | applied name r a turns =>
      simp only [List.filterMap_cons, Account.logged?_applied, Account.skippedRule?_applied,
        List.length_cons]
      omega

end Run

/-- **Every rule and every target is accounted for.**  Whatever the generator answers to each of the
targets, a run has one account for each rule, which gives one report: an entry in the history or a
skipped rule.  The skipped targets are those of the turns that skipped theirs, in order.  A turn
that inserts text skips its target unless it has a name and a text and the name is bound; a turn
that generates text skips it unless it has a name and a prompt, the name is bound and there is a
generator that answers with a text.  With one source for all targets this is the run with it. -/
theorem answered_accounted (sources : Nat → Nat → TextSource) (rules : List RuleSource)
    (d : Draft) :
    let run := Run.answered sources 0 rules d
    let accounts := Run.accounts sources 0 rules d
    run.AccountedFor sources 0 rules accounts ∧
    (∀ account ∈ accounts, account.logged?.isSome = true ↔ account.skippedRule? = none) ∧
    run.applied.length + run.skippedRules.length = rules.length ∧
    (∀ account ∈ accounts, ∀ t ∈ account.turns,
      (t.action = .insertText → (t.skip? = none ↔
        ∃ name text, splitTarget? t.target = some (name, text) ∧ d.Binds name)) ∧
      (t.action = .generateText → (t.skip? = none ↔
        ∃ name prompt text, splitTarget? t.target = some (name, prompt) ∧ d.Binds name ∧
          t.reply? prompt = some text))) ∧
    ∀ source, (∀ p i, sources p i = source) → run = Run.ofRules source rules d := by
  intro run accounts
  have haccounted := Run.accountedFor_answered sources 0 rules d
  refine ⟨haccounted, fun account _ => account.isSome_logged?_iff, haccounted.length_reports,
    fun account haccount t ht => ?_, fun source h => Run.answered_eq_ofRules h rules d⟩
  have hbinds (name : String) : t.draft.Binds name ↔ d.Binds name := by
    rw [Draft.Binds, Draft.Binds,
      (Run.sameBound_of_mem_accounts sources 0 rules d haccount ht).names]
  refine ⟨fun haction => ?_, fun haction => ?_⟩
  · rw [t.skip?_of_insertText haction]
    simp only [hbinds]
  · rw [t.skip?_of_generateText haction]
    simp only [hbinds]

/-- A generator that fails once and answers then, for a target that occurs twice. -/
theorem answered_accounted_retry :
    let sources (_ i : Nat) : TextSource :=
      { generator := some fun _ _ => if i = 0 then .error "no answer" else .ok (.text "Ada") }
    let generated := RuleSource.rule
      { condition := .simple "who" "isEmpty" "", action := "generateText",
        targets := ["who:a name", "who:a name", "whom:a name"] }
    let rules := [RuleSource.raw (.text "no rule"), generated]
    let d : Draft := ⟨"Dear __who__", [⟨"who", "", "__who__"⟩]⟩
    let run := Run.answered sources 0 rules d
    run.AccountedFor sources 0 rules (Run.accounts sources 0 rules d) ∧
      run.applied.length + run.skippedRules.length = 2 ∧
      run.draft = ⟨"Dear Ada", [⟨"who", "Ada", "__who__"⟩]⟩ ∧
      run.skippedTargets.map (·.reason) = [.generationFailed "no answer", .unbound "whom"] := by
  intro sources generated rules d run
  obtain ⟨haccounted, -, hlength, -⟩ := answered_accounted sources rules d
  exact ⟨haccounted, hlength, by decide +kernel, by decide +kernel⟩

end Stencil
