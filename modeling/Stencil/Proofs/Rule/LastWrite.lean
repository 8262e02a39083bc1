import Mathlib.Data.List.Induction
import Stencil.Proofs.Rule.Accounts

/-!
# What a run does to the bindings

A turn that is not skipped writes a text for a name, and what is written goes to the first binding
of the name (`Turn.bindings_after`).  So after a run the bindings have the names and the patterns
that they had, in the same order, the first binding of a name has the last text that was written for
the name, and every other binding has its old value (`answered_bindings`).
-/

namespace Stencil

/-! ## Writing values in turn -/

namespace Binding

/-- Writes values for names in turn, each to the first binding of its name. -/
def writeAll (writes : List (String × String)) (bs : List Binding) : List Binding :=
  writes.foldl (fun bs write => setFirst write.1 write.2 bs) bs

def lastWritten (writes : List (String × String)) (name : String) : Option String :=
  writes.reverse.lookup name

theorem lastWritten_concat (writes : List (String × String)) (write : String × String)
    (name : String) :
    lastWritten (writes ++ [write]) name =
      if write.1 = name then some write.2 else lastWritten writes name := by
  obtain ⟨key, value⟩ := write
  rw [lastWritten, List.reverse_append, List.reverse_singleton, List.singleton_append,
    List.lookup_cons]
  by_cases h : key = name
  · simp [h]
  · have hbeq : (name == key) = false := by simpa using Ne.symm h
    rw [hbeq, if_neg h]
    rfl

theorem writeAll_append (writes writes' : List (String × String)) (bs : List Binding) :
    writeAll (writes ++ writes') bs = writeAll writes' (writeAll writes bs) := List.foldl_append

theorem names_writeAll (writes : List (String × String)) (bs : List Binding) :
    (writeAll writes bs).map (·.name) = bs.map (·.name) := by
  induction writes generalizing bs with
  | nil => rfl
  | cons write writes ih => exact (ih _).trans (setFirst_names _ _ bs)

/-- A value is set where the name occurs first and nowhere else. -/
theorem getElem?_setFirst (name value : String) (bs : List Binding) (i : Nat) :
    (setFirst name value bs)[i]? = bs[i]?.map fun b =>
      if b.name = name ∧ name ∉ (bs.take i).map (·.name) then { b with value := value } else b := by
  induction bs generalizing i with
  | nil => simp [setFirst]
  | cons b bs ih =>
    by_cases hname : b.name = name
    · rw [setFirst, if_pos hname]
      cases i with
      | zero => simp [hname]
      | succ i => simp [hname]
    · rw [setFirst, if_neg hname]
      cases i with
      | zero => simp [hname]
      | succ i => simp [ih, Ne.symm hname]

/-- The first binding of a name gets the last value that is written for the name, and the others
keep theirs. -/
theorem getElem?_writeAll (writes : List (String × String)) (bs : List Binding) (i : Nat) :
    (writeAll writes bs)[i]? = bs[i]?.map fun b =>
      if b.name ∈ (bs.take i).map (·.name) then b
      else { b with value := (lastWritten writes b.name).getD b.value } := by
  induction writes using List.reverseRecOn with
  | nil => simp [writeAll, lastWritten]
  | append_singleton writes write ih =>
    -- the last write comes on top of the others; which names stand in front is the same as at first
    have hearlier : ((writeAll writes bs).take i).map (·.name) = (bs.take i).map (·.name) := by
      rw [List.map_take, names_writeAll, List.map_take]
    rw [writeAll_append, writeAll, List.foldl_cons, List.foldl_nil, getElem?_setFirst, ih,
      hearlier, Option.map_map]
    congr 1
    funext b
    simp only [Function.comp_apply, lastWritten_concat]
    by_cases hold : b.name ∈ (bs.take i).map (·.name)
    · rw [if_pos hold, if_pos hold, if_neg]
      rintro ⟨hname, hnew⟩
      exact hnew (hname ▸ hold)
    · rw [if_neg hold, if_neg hold]
      by_cases hname : b.name = write.1
      · rw [if_pos ⟨hname, hname ▸ hold⟩, if_pos hname.symm]
        rfl
      · rw [if_neg fun h => hname h.1, if_neg (Ne.symm hname)]

end Binding

/-! ## What turns write -/

namespace Turn

/-- The name and the text that the turn writes if the target is not skipped: the text is what stands
behind the colon, or the reply to it. -/
def written? (t : Turn) : Option (String × String) :=
  if t.skip?.isSome then none
  else
    match t.action with
    | .reveal | .hide => none
    | .insertText => splitTarget? t.target
    | .generateText => do
      let (name, prompt) ← splitTarget? t.target
      return (name, ← t.reply? prompt)

variable (t : Turn)

theorem bindings_after :
    t.after.bindings = Binding.writeAll t.written?.toList t.draft.bindings := by
  cases houtcome : t.outcome with
  | error reason => simp [after, written?, skip?, houtcome, Binding.writeAll]
  | ok changed =>
    have hskip : t.skip? = none := t.skip?_eq_none_iff.2 ⟨changed, houtcome⟩
    have hafter : t.after = changed := by simp [after, houtcome]
    rw [hafter, written?, hskip, Option.isSome_none, if_neg Bool.false_ne_true]
    rw [outcome] at houtcome
    cases haction : t.action with
    | reveal =>
      simp only [haction, Action.attempt] at houtcome
      split at houtcome <;> cases houtcome
      rfl
    | hide =>
      simp only [haction, Action.attempt] at houtcome
      split at houtcome <;> cases houtcome
      rfl
    | insertText =>
      simp only [haction, Action.attempt] at houtcome
      cases hsplit : splitTarget? t.target with
      | none =>
        rw [hsplit] at houtcome
        cases houtcome
      | some parts =>
        rw [hsplit] at houtcome
        exact Draft.bindings_of_fill? houtcome
    | generateText =>
      simp only [haction, Action.attempt] at houtcome
      cases hsplit : splitTarget? t.target with
      | none =>
        rw [hsplit] at houtcome
        cases houtcome
      | some parts =>
        rw [hsplit] at houtcome
        obtain ⟨name, prompt⟩ := parts
        rcases t.outcome_generate name prompt with ⟨text, hreply, hfill⟩ | ⟨-, reason, herror⟩
        · rw [hfill] at houtcome
          simp only [bind, Option.bind, hreply]
          exact Draft.bindings_of_fill? houtcome
        · rw [herror] at houtcome
          cases houtcome

end Turn

section

variable (a : Action) (sources : Nat → TextSource) (position : Nat) (targets : List Value)
  (d : Draft)

theorem Action.bindings_applyEach (ruleName : String) :
    (a.applyEach ruleName sources position targets d).draft.bindings =
      Binding.writeAll ((a.turns sources position targets d).filterMap Turn.written?)
        d.bindings := by
  induction targets generalizing position d with
  | nil => rfl
  | cons target rest ih =>
    rw [(a.applyEach_cons sources position rest d ruleName target).1, ih, Turn.bindings_after,
      ← Binding.writeAll_append, turns]
    congr 1
    cases hwritten : (Turn.mk a target (sources position) d).written? <;> simp [hwritten]

end

namespace Run

variable (sources : Nat → Nat → TextSource) (p : Nat) (rules : List RuleSource) (d : Draft)

/-- The names and texts that the turns of a run write, in order. -/
def writes : List (String × String) :=
  (accounts sources p rules d).flatMap fun account => account.turns.filterMap Turn.written?

theorem bindings_answered :
    (answered sources p rules d).draft.bindings =
      Binding.writeAll (writes sources p rules d) d.bindings := by
  induction rules generalizing p d with
  | nil => rfl
  | cons raw rest ih =>
    cases hselect : raw.select p d with
    | error report =>
      simp only [answered, writes, accounts, hselect, List.flatMap_cons, Account.turns,
        List.filterMap_nil, List.nil_append]
      exact ih (p + 1) d
    | ok selected =>
      obtain ⟨r, a⟩ := selected
      simp only [answered, writes, accounts, hselect, List.flatMap_cons, Account.turns]
      rw [ih, a.bindings_applyEach, Binding.writeAll_append]
      rfl

/-- A run whose rules only show and hide writes nothing. -/
theorem writes_eq_nil (h : ∀ entry ∈ (answered sources p rules d).applied,
    entry.action = Action.reveal.name ∨ entry.action = Action.hide.name) :
    writes sources p rules d = [] := by
  have haccounted := accountedFor_answered sources p rules d
  rw [haccounted.applied] at h
  rw [writes, List.flatMap_eq_nil_iff]
  intro account haccount
  cases account with
  | skipped report => rfl
  | applied name r a turns =>
    obtain ⟨i, raw, ⟨d', hselect⟩, -, -, hturns⟩ := haccounted.isOf_of_mem haccount
    have hknown := (RuleSource.select_eq_ok_iff.1 hselect).action_eq
    have hentry := h (.ofRule name r) (List.mem_filterMap.2 ⟨_, haccount, rfl⟩)
    have ha : a = .reveal ∨ a = .hide := by
      refine hentry.imp (fun haction => ?_) (fun haction => ?_)
      · rw [show r.action = Action.reveal.name from haction, Action.ofName?_name] at hknown
        exact (Option.some.inj hknown).symm
      · rw [show r.action = Action.hide.name from haction, Action.ofName?_name] at hknown
        exact (Option.some.inj hknown).symm
    rw [List.filterMap_eq_nil_iff]
    intro t ht
    obtain ⟨j, hj⟩ := List.getElem?_of_mem ht
    have haction : t.action = .reveal ∨ t.action = .hide := (hturns j t hj).1 ▸ ha
    rcases haction with haction | haction <;> simp [Turn.written?, haction]

end Run

/-- **What a run does to the bindings.**  Whatever the generator answers to each of the targets, the
bindings keep their names and patterns in the same order.  The first binding of a name gets the last
text that a turn writes for it, if one does, and every other binding keeps its value.  Rules that
only show and hide leave the bindings as they are.  With one source for all targets this is the run
with it. -/
theorem answered_bindings (sources : Nat → Nat → TextSource) (rules : List RuleSource)
    (d : Draft) :
    let run := Run.answered sources 0 rules d
    let writes := Run.writes sources 0 rules d
    run.AccountedFor sources 0 rules (Run.accounts sources 0 rules d) ∧
    run.draft.bindings.length = d.bindings.length ∧ d.SameBound run.draft ∧
    (∀ (i : Nat) (b : Binding), d.bindings[i]? = some b →
      run.draft.bindings[i]? = some
        (if b.name ∈ (d.bindings.take i).map (·.name) then b
        else { b with value := (Binding.lastWritten writes b.name).getD b.value })) ∧
    ((∀ entry ∈ run.applied,
        entry.action = Action.reveal.name ∨ entry.action = Action.hide.name) →
      run.draft.bindings = d.bindings) ∧
    ∀ source, (∀ p i, sources p i = source) → run = Run.ofRules source rules d := by
  intro run writes
  have hbindings : run.draft.bindings = Binding.writeAll writes d.bindings :=
    Run.bindings_answered sources 0 rules d
  have hbound : d.SameBound run.draft := (Run.leads_answered sources 0 rules d).sameBound
  refine ⟨Run.accountedFor_answered sources 0 rules d, ?_, hbound, fun i b hb => ?_,
    fun hentries => ?_, fun source h => Run.answered_eq_ofRules h rules d⟩
  · simpa using congrArg List.length hbound.names
  · rw [hbindings, Binding.getElem?_writeAll, hb, Option.map_some]
  · rw [hbindings, show writes = [] from Run.writes_eq_nil sources 0 rules d hentries]
    rfl

/-- Of two bindings of one name the first one is filled, with the text that was given last; texts
for other names and a target that is skipped afterwards change nothing. -/
theorem answered_bindings_shadowed :
    let source : TextSource := { generator := some fun _ _ => .error "no answer" }
    let nameless := Condition.simple "who" "isEmpty" ""
    let given := RuleSource.rule
      { condition := nameless, action := "insertText",
        targets := ["who:Ada", "who:Grace", "whom:"] }
    let generated := RuleSource.rule
      { condition := .simple "who" "isNotEmpty" "", action := "generateText",
        targets := ["who:a name"] }
    let d : Draft := ⟨"Dear __who__", [⟨"who", "", "__who__"⟩, ⟨"who", "", "Dear"⟩]⟩
    let run := Run.answered (fun _ _ => source) 0 [given, generated] d
    Binding.lastWritten (Run.writes (fun _ _ => source) 0 [given, generated] d) "who" =
        some "Grace" ∧
      run.draft.bindings = [⟨"who", "Grace", "__who__"⟩, ⟨"who", "", "Dear"⟩] ∧
      run = Run.ofRules source [given, generated] d := by
  intro source nameless given generated d run
  have hwritten : Binding.lastWritten
      (Run.writes (fun _ _ => source) 0 [given, generated] d) "who" = some "Grace" := by
    decide +kernel
  obtain ⟨-, hlength, -, hvalues, -, hrun⟩ :=
    answered_bindings (fun _ _ => source) [given, generated] d
  refine ⟨hwritten, List.ext_getElem? fun i => ?_, hrun source fun _ _ => rfl⟩
  match i with
  | 0 => exact (hvalues 0 _ rfl).trans (by rw [hwritten]; rfl)
  | 1 => exact hvalues 1 _ rfl
  | i + 2 => exact List.getElem?_eq_none (by rw [hlength]; exact Nat.le_add_left 2 i)

end Stencil
