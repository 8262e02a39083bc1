import Stencil.Rule.Action
import Stencil.Condition.Evaluation
import Stencil.InvalidInput

/-!
Running rules on a document.

Rules run in order; the condition of each sees the bindings that the rules before it left.  Every
rule is either applied, which gives one entry for the history, or skipped for a reason, and then it
changes nothing.
-/

namespace Stencil

/-- A rule as it is handed in: read already, or as free-form data. -/
inductive RuleSource
  | rule (r : Rule)
  | raw (v : Value)

inductive RuleSkip
  | malformed (issueCount : Nat)
  | noObject (kind : String)
  | conditionNotMet
  | unknownAction (action : String)
  deriving DecidableEq

def RuleSkip.message : RuleSkip → String
  | .malformed n => "malformed rule: " ++ toString n ++ " error(s)"
  | .noObject kind => "malformed rule: " ++ kind
  | .conditionNotMet => "condition not met"
  | .unknownAction action => "unknown action " ++ Text.quoted action

structure SkippedRule where
  ruleName : String
  reason : RuleSkip
  deriving DecidableEq

def SkippedRule.toValue (s : SkippedRule) : Value :=
  .object [("ruleName", .text s.ruleName), ("reason", .text s.reason.message)]

/-- What the rule at a position is called when it has no name. -/
def positionName (position : Nat) : String := "rule_" ++ toString position

namespace RuleSource

/-- The rules of a value that holds some: the members of a list, the names of an object's fields or
the letters of a text. -/
def members : Value → List RuleSource
  | .list items => items.map .raw
  | .object fields => fields.map fun (k, _) => .raw (.text k)
  | .text s => s.toList.map fun c => .raw (.text c.toString)
  | _ => []

/-- The name of an object that is no rule. -/
def givenName (position : Nat) (fields : Table Value) : String :=
  match fields.lookup "name" with
  | some v => if v.isGiven then v.display else positionName position
  | none => positionName position

/-- The rule at a position, if it is one. -/
def read (position : Nat) : RuleSource → Except SkippedRule Rule
  | .rule r => .ok r
  | .raw (.object fields) =>
    match Rule.checkFields fields with
    | .valid r => .ok r
    | .invalid issues => .error ⟨givenName position fields, .malformed issues.length⟩
  | .raw v => .error ⟨positionName position, .noObject v.kind⟩

end RuleSource

/-- The name under which the rule at a position is reported. -/
def Rule.nameAt (position : Nat) (r : Rule) : String :=
  if r.name.isEmpty then positionName position else r.name

def HistoryEntry.ofRule (name : String) (r : Rule) : HistoryEntry :=
  { action := r.action
    description :=
      if r.description.isEmpty then "Applied rule '" ++ name ++ "'" else r.description
    ruleName := some name
    details := [("targetVariables", Wire.textList r.targets)] }

/-- What came of one rule. -/
inductive Verdict
  | applied (entry : HistoryEntry) (outcome : Outcome)
  | skipped (rule : SkippedRule)

/-- Applies the rule at a position, if it is one, its condition holds and its action is known. -/
def RuleSource.consider (source : TextSource) (position : Nat) (raw : RuleSource) (d : Draft) :
    Verdict :=
  match raw.read position with
  | .error skipped => .skipped skipped
  | .ok r =>
    let name := r.nameAt position
    if !r.condition.holds (Binding.values d.bindings) then .skipped ⟨name, .conditionNotMet⟩
    else
      match Action.ofName? r.action with
      | none => .skipped ⟨name, .unknownAction r.action⟩
      | some a => .applied (.ofRule name r) (a.apply source name (r.targets.map .text) d)

structure Run where
  draft : Draft
  applied : List HistoryEntry := []
  skippedRules : List SkippedRule := []
  skippedTargets : List SkippedTarget := []
  requests : List GenerationRequest := []

namespace Run

def fromPosition (source : TextSource) : (position : Nat) → List RuleSource → Draft → Run
  | _, [], d => { draft := d }
  | position, raw :: rest, d =>
    match raw.consider source position d with
    | .skipped s =>
      let run := fromPosition source (position + 1) rest d
      { run with skippedRules := s :: run.skippedRules }
    | .applied entry outcome =>
      let run := fromPosition source (position + 1) rest outcome.draft
      { run with
        applied := entry :: run.applied
        skippedTargets := outcome.skipped ++ run.skippedTargets
        requests := outcome.requests ++ run.requests }

def ofRules (source : TextSource) (rules : List RuleSource) (d : Draft) : Run :=
  fromPosition source 0 rules d

def toValue (r : Run) : Value :=
  .object [("content", .text r.draft.content),
    ("bindings", .list (r.draft.bindings.map Binding.toValue)),
    ("applied", .list (r.applied.map HistoryEntry.toValue)),
    ("skippedRules", .list (r.skippedRules.map SkippedRule.toValue)),
    ("skippedTargets", .list (r.skippedTargets.map SkippedTarget.toValue))]

/-- The value of each name, the last one where a name occurs more than once. -/
def bindingValues (r : Run) : Table String := Binding.latestValues r.draft.bindings

end Run

end Stencil
