import Stencil.Rule.Run
import Stencil.Rule.Adaptation

/-!
How a document changes: rules and adaptations are applied to it, and its history grows by what was
done.
-/

namespace Stencil.Document

def draft (d : Document) : Draft := ⟨d.content, d.bindings⟩

/-- The document with another content and other bindings. -/
def withDraft (d : Document) (draft : Draft) : Document :=
  { d with content := draft.content, bindings := draft.bindings }

/-- Applies rules. One entry for each applied rule is added to the history. -/
def applyRules (source : TextSource) (timestamp : Option Timestamp) (rules : List RuleSource)
    (d : Document) : Document × Run :=
  let run := Run.ofRules source rules d.draft
  let entries := run.applied.map fun e => { e with timestamp := timestamp }
  ((d.withDraft run.draft).withHistory entries, run)

def adaptationEntry (timestamp : Option Timestamp) (rules : List Rule) : HistoryEntry :=
  { action := "context_adaptation"
    description := Rule.adaptationDescription
    details := [("adaptations", .list (rules.map Rule.toValue))]
    timestamp := timestamp }

/-- Applies adaptations. One more entry sums them up. -/
def adapt (source : TextSource) (timestamp : Option Timestamp) (adaptations : List Value)
    (d : Document) : Document × Run :=
  let rules := Rule.ofAdaptations adaptations
  let (changed, run) := d.applyRules source timestamp (rules.map .rule)
  (changed.withHistory [adaptationEntry timestamp rules], run)

end Stencil.Document
