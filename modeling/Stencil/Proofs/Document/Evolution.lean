import Mathlib.Logic.Relation
import Stencil.Document.Evolution
import Stencil.Proofs.Document.Bindings
import Stencil.Proofs.Rule.Running

/-!
# How a document changes over time

Rules and adaptations are applied to a document step by step (`Step`).  A step may make one document
of another (`Step.Makes`) if the rules of the step may lead there, whatever answers a text generator
gives.  Whatever the steps are, a document keeps its names, its variables stay bound in their order,
and its history is only added to, by one entry for each rule that applies and one more for
adaptations (`evolution_appendOnly`).
-/

namespace Stencil.Document

/-! ## Steps -/

/-- What is done to a document at a time. -/
inductive Step
  | running (timestamp : Option Timestamp) (rules : List RuleSource)
  | adapting (timestamp : Option Timestamp) (adaptations : List Value)

namespace Step

def timestamp : Step → Option Timestamp
  | .running timestamp _ => timestamp
  | .adapting timestamp _ => timestamp

def ruleSources : Step → List RuleSource
  | .running _ rules => rules
  | .adapting _ adaptations => (Rule.ofAdaptations adaptations).map .rule

/-- What the history says about the step as a whole. -/
def summary : Step → List HistoryEntry
  | .running _ _ => []
  | .adapting timestamp adaptations =>
    [adaptationEntry timestamp (Rule.ofAdaptations adaptations)]

def apply (source : TextSource) (d : Document) : Step → Document
  | .running timestamp rules => (d.applyRules source timestamp rules).1
  | .adapting timestamp adaptations => (d.adapt source timestamp adaptations).1

/-- The entries that are added to the history: those of the rules that applied, then the summary. -/
def added (step : Step) (entries : List HistoryEntry) : List HistoryEntry :=
  entries.map (fun e => { e with timestamp := step.timestamp }) ++ step.summary

/-- The step may make `d'` of `d`, wherever the texts come from. -/
def Makes (step : Step) (d d' : Document) : Prop :=
  ∃ entries draft, Run.Leads 0 step.ruleSources d.draft entries draft ∧
    d' = (d.withDraft draft).withHistory (step.added entries)

theorem makes_apply (source : TextSource) (step : Step) (d : Document) :
    step.Makes d (step.apply source d) := by
  cases step with
  | running timestamp rules =>
    refine ⟨_, _, Run.leads_fromPosition source 0 rules d.draft, ?_⟩
    rw [added, summary, List.append_nil]
    rfl
  | adapting timestamp adaptations =>
    refine ⟨_, _, Run.leads_fromPosition source 0 _ d.draft, ?_⟩
    simp only [apply, adapt, applyRules, withHistory, added, summary, List.append_assoc]
    rfl

theorem timestamp_of_mem_added {step : Step} {entries : List HistoryEntry} {e : HistoryEntry}
    (h : e ∈ step.added entries) : e.timestamp = step.timestamp := by
  rcases List.mem_append.1 h with h | h
  · obtain ⟨entry, -, rfl⟩ := List.mem_map.1 h
    rfl
  · cases step with
    | running timestamp rules => cases h
    | adapting timestamp adaptations =>
      rw [List.mem_singleton.1 h]
      rfl

end Step

/-- Some steps may make `d'` of `d`. -/
def Evolves : Document → Document → Prop :=
  Relation.ReflTransGen fun d d' => ∃ step : Step, step.Makes d d'

/-! ## What is kept -/

/-- The document still has its names, and the same variables are bound. -/
structure Kept (made d : Document) : Prop where
  name_eq : d.name = made.name
  templateName_eq : d.templateName = made.templateName
  bound : made.draft.SameBound d.draft

theorem Kept.makes {made d d' : Document} (h : Kept made d) {step : Step}
    (hstep : step.Makes d d') : Kept made d' := by
  obtain ⟨entries, draft, hleads, rfl⟩ := hstep
  exact ⟨h.name_eq, h.templateName_eq, h.bound.trans hleads.sameBound⟩

theorem Evolves.kept {made d : Document} (h : Evolves made d) : Kept made d := by
  induction h with
  | refl => exact ⟨rfl, rfl, .refl _⟩
  | tail _ hstep ih =>
    obtain ⟨step, hstep⟩ := hstep
    exact ih.makes hstep

/-- **Documents are only added to.**  Make a document out of a prepared template, from a profile or
from values that are given, and apply rules and adaptations to it in any number of steps.  Then it
keeps its names, its bindings keep theirs and what they stand for, the names are all different, and
the last value of each is the one that conditions are tested against.  One more step leaves the
history as it is and adds one entry for each rule that applies, in order, and one for adaptations at
the end, all with the time of the step. -/
theorem evolution_appendOnly (e : Extractor) (title : String) (s : List Char) (m : Making) :
    let made := m.document (e.prepare title s).1
    (∀ (source : TextSource) (step : Step) (d : Document), step.Makes d (step.apply source d)) ∧
    ∀ d, Evolves made d →
      (d.name = made.name ∧ d.templateName = made.templateName) ∧
      (d.bindings.map (·.name) = made.bindings.map (·.name) ∧
        d.bindings.map (·.writtenPattern) = made.bindings.map (·.writtenPattern) ∧
        (d.bindings.map (·.name)).Nodup) ∧
      d.bindingValues = Binding.values d.bindings ∧
      ∀ (step : Step) (d' : Document), step.Makes d d' → ∃ entries,
        Run.Leads 0 step.ruleSources d.draft entries d'.draft ∧
        d'.history = d.history ++ step.added entries ∧
        ∀ entry ∈ step.added entries, entry.timestamp = step.timestamp := by
  intro made
  refine ⟨Step.makes_apply, fun d hd => ?_⟩
  have hkept := hd.kept
  have hnames : (d.bindings.map (·.name)).Nodup := by
    rw [show d.bindings.map (·.name) = made.bindings.map (·.name) from hkept.bound.names]
    exact (Making.filled (e.nodup_names_prepare title s) m).nodup_names
  refine ⟨⟨hkept.name_eq, hkept.templateName_eq⟩,
    ⟨hkept.bound.names, hkept.bound.patterns, hnames⟩, Binding.latestValues_eq hnames, ?_⟩
  rintro step _ ⟨entries, draft, hleads, rfl⟩
  exact ⟨entries, hleads, rfl, fun entry => Step.timestamp_of_mem_added⟩

/-- A generator that gives two answers to one request, and an adaptation behind it. -/
theorem evolution_appendOnly_letter :
    let s := "Dear \x7b\x7bwho\x7d\x7d, [GREETING]".toList
    let made := (Making.values [("who", .text "Ada")] "letter").document
      (({} : Extractor).prepare "" s).1
    let r : Rule :=
      { condition := .simple "who" "isNotEmpty" ""
        action := "generateText"
        targets := ["who:a name", "who:a name"] }
    let asking : Step := .running none [.rule r]
    let answered (text : String) : Draft :=
      ⟨made.content, made.bindings.map fun b => { b with value := text }⟩
    let asked := (made.withDraft (answered "Bob")).withHistory
      (asking.added [.ofRule (r.nameAt 0) r])
    let adapting : Step := .adapting none
      [.object [("condition", r.condition.toValue), ("action", .text "insertText"),
        ("targetVariables", .text "who:Eve")]]
    let d := adapting.apply {} asked
    (asking.Makes made asked ∧ adapting.Makes asked d ∧ Evolves made d) ∧
      d.templateName = made.templateName ∧
      d.bindings.map (·.name) = made.bindings.map (·.name) ∧
      d.bindingValues = Binding.values d.bindings ∧
      (∃ entries, d.history = asked.history ++ adapting.added entries) ∧
      d.history.map (·.action) = ["generateText", "insertText", "context_adaptation"] := by
  intro s made r asking answered asked adapting d
  let answering (text : String) : TextSource := { generator := some fun _ _ => .ok (.text text) }
  have hfirst : (Action.generateText.attempt (answering "Grace") (.text "who:a name")
      made.draft).outcome = .ok (answered "Grace") := by decide +kernel
  have hsecond : (Action.generateText.attempt (answering "Bob") (.text "who:a name")
      (answered "Grace")).outcome = .ok (answered "Bob") := by decide +kernel
  have hasking : asking.Makes made asked := by
    have happlies : (RuleSource.rule r).Applies 0 made.draft r .generateText :=
      ⟨rfl, by decide +kernel, rfl⟩
    exact ⟨_, _, .applied happlies (.done hfirst (.done hsecond (.nil _))) (.nil 1 _), rfl⟩
  obtain ⟨hmakes, hkept⟩ :=
    evolution_appendOnly {} "" s (.values [("who", .text "Ada")] "letter")
  have hadapting : adapting.Makes asked d := hmakes {} adapting asked
  have hevolves : Evolves made d := .tail (.tail .refl ⟨asking, hasking⟩) ⟨adapting, hadapting⟩
  obtain ⟨⟨-, htemplate⟩, ⟨hnames, -, -⟩, hvalues, -⟩ := hkept d hevolves
  obtain ⟨-, -, -, hhistory⟩ := hkept asked (.tail .refl ⟨asking, hasking⟩)
  obtain ⟨entries, -, hadded, -⟩ := hhistory adapting d hadapting
  exact ⟨⟨hasking, hadapting, hevolves⟩, htemplate, hnames, hvalues, ⟨entries, hadded⟩,
    by decide +kernel⟩

end Stencil.Document
