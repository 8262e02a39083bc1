import Stencil.Rule.Basic
import Stencil.Document.Basic
import Stencil.Document.Replacement
import Stencil.Section.Marker
import Stencil.Collaborator

/-!
What a rule does to a document.

An action is carried out for each of its targets in turn.  A target either changes the `Draft` or is
skipped for a reason, and a skipped target changes nothing.  Main statement: filling a binding
changes no name and no written pattern (`setFirst_names`, `setFirst_patterns`).
-/

namespace Stencil

/-- The content and the bindings of a document. -/
structure Draft where
  content : String
  bindings : List Binding
  deriving DecidableEq

inductive Action
  | reveal
  | hide
  | insertText
  | generateText
  deriving DecidableEq

def Action.name : Action → String
  | .reveal => "show"
  | .hide => "hide"
  | .insertText => "insertText"
  | .generateText => "generateText"

def Action.ofName? : String → Option Action
  | "show" => some .reveal
  | "hide" => some .hide
  | "insertText" => some .insertText
  | "generateText" => some .generateText
  | _ => none

inductive SkipReason
  | blankSection
  | noText
  | noPrompt
  | unbound (name : String)
  | noGenerator
  | generationFailed (message : String)
  | generatedNoText
  deriving DecidableEq

def SkipReason.message : SkipReason → String
  | .blankSection => "empty section name"
  | .noText => "expected 'name:text'"
  | .noPrompt => "expected 'name:prompt'"
  | .unbound name => "no binding named '" ++ name ++ "'"
  | .noGenerator => "no text generator configured"
  | .generationFailed message => "generation failed: " ++ message
  | .generatedNoText => "generator returned non-text"

structure SkippedTarget where
  ruleName : String
  action : String
  target : String
  reason : SkipReason
  deriving DecidableEq

def SkippedTarget.toValue (s : SkippedTarget) : Value :=
  .object [("ruleName", .text s.ruleName), ("action", .text s.action), ("target", .text s.target),
    ("reason", .text s.reason.message)]

/-- The name and the rest of a target, which the first colon parts. -/
def splitTarget? : Value → Option (String × String)
  | .text s =>
    match Text.splitFirst? ':' s.toList with
    | none => none
    | some (name, rest) =>
      let name := Text.strip name
      if name.isEmpty then none else some (String.ofList name, String.ofList rest)
  | _ => none

def sectionTarget? : Value → Option String
  | .text s => if Text.allBlank s.toList then none else some (String.ofList (Text.strip s.toList))
  | _ => none

/-- Sets the value of the first binding of that name. -/
def Binding.setFirst (name value : String) : List Binding → List Binding
  | [] => []
  | b :: rest =>
    if b.name = name then { b with value := value } :: rest else b :: setFirst name value rest

namespace Draft

/-- The first binding of that name. -/
def binding? (d : Draft) (name : String) : Option Binding := d.bindings.find? fun b => b.name = name

/-- Replaces the content by a function of it. -/
def mapContent (f : List Char → List Char) (d : Draft) : Draft :=
  { d with content := String.ofList (f d.content.toList) }

/-- Fills in a text for a name: it replaces what the pattern of the first binding of that name asks
for and becomes the value of the binding. -/
def fill? (name text : String) (d : Draft) : Except SkipReason Draft :=
  match d.binding? name with
  | none => .error (.unbound name)
  | some b =>
    let pattern := b.writtenPattern.toList
    .ok { d.mapContent (Replacement.applyWritten pattern text.toList) with
      bindings := Binding.setFirst name text d.bindings }

end Draft

/-- A request for generated text: the prompt and the context. -/
abbrev GenerationRequest := String × String

/-- What generated text comes from. -/
structure TextSource where
  generator : Option Generator := none
  /-- How much of the content is given as context. -/
  contextChars : Int := 1000

/-- What came of one target, and the text that was asked for. -/
structure Attempt where
  outcome : Except SkipReason Draft
  requests : List GenerationRequest := []

namespace Action

def generate (source : TextSource) (name prompt : String) (d : Draft) : Attempt :=
  match d.binding? name, source.generator with
  | none, _ => { outcome := .error (.unbound name) }
  | some _, none => { outcome := .error .noGenerator }
  | some _, some generator =>
    let context := String.ofList (Text.leading source.contextChars d.content.toList)
    { outcome :=
        match generator prompt context with
        | .error message => .error (.generationFailed message)
        | .ok (.text text) => d.fill? name text
        | .ok _ => .error .generatedNoText
      requests := [(prompt, context)] }

def attempt (source : TextSource) (target : Value) (d : Draft) : Action → Attempt
  | .reveal =>
    match sectionTarget? target with
    | none => { outcome := .error .blankSection }
    | some name => { outcome := .ok (d.mapContent (Section.reveal name.toList)) }
  | .hide =>
    match sectionTarget? target with
    | none => { outcome := .error .blankSection }
    | some name => { outcome := .ok (d.mapContent (Section.remove name.toList)) }
  | .insertText =>
    match splitTarget? target with
    | none => { outcome := .error .noText }
    | some (name, text) => { outcome := d.fill? name text }
  | .generateText =>
    match splitTarget? target with
    | none => { outcome := .error .noPrompt }
    | some (name, prompt) => generate source name prompt d

end Action

structure Outcome where
  draft : Draft
  skipped : List SkippedTarget := []
  requests : List GenerationRequest := []

namespace Action

/-- Carries the action out for every target, in order. -/
def apply (source : TextSource) (ruleName : String) (a : Action) : List Value → Draft → Outcome
  | [], d => { draft := d }
  | target :: rest, d =>
    let tried := a.attempt source target d
    match tried.outcome with
    | .ok changed =>
      let o := apply source ruleName a rest changed
      { o with requests := tried.requests ++ o.requests }
    | .error reason =>
      let o := apply source ruleName a rest d
      { o with
        skipped := ⟨ruleName, a.name, target.display, reason⟩ :: o.skipped
        requests := tried.requests ++ o.requests }

/-- Carries out the action of that name; without one nothing happens. -/
def applyNamed (source : TextSource) (ruleName action : String) (targets : List Value) (d : Draft) :
    Outcome :=
  match ofName? action with
  | some a => a.apply source ruleName targets d
  | none => { draft := d }

end Action

/-! ## Lemmas -/

theorem Action.ofName?_name (a : Action) : ofName? a.name = some a := by cases a <;> rfl

namespace Binding

theorem setFirst_names (name value : String) (bs : List Binding) :
    (setFirst name value bs).map (·.name) = bs.map (·.name) := by
  induction bs with
  | nil => rfl
  | cons b rest ih => by_cases h : b.name = name <;> simp [setFirst, h, ih]

theorem setFirst_patterns (name value : String) (bs : List Binding) :
    (setFirst name value bs).map (·.writtenPattern) = bs.map (·.writtenPattern) := by
  induction bs with
  | nil => rfl
  | cons b rest ih => by_cases h : b.name = name <;> simp [setFirst, h, ih]

end Binding

end Stencil
