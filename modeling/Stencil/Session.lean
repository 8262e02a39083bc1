import Stencil.Chat.Tasks
import Stencil.Document.Evolution
import Stencil.Document.Filling
import Stencil.Section.Authoring
import Stencil.Template.Extraction

/-!
A session: one template, one profile and one document, and the steps that change them.

A step gives an answer and the session after it, or it is refused and there is no new session.
-/

namespace Stencil

inductive Refusal
  | invalidInput (cause : InvalidInput)
  | invalidData (issues : List Issue)
  | chatFailure (failure : ChatFailure)
  deriving DecidableEq

def Refusal.message : Refusal → String
  | .invalidInput cause => cause.message
  | .invalidData issues => Issue.textOfAll issues
  | .chatFailure failure => failure.message

/-- The result of a check, or its issues as a refusal. -/
def Checked.orRefuse {α : Type} : Checked α → Except Refusal α
  | .valid a => .ok a
  | .invalid issues => .error (.invalidData issues)

/-- The result, or the cause as a refusal. -/
def InvalidInput.orRefuse {α : Type} : Except InvalidInput α → Except Refusal α
  | .ok a => .ok a
  | .error cause => .error (.invalidInput cause)

/-- Something that has to be there. -/
def needed {α : Type} (cause : InvalidInput) : Option α → Except Refusal α
  | some a => .ok a
  | none => .error (.invalidInput cause)

/-- Runs rules on a content and bindings that may be missing or of another kind. -/
def Run.ofValues (source : TextSource) (content : Value) (bindings : Option (List Binding))
    (rules : Value) : Except Refusal Run := do
  match content with
  | .null => .error (.invalidInput .noContent)
  | content =>
    let bindings ← needed .noBindings bindings
    match rules with
    | .null => .error (.invalidInput .noRules)
    | rules =>
      let content ← ((Wire.text content).under "content").orRefuse
      return Run.ofRules source (RuleSource.members rules) ⟨content, bindings⟩

/-- Merges the fields of snapshots that may be missing. -/
def Profile.mergeGiven (t : Profile.Threshold) (snapshots : Option (List (Table String))) :
    Except Refusal Profile.MergeResult := do
  return Profile.merge t (← needed .noSnapshots snapshots)

/-- What a session holds. -/
structure Session where
  template : Option Template := none
  profile : Option Profile := some Profile.empty
  document : Option Document := none

namespace Session

/-- What is held after free-form data is given for it; null takes away what was held. -/
def replaced {α : Type} (check : Value → Checked α) (held : Option α) :
    Option Value → Except Refusal (Option α)
  | none => .ok held
  | some .null => .ok none
  | some v => (some <$> check v).orRefuse

def replace (s : Session) (template profile document : Option Value) : Except Refusal Session := do
  let template ← replaced Template.check s.template template
  let profile ← replaced Profile.check s.profile profile
  let document ← replaced Document.check s.document document
  return ⟨template, profile, document⟩

def prepare (s : Session) (e : Extractor) (name content : Value) :
    Except Refusal (Template × Session) := do
  let (t, _) ← (e.prepareValue name content).orRefuse
  return (t, { s with template := some t })

def addSection (s : Session) (name content : String) (rules : List Rule) :
    Except Refusal (Template × Session) := do
  let t ← needed .noTemplate s.template
  let t ← InvalidInput.orRefuse (t.addSection name content rules)
  return (t, { s with template := some t })

def store (s : Session) (data category : Value) (timestamp : Option Timestamp) :
    Except Refusal (Profile × Session) := do
  let p ← InvalidInput.orRefuse ((s.profile.getD .empty).store data category timestamp)
  return (p, { s with profile := some p })

/-- The data of a category; nothing without a profile. -/
def retrieve (s : Session) (category : Value) (wanted : Option (List String)) :
    Except Refusal (Table String × Session) := do
  match s.profile with
  | none => return ([], s)
  | some p => return (p.retrieve (← InvalidInput.orRefuse (Category.ofValue category)) wanted, s)

/-- The values that the profile has for variables; nothing without a profile or variables. -/
def autofill (s : Session) (vars : Option (List Variable)) : Table String :=
  match s.profile, vars with
  | some p, some vs => p.autofill vs
  | _, _ => []

def frequent (s : Session) (limit : Option Int) : Except Refusal (List FrequentVariable) := do
  return (← needed .noProfile s.profile).frequentVariables limit

/-- Overrides the profile's personal information by merged values. -/
def deduplicate (s : Session) (t : Profile.Threshold) :
    Except Refusal ((Profile × Profile.MergeResult) × Session) := do
  let (p, result) := (← needed .noProfile s.profile).deduplicate t
  return ((p, result), { s with profile := some p })

/-- Makes the document out of the template with the values of the profile. -/
def personalize (s : Session) (timestamp : Option Timestamp) :
    Except Refusal (Document × Session) := do
  let t ← needed .noTemplate s.template
  let p ← needed .noProfile s.profile
  let d := Document.personalize t p timestamp
  return (d, { s with document := some d })

/-- Makes the document out of the template with given values. -/
def create (s : Session) (values name : Value) : Except Refusal (Document × Session) := do
  let t ← needed .noTemplate s.template
  if !name.isGiven then .error (.invalidInput .noDocumentName)
  else
    let name ← ((Wire.text name).under "name").orRefuse
    let d := Document.create t (Document.givenPairs values) name
    return (d, { s with document := some d })

/-- Gives the document the content of the template. -/
def resetContent (s : Session) : Except Refusal (Document × Session) := do
  let d ← needed .noDocument s.document
  let t ← needed .noTemplate s.template
  let d := { d with content := t.content }
  return (d, { s with document := some d })

def apply (s : Session) (source : TextSource) (rules : Value) (timestamp : Option Timestamp) :
    Except Refusal ((Document × Run) × Session) := do
  let d ← needed .noDocument s.document
  match rules with
  | .null => .error (.invalidInput .noRules)
  | rules =>
    let (d, run) := d.applyRules source timestamp (RuleSource.members rules)
    return ((d, run), { s with document := some d })

def adapt (s : Session) (source : TextSource) (adaptations : Value)
    (timestamp : Option Timestamp) : Except Refusal ((Document × Run) × Session) := do
  match adaptations with
  | .null => .error (.invalidInput .noAdaptations)
  | adaptations =>
    let d ← needed .noDocument s.document
    let items := match adaptations with
      | .list items => items
      | _ => []
    let (d, run) := d.adapt source timestamp items
    return ((d, run), { s with document := some d })

/-- Has rules suggested for the template and applies them to the document. -/
def suggest (s : Session) (chat : Chat) (source : TextSource) (timestamp : Option Timestamp) :
    Except Refusal ((List Rule × Document × Run) × Session) := do
  let t ← needed .noTemplate s.template
  match chat.suggest t with
  | .error failure => .error (.chatFailure failure)
  | .ok rules =>
    let d ← needed .noDocument s.document
    let (d, run) := d.applyRules source timestamp (rules.map .rule)
    return ((rules, d, run), { s with document := some d })

end Session

end Stencil
