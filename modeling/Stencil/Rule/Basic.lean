import Stencil.Condition.Basic

/-! Rules: what is done to a document when a condition holds, and how rules are read. -/

namespace Stencil

open Wire

/-- A rule. The action is kept as it is named, whether the name means something or not. -/
structure Rule where
  name : String := ""
  description : String := ""
  condition : Condition := .absent
  action : String
  targets : List String := []

namespace Rule

def nameField : Name := .same "name"
def descriptionField : Name := .same "description"
def conditionField : Name := .same "condition"
def actionField : Name := .same "action"
def targetsField : Name := ⟨"targetVariables", "target_variables"⟩

/-- Targets: a list of texts, one text for a list of one, nothing for null. -/
def checkTargets : Value → Checked (List String)
  | .null => .valid []
  | .text s => .valid [s]
  | v => tuple text v

/-- A rule, from the fields of an object. -/
def checkFields (fields : Fields) : Checked Rule :=
  Rule.mk
    <$> optional text "" nameField fields
    <*> optional text "" descriptionField fields
    <*> optional (fun v => .valid (Condition.ofValue v)) .absent conditionField fields
    <*> required text actionField fields
    <*> optional checkTargets [] targetsField fields

def check : Value → Checked Rule := record checkFields

def toValue (r : Rule) : Value :=
  .object [("name", .text r.name), ("description", .text r.description),
    ("condition", r.condition.toValue), ("action", .text r.action),
    ("targetVariables", textList r.targets)]

end Rule

end Stencil
