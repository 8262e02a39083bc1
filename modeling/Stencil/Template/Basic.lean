import Stencil.Rule.Basic

/-! Templates: text with fill-in points, the variables found in it and its optional sections. -/

namespace Stencil

open Wire

/-- The type of a variable's value. -/
inductive DataType
  | text
  | number
  | date
  | boolean
  | select
  deriving DecidableEq

def DataType.name : DataType → String
  | .text => "text"
  | .number => "number"
  | .date => "date"
  | .boolean => "boolean"
  | .select => "select"

inductive VariableSource
  | patternMatch
  | semanticDetected
  deriving DecidableEq

def VariableSource.name : VariableSource → String
  | .patternMatch => "pattern_match"
  | .semanticDetected => "semantic_detected"

/-- A named fill-in point. -/
structure Variable where
  name : String
  /-- The placeholder as it stands in the text, if it does. -/
  rawPattern : String := ""
  dataType : DataType := .text
  required : Bool := true
  /-- The choices, where there are some. -/
  options : List String := []
  description : String := ""
  source : VariableSource := .patternMatch
  /-- Other names under which a profile may hold a value. -/
  mappings : List String := []
  deriving DecidableEq

namespace Variable

def checkDataType : Value → Checked DataType
  | .text "text" => .valid .text
  | .text "number" => .valid .number
  | .text "date" => .valid .date
  | .text "boolean" => .valid .boolean
  | .text "select" => .valid .select
  | _ => .fail .enumeration

def checkSource : Value → Checked VariableSource
  | .text "pattern_match" => .valid .patternMatch
  | .text "semantic_detected" => .valid .semanticDetected
  | _ => .fail .enumeration

/-- A variable, from the fields of an object. -/
def checkFields (fields : Fields) : Checked Variable :=
  Variable.mk
    <$> Wire.required nonemptyText (.same "name") fields
    <*> optional text "" ⟨"rawPattern", "raw_pattern"⟩ fields
    <*> optional checkDataType .text ⟨"dataType", "data_type"⟩ fields
    <*> optional truth true (.same "required") fields
    <*> optional (nullAsEmpty (list text)) [] (.same "options") fields
    <*> optional text "" (.same "description") fields
    <*> optional checkSource .patternMatch (.same "source") fields
    <*> optional (nullAsEmpty (list text)) [] (.same "mappings") fields

def check : Value → Checked Variable := record checkFields

def toValue (v : Variable) : Value :=
  .object [("name", .text v.name), ("rawPattern", .text v.rawPattern),
    ("dataType", .text v.dataType.name), ("required", .bool v.required),
    ("options", textList v.options), ("description", .text v.description),
    ("source", .text v.source.name), ("mappings", textList v.mappings)]

end Variable

/-- An optional part of a template and the rules that decide about it. -/
structure Section where
  name : String
  rules : List Rule := []

namespace Section

def check : Value → Checked Section :=
  record fun fields =>
    Section.mk
      <$> required text (.same "name") fields
      <*> optional (list Rule.check) [] (.same "rules") fields

def toValue (s : Section) : Value :=
  .object [("name", .text s.name), ("rules", .list (s.rules.map Rule.toValue))]

end Section

/-- A text with fill-in points. -/
structure Template where
  name : String := ""
  content : String := ""
  vars : List Variable := []
  sections : List Section := []

namespace Template

def check : Value → Checked Template :=
  record fun fields =>
    Template.mk
      <$> optional text "" (.same "name") fields
      <*> optional text "" (.same "content") fields
      <*> optional (list Variable.check) [] (.same "variables") fields
      <*> optional (list Section.check) [] ⟨"conditionalSections", "conditional_sections"⟩ fields

def toValue (t : Template) : Value :=
  .object [("name", .text t.name), ("content", .text t.content),
    ("variables", .list (t.vars.map Variable.toValue)),
    ("conditionalSections", .list (t.sections.map Section.toValue))]

end Template

end Stencil
