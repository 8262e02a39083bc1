import Stencil.Chat.Basic
import Stencil.Value.Writer
import Stencil.Template.Basic
import Stencil.Text.Literal

/-!
What a chat model is asked for: the variables of a document, text for it, and rules for a template.
-/

namespace Stencil.Chat

/-! ## Variables -/

/-- What a model that looks for variables is told. -/
def detectionPrompt : String :=
  "\n" ++
    "You are an assistant specialized in document analysis. Identify every value\n" ++
    "in the document that would change from one use of the document to the next.\n" ++
    "\n" ++
    "For each variable return:\n" ++
    "- name: lowercase with underscores\n" ++
    "- required: true if the document needs the value\n" ++
    "- dataType: one of text, number, date, boolean, select\n" ++
    "- description: what the variable represents\n" ++
    "- options: list of choices, only for select variables\n" ++
    "\n" ++
    "Return valid JSON only: \x7b\"variables\": [...]\x7d\n"

def detectionRequest (c : Chat) (text : String) : ChatRequest :=
  c.request detectionPrompt ("Identify the customizable variables in this document:\n\n" ++ text)
    standardTemperature true

/-- The descriptions of the variables of a text. -/
def detect (c : Chat) (text : String) : Except ChatFailure (List Value) := do
  match listUnder? "variables" (← c.completeJson (c.detectionRequest text)) with
  | some items => .ok items
  | none => c.fail "response has no variables array"

/-! ## Text -/

/-- What a model that writes text is told. -/
def generationPrompt : String :=
  "\n" ++
    "You are an assistant specialized in generating professional document text.\n" ++
    "Use formal language appropriate for legal and business documents.\n" ++
    "Return only the text that goes into the document, without explanations\n" ++
    "or disclaimers.\n"

/-- The temperature for text that is used without another. -/
def generationTemperature : Float := 0.3

def generationRequest (c : Chat) (prompt context : String)
    (temperature : Float := generationTemperature) : ChatRequest :=
  let context := if context.isEmpty then "No document context provided" else context
  c.request generationPrompt
    ("Generate professional document text based on the following prompt:\n\n" ++ prompt ++
      "\n\nContext for this text:\n" ++ context)
    temperature

/-- A text, without blanks at its ends. -/
def generate (c : Chat) (prompt context : String) (temperature : Float := generationTemperature) :
    Except ChatFailure String := do
  let content ← c.complete (c.generationRequest prompt context temperature)
  return String.ofList (Text.strip content.toList)

/-! ## Rules -/

/-- What a model that suggests rules is told. -/
def suggestionPrompt : String :=
  "\n" ++
    "You are an assistant specialized in document automation and conditional logic.\n" ++
    "Suggest rules that show or hide sections or insert text depending on variable values.\n" ++
    "\n" ++
    "Each rule has this structure:\n" ++
    "\x7b\n" ++
    "  \"name\": \"string\",\n" ++
    "  \"description\": \"string\",\n" ++
    "  \"condition\": \x7b\"type\": \"simple\", \"variable\": \"string\", " ++
    "\"operator\": \"string\", \"value\": \"string\"\x7d,\n" ++
    "  \"action\": \"show | hide | insertText\",\n" ++
    "  \"targetVariables\": [\"string\"]\n" ++
    "\x7d\n" ++
    "\n" ++
    "Valid operators: equals, notEquals, contains, startsWith, endsWith,\n" ++
    "greaterThan, lessThan, isEmpty, isNotEmpty.\n" ++
    "\n" ++
    "Return valid JSON only: \x7b\"rules\": [...]\x7d\n"

def describe (v : Variable) : Value :=
  .object [("name", .text v.name), ("dataType", .text v.dataType.name)]

/-- How much of a template's content is sent. -/
def standardContentChars : Int := 5000

def suggestionRequest (c : Chat) (t : Template) (contentChars : Int := standardContentChars) :
    ChatRequest :=
  let name := if t.name.isEmpty then "Unnamed template" else t.name
  let content := String.ofList (Text.leading contentChars t.content.toList)
  c.request suggestionPrompt
    ("Suggest conditional rules for the following document template:\n\nTemplate Name: " ++ name ++
      "\n\nTemplate Content:\n" ++ content ++ "\n\nTemplate Variables:\n" ++
      (Value.list (t.vars.map describe)).json)
    standardTemperature true

/-- Rules for a template; what is no rule is dropped. -/
def suggest (c : Chat) (t : Template) (contentChars : Int := standardContentChars) :
    Except ChatFailure (List Rule) := do
  match listUnder? "rules" (← c.completeJson (c.suggestionRequest t contentChars)) with
  | some items => .ok (items.filterMap fun item => (Rule.check item).toOption)
  | none => c.fail "response has no rules array"

end Stencil.Chat
