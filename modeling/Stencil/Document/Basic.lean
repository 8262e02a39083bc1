import Stencil.Timestamp

/-! Documents: filled-in templates with their bindings and their history. -/

namespace Stencil

open Wire

/-- A variable with its value in one document, and the written pattern of the text that the value
stands for. -/
structure Binding where
  name : String
  value : String := ""
  writtenPattern : String := ""
  deriving DecidableEq

namespace Binding

def check : Value → Checked Binding :=
  record fun fields =>
    Binding.mk
      <$> required text (.same "name") fields
      <*> optional text "" (.same "value") fields
      <*> optional text "" ⟨"originalPattern", "original_pattern"⟩ fields

def toValue (b : Binding) : Value :=
  .object [("name", .text b.name), ("value", .text b.value),
    ("originalPattern", .text b.writtenPattern)]

/-- The values that conditions are tested against. -/
def values (bindings : List Binding) : Table String := bindings.map fun b => (b.name, b.value)

/-- The bindings among the members of a list; what is no object is passed over. -/
def checkMembers : List Value → Checked (List Binding)
  | [] => .valid []
  | .object fields :: rest =>
    match check (.object fields) with
    | .valid b => List.cons b <$> checkMembers rest
    | .invalid issues => .invalid issues
  | _ :: rest => checkMembers rest

/-- The values that free-form data gives: the fields of an object, or the bindings in a list. -/
def valuesOf : Value → Checked (Table String)
  | .object fields => .valid (fields.map fun (k, v) => (k, v.storedText))
  | .list items => values <$> checkMembers items
  | _ => .valid []

/-- The value of each name, the last one where a name occurs more than once. -/
def latestValues (bindings : List Binding) : Table String :=
  bindings.foldl (fun t b => t.set b.name b.value) []

end Binding

structure HistoryEntry where
  action : String
  description : String := ""
  ruleName : Option String := none
  details : Table Value := []
  timestamp : Option Timestamp := none

namespace HistoryEntry

def check : Value → Checked HistoryEntry :=
  record fun fields =>
    HistoryEntry.mk
      <$> required text (.same "action") fields
      <*> optional text "" (.same "description") fields
      <*> optional text? none ⟨"ruleName", "rule_name"⟩ fields
      <*> optional (table .valid) [] (.same "details") fields
      <*> optional Timestamp.check? none (.same "timestamp") fields

def toValue (e : HistoryEntry) : Value :=
  .object [("action", .text e.action), ("description", .text e.description),
    ("ruleName", textOrNull e.ruleName), ("details", .object e.details),
    ("timestamp", Timestamp.toValue? e.timestamp)]

end HistoryEntry

/-- A filled-in template. -/
structure Document where
  name : String := ""
  templateName : String := ""
  content : String := ""
  bindings : List Binding := []
  history : List HistoryEntry := []

namespace Document

def check : Value → Checked Document :=
  record fun fields =>
    Document.mk
      <$> optional text "" (.same "name") fields
      <*> optional text "" ⟨"templateName", "template_name"⟩ fields
      <*> optional text "" (.same "content") fields
      <*> optional (tuple Binding.check) [] (.same "bindings") fields
      <*> optional (tuple HistoryEntry.check) []
        ⟨"customizationHistory", "customization_history"⟩ fields

def toValue (d : Document) : Value :=
  .object [("name", .text d.name), ("templateName", .text d.templateName),
    ("content", .text d.content), ("bindings", .list (d.bindings.map Binding.toValue)),
    ("customizationHistory", .list (d.history.map HistoryEntry.toValue))]

def withHistory (d : Document) (entries : List HistoryEntry) : Document :=
  { d with history := d.history ++ entries }

/-- The value of each name, the last one where a name occurs more than once. -/
def bindingValues (d : Document) : Table String := Binding.latestValues d.bindings

end Document

end Stencil
