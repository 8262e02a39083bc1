import Stencil.Document.Basic
import Stencil.Document.Replacement
import Stencil.Profile.Store

/-!
Making a document out of a template, with values from a profile or with values that are given.

Either way each filled variable has a binding whose written pattern stands for its placeholder, so
that the value can be changed later.
-/

namespace Stencil

namespace Variable

/-- The written pattern of a variable's placeholder; without a placeholder there is none. -/
def writtenPattern (v : Variable) : String :=
  if v.rawPattern.isEmpty then ""
  else String.ofList (Replacement.ofLiteral v.rawPattern.toList)

def bind (v : Variable) (value : String) : Binding := ⟨v.name, value, v.writtenPattern⟩

end Variable

namespace Document

/-- The value that a profile gives a variable: its own in the personal information or the
preferences, or the personal information under one of its other names. -/
def ownValue? (p : Profile) (v : Variable) : Option String :=
  (p.personalInfo.given? v.name).or ((p.preferences.given? v.name).or (p.mapped? v.mappings))

/-- Puts a value in place of a variable's placeholder, letter by letter, and binds it. -/
def fillLiteral (draft : List Char × List Binding) (v : Variable) (value : String) :
    List Char × List Binding :=
  (if v.rawPattern.isEmpty then draft.1
    else Text.replaceAll v.rawPattern.toList value.toList draft.1,
   draft.2 ++ [v.bind value])

def personalizedEntry (timestamp : Option Timestamp) (bindings : List Binding) : HistoryEntry :=
  { action := "personalization"
    description := "Document personalized based on user profile"
    details := [("filled", Wire.textList (bindings.map (·.name)))]
    timestamp := timestamp }

def personalize (t : Template) (p : Profile) (timestamp : Option Timestamp) : Document :=
  let (content, bindings) :=
    t.vars.foldl
      (fun draft v =>
        match ownValue? p v with
        | some value => fillLiteral draft v value
        | none => draft)
      (t.content.toList, [])
  let owner := (p.personalInfo.given? "name").getD "User"
  { name := t.name ++ " - Personalized for " ++ owner
    templateName := t.name
    content := String.ofList content
    bindings := bindings
    history := [personalizedEntry timestamp bindings] }

/-- The names and values that are given: the fields of an object, or the entries of a list that have
a name and a value. -/
def givenPairs : Value → List (String × Value)
  | .object fields => fields
  | .list items =>
    items.filterMap fun
      | .object fields =>
        match fields.lookup "name" with
        | some (.text name) => some (name, (fields.lookup "value").getD .null)
        | _ => none
      | _ => none
  | _ => []

/-- Fills in one given value, unless the template has no variable of that name or it is filled. -/
def fillGiven (t : Template) (draft : List Char × List Binding) (pair : String × Value) :
    List Char × List Binding :=
  let (name, value) := pair
  match t.vars.find? fun v => v.name = name with
  | none => draft
  | some v =>
    if draft.2.any fun b => b.name = name then draft
    else
      let text := value.storedText
      (Replacement.applyWritten v.writtenPattern.toList text.toList draft.1,
        draft.2 ++ [v.bind text])

def create (t : Template) (pairs : List (String × Value)) (name : String) : Document :=
  let (content, bindings) := pairs.foldl (fillGiven t) (t.content.toList, [])
  { name := name, templateName := t.name, content := String.ofList content, bindings := bindings }

end Document

end Stencil
