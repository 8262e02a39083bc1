import Stencil.Template.Basic
import Stencil.Placeholder.Catalog
import Stencil.Collaborator
import Stencil.Text.Literal

/-!
Finding the variables of a text.

Placeholders come first, in the order of the catalog, then what a detector reports.  Of several
variables with the same key the first one counts (`claim`), and one without a key does not count at
all.  A detector that fails or answers anything but a list adds nothing, and of its list only the
entries that describe variables count.
-/

namespace Stencil

open Placeholder

namespace Variable

/-- What two variables share if they are the same. -/
def key (v : Variable) : List Char := Placeholder.key v.name.toList

def ofCandidate (c : Candidate) : Variable :=
  { name := String.ofList c.name, rawPattern := String.ofList c.rawPattern }

/-- The variable that a detector's entry describes, whatever source the entry names. -/
def ofDetected? : Value → Option Variable
  | .object fields =>
    let named := Table.set "source" (.text VariableSource.semanticDetected.name) fields
    (check (.object named)).toOption
  | _ => none

/-- Adds a variable unless it has no key or one with its key is there. -/
def claim (known : List Variable) (v : Variable) : List Variable :=
  if v.key.isEmpty || known.any (fun k => k.key = v.key) then known else known ++ [v]

/-- The first variable of each key, in order. -/
def firstClaims (vs : List Variable) : List Variable := vs.foldl claim []

end Variable

/-- The variables of a text and the texts that were sent to the detector. -/
structure Extraction where
  vars : List Variable := []
  sent : List String := []

structure Extractor where
  catalog : Catalog := .standard
  detector : Option Detector := none
  /-- How much of a text the detector is sent. -/
  maxChars : Int := 10000

namespace Extractor

/-- The variables of all placeholders, repeated ones included. -/
def candidates (e : Extractor) (s : List Char) : List Variable :=
  (e.catalog.findAll (normalize s)).map .ofCandidate

/-- The variables of the placeholders of a text. -/
def matchPatterns (e : Extractor) (s : List Char) : List Variable :=
  if Text.allBlank s then [] else Variable.firstClaims (e.candidates s)

def detected : Except String Value → List Variable
  | .ok (.list items) => items.filterMap Variable.ofDetected?
  | _ => []

def extract (e : Extractor) (s : List Char) : Extraction :=
  if Text.allBlank s then {}
  else
    match e.detector with
    | none => { vars := Variable.firstClaims (e.candidates s) }
    | some detect =>
      let sent := String.ofList (Text.leading e.maxChars s)
      { vars := Variable.firstClaims (e.candidates s ++ detected (detect sent))
        sent := [sent] }

/-- The template of a text: its content is the text with the placeholders joined. -/
def prepare (e : Extractor) (name : String) (s : List Char) : Template × Extraction :=
  let content := normalize s
  let found := e.extract content
  ({ name := name, content := String.ofList content, vars := found.vars }, found)

/-- What a value that should be a text holds; anything else holds nothing. -/
def textOf : Value → List Char
  | .text s => s.toList
  | _ => []

/-- The template of a value under a name. A value that is no text gives an empty template, and a
name that is no text is refused. -/
def prepareValue (e : Extractor) (name v : Value) : Checked (Template × Extraction) :=
  (fun name => e.prepare name (textOf v)) <$> (Wire.text name).under "name"

end Extractor

end Stencil
