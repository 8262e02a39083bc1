import Stencil.Wire.Scalar
import Stencil.Table

/-!
Checks of objects with named fields.

A field has a name on the wire and a plain name with underscores; both are accepted, the name on the
wire first, and fields without a meaning are passed over.
-/

namespace Stencil.Wire

variable {α : Type}

abbrev Fields := Table Value

/-- A field's two names. -/
structure Name where
  wire : String
  plain : String

def Name.same (s : String) : Name := ⟨s, s⟩

/-- The value of a field and the name under which it was found. -/
def find? (fields : Table α) (name : Name) : Option (String × α) :=
  match fields.lookup name.wire with
  | some v => some (name.wire, v)
  | none => (fields.lookup name.plain).map (name.plain, ·)

/-- A field that has to be there. -/
def required (check : Value → Checked α) (name : Name) (fields : Fields) : Checked α :=
  match find? fields name with
  | some (found, v) => (check v).under found
  | none => (Checked.fail .missing).under name.wire

/-- A field that has a value when it is not there. -/
def optional (check : Value → Checked α) (absent : α) (name : Name) (fields : Fields) : Checked α :=
  match find? fields name with
  | some (found, v) => (check v).under found
  | none => .valid absent

def record (check : Fields → Checked α) : Value → Checked α
  | .object fields => check fields
  | _ => .fail .modelType

def list (check : Value → Checked α) : Value → Checked (List α)
  | .list items => Checked.members check 0 items
  | _ => .fail .listType

/-- A list of fixed contents. -/
def tuple (check : Value → Checked α) : Value → Checked (List α)
  | .list items => Checked.members check 0 items
  | _ => .fail .tupleType

/-- The fields of an object whose names are free, each of them checked. -/
def tableFields (check : Value → Checked α) : Fields → Checked (Table α)
  | [] => .valid []
  | (k, v) :: rest =>
    (fun a more => (k, a) :: more) <$> (check v).under k <*> tableFields check rest

/-- An object whose field names are free. -/
def table (check : Value → Checked α) : Value → Checked (Table α)
  | .object fields => tableFields check fields
  | _ => .fail .dictType

/-- Null stands for an empty list. -/
def nullAsEmpty (check : Value → Checked (List α)) : Value → Checked (List α)
  | .null => .valid []
  | v => check v

/-- The object with the given fields, named as on the wire. -/
def textTable (entries : Table String) : Value :=
  .object (entries.map fun (k, v) => (k, .text v))

def textList (items : List String) : Value := .list (items.map .text)

/-- A text or null. -/
def textOrNull : Option String → Value
  | some s => .text s
  | none => .null

end Stencil.Wire
