import Stencil.Text.Quoted
import Stencil.Decimal.Printer

/-!
Free-form data: what callers and chat models hand in before it is checked.

A `Value` is a JSON value that keeps the order of an object's fields and tells whole numbers from
floating-point ones.  `Value.display` is the text that stands for a value in a document; inside
lists and objects it is the quoted form `Value.quoted`.
-/

namespace Stencil

/-- A JSON value; the fields of an object are in the order in which they were written. -/
inductive Value
  | null
  | bool (b : Bool)
  | int (i : Int)
  | float (x : Float)
  | text (s : String)
  | list (items : List Value)
  | object (fields : List (String × Value))

namespace Value

instance : Inhabited Value := ⟨.null⟩

/-- The field of that name, of a value that is an object. -/
def field? (name : String) : Value → Option Value
  | .object fields => fields.lookup name
  | _ => none

/-- Does the value count as given? Null, false, zero and everything empty do not. -/
def isGiven : Value → Bool
  | .null => false
  | .bool b => b
  | .int i => i ≠ 0
  | .float x => !(x == 0)
  | .text s => !s.isEmpty
  | .list items => !items.isEmpty
  | .object fields => !fields.isEmpty

def kind : Value → String
  | .null => "NoneType"
  | .bool _ => "bool"
  | .int _ => "int"
  | .float _ => "float"
  | .text _ => "str"
  | .list _ => "list"
  | .object _ => "dict"

mutual

/-- The value as it is shown inside a list or an object. -/
def quoted : Value → String
  | .null => "None"
  | .bool true => "True"
  | .bool false => "False"
  | .int i => toString i
  | .float x => Decimal.text x
  | .text s => Text.quoted s
  | .list items => "[" ++ quotedItems items ++ "]"
  | .object fields => "\x7b" ++ quotedFields fields ++ "\x7d"

/-- The items of a list, with commas between them. -/
def quotedItems : List Value → String
  | [] => ""
  | [v] => v.quoted
  | v :: rest => v.quoted ++ ", " ++ quotedItems rest

/-- The fields of an object, with commas between them. -/
def quotedFields : List (String × Value) → String
  | [] => ""
  | [(k, v)] => Text.quoted k ++ ": " ++ v.quoted
  | (k, v) :: rest => Text.quoted k ++ ": " ++ v.quoted ++ ", " ++ quotedFields rest

end

/-- The text that stands for the value. -/
def display : Value → String
  | .text s => s
  | v => v.quoted

/-- The text stored for a value: nothing for null. -/
def storedText : Value → String
  | .null => ""
  | v => v.display

end Value

end Stencil
