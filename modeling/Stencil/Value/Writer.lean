import Stencil.Value.Basic

/-!
JSON text of values, in ASCII: a comma and a blank between items, a colon and a blank after names,
and every character outside printable ASCII as its UTF-16 units.
-/

namespace Stencil.Value

def unitEscape (n : Nat) : List Char := '\\' :: 'u' :: Text.hexDigits 4 n

def stringChar (c : Char) : List Char :=
  if c == '"' then ['\\', '"']
  else if c == '\\' then ['\\', '\\']
  else if c == '\n' then ['\\', 'n']
  else if c == '\r' then ['\\', 'r']
  else if c == '\t' then ['\\', 't']
  else if c.toNat = 12 then ['\\', 'f']
  else if c.toNat = 8 then ['\\', 'b']
  else if 32 ≤ c.toNat && c.toNat < 127 then [c]
  else if c.toNat < 0x10000 then unitEscape c.toNat
  else
    let n := c.toNat - 0x10000
    unitEscape (0xD800 + n / 0x400) ++ unitEscape (0xDC00 + n % 0x400)

def stringJson (s : String) : String :=
  String.ofList ('"' :: s.toList.flatMap stringChar ++ ['"'])

/-- A JSON number, or the words for what JSON has no number for. -/
def floatJson (x : Float) : String :=
  match Decimal.magnitude x with
  | .notANumber => "NaN"
  | .infinite => if Decimal.isNegative x then "-Infinity" else "Infinity"
  | _ => Decimal.text x

mutual

def json : Value → String
  | .null => "null"
  | .bool true => "true"
  | .bool false => "false"
  | .int i => toString i
  | .float x => floatJson x
  | .text s => stringJson s
  | .list items => "[" ++ jsonItems items ++ "]"
  | .object fields => "\x7b" ++ jsonFields fields ++ "\x7d"

/-- The items of a list, with commas between them. -/
def jsonItems : List Value → String
  | [] => ""
  | [v] => v.json
  | v :: rest => v.json ++ ", " ++ jsonItems rest

/-- The fields of an object, with commas between them. -/
def jsonFields : List (String × Value) → String
  | [] => ""
  | [(k, v)] => stringJson k ++ ": " ++ v.json
  | (k, v) :: rest => stringJson k ++ ": " ++ v.json ++ ", " ++ jsonFields rest

end

end Stencil.Value
