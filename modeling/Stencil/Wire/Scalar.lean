import Stencil.Wire.Checked
import Stencil.Decimal.Reader
import Stencil.Text.Literal

/-!
Checks of single values.  Texts have to be texts; numbers and truth values are also taken from texts
that write them.
-/

namespace Stencil.Wire

open Stencil.Text

def text : Value → Checked String
  | .text s => .valid s
  | _ => .fail .stringType

/-- A text or null. -/
def text? : Value → Checked (Option String)
  | .null => .valid none
  | v => some <$> text v

/-- A text that is not empty. -/
def nonemptyText : Value → Checked String
  | .text s => if s.isEmpty then .fail .stringTooShort else .valid s
  | _ => .fail .stringType

/-- The words for true and false, in lower case. -/
def truthWords : List (String × Bool) :=
  [("1", true), ("on", true), ("t", true), ("true", true), ("y", true), ("yes", true),
   ("0", false), ("off", false), ("f", false), ("false", false), ("n", false), ("no", false)]

/-- The whole number that a floating-point number is, if it is one. -/
def wholeNumber? (x : Float) : Option Int :=
  match Decimal.magnitude x with
  | .zero => some 0
  | .finite d =>
    if d.numerator % d.denominator = 0 then
      let n : Int := d.numerator / d.denominator
      some (if Decimal.isNegative x then -n else n)
    else none
  | _ => none

/-- A truth value: itself, zero or one, or one of the words for it in any case. -/
def truth : Value → Checked Bool
  | .bool b => .valid b
  | .int i => if i = 0 then .valid false else if i = 1 then .valid true else .fail .boolParsing
  | .float x =>
    match wholeNumber? x with
    | some i => if i = 0 then .valid false else if i = 1 then .valid true else .fail .boolParsing
    | none => .fail .boolType
  | .text s =>
    match truthWords.lookup (String.ofList (s.toList.map Char.toLower)) with
    | some b => .valid b
    | none => .fail .boolParsing
  | _ => .fail .boolType

/-- White space as numbers in texts have it around them. -/
def isSpace (c : Char) : Bool := isBlank c && !(28 ≤ c.toNat && c.toNat < 32)

/-- Drops white space at both ends. -/
def trimSpace (s : List Char) : List Char :=
  ((s.dropWhile isSpace).reverse.dropWhile isSpace).reverse

/-- Drops underscores, if there are any and each of them stands alone inside the text. -/
def plainDigits (s : List Char) : List Char :=
  if s.head? = some '_' || s.getLast? = some '_' || occursIn ['_', '_'] s then s
  else s.filter (· ≠ '_')

/-- The whole number that a text writes, with a fraction of zeros or without one. -/
def readWhole? (s : String) : Option Int :=
  let (negative, unsigned) := Decimal.takeSign (plainDigits (trimSpace s.toList))
  let whole := unsigned.takeWhile Char.isDigit
  let zeros := match unsigned.drop whole.length with
    | '.' :: rest => rest.all (· == '0')
    | rest => rest.isEmpty
  if whole.isEmpty || !zeros then none
  else
    let n : Int := Decimal.digitsValue whole
    some (if negative then -n else n)

/-- The bound of the whole numbers that floating-point numbers are taken for. -/
def wholeLimit : Nat := Nat.pow 2 63

/-- A whole number: itself, a truth value, a floating-point number without a fraction that is not
too large, or a text that writes one. -/
def whole : Value → Checked Int
  | .int i => .valid i
  | .bool b => .valid (if b then 1 else 0)
  | .float x =>
    match Decimal.magnitude x, wholeNumber? x with
    | .infinite, _ | .notANumber, _ => .fail .finiteNumber
    | _, some i => if i.natAbs < wholeLimit then .valid i else .fail .intParsingSize
    | _, none => .fail .intFromFloat
  | .text s =>
    match readWhole? s with
    | some i => .valid i
    | none => .fail .intParsing
  | _ => .fail .intType

/-- A whole number as a floating-point number. -/
def floatOfInt (i : Int) : Float :=
  let x := Decimal.nearest i.natAbs 0
  if i < 0 then -x else x

/-- The floating-point number that a text writes. -/
def readFloat? (s : String) : Option Float :=
  let (negative, unsigned) := Decimal.takeSign (plainDigits (trimSpace s.toList))
  (Decimal.readUnsigned? unsigned).map fun x => if negative then -x else x

/-- A floating-point number: itself, a whole number, a truth value, or a text that writes one. -/
def float : Value → Checked Float
  | .float x => .valid x
  | .int i => .valid (floatOfInt i)
  | .bool b => .valid (if b then 1 else 0)
  | .text s =>
    match readFloat? s with
    | some x => .valid x
    | none => .fail .floatParsing
  | _ => .fail .floatType

def require {α : Type} (ok : α → Bool) (kind : IssueKind) : Checked α → Checked α
  | .valid a => if ok a then .valid a else .fail kind
  | .invalid issues => .invalid issues

end Stencil.Wire
