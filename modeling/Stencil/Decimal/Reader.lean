import Stencil.Text.Blank
import Stencil.Text.Letter

/-!
Reading numbers.

A number is an optional sign, digits with an optional fraction and an optional exponent, or one of
the words for infinity and "not a number" in any case.  Single underscores may stand between digits,
and the decimal digits of every script count.  `read?` accepts blanks around it.
-/

namespace Stencil.Decimal

open Stencil.Text

/-- Writes the decimal digits of every script as ASCII digits. -/
def asciiDigits (s : List Char) : List Char :=
  s.map fun c => match digitValue? c with
    | some d => Char.ofNat (48 + d)
    | none => c

/-- Drops underscores that stand between two digits; `afterDigit` tells of the character before. -/
def dropUnderscores? (afterDigit : Bool) : List Char → Option (List Char)
  | [] => some []
  | '_' :: d :: rest =>
    if afterDigit && d.isDigit then (dropUnderscores? true rest).map (d :: ·) else none
  | ['_'] => none
  | c :: rest => (dropUnderscores? c.isDigit rest).map (c :: ·)

def digitsValue (ds : List Char) : Nat := ds.foldl (fun n d => n * 10 + (d.toNat - 48)) 0

/-- The floating-point number nearest to `c · 10 ^ e`. -/
def nearest (c : Nat) (e : Int) : Float :=
  let size := ((Nat.toDigits 10 c).length : Int) + e
  if c = 0 || size < -400 then 0
  else if 400 < size then Float.ofBits 0x7FF0000000000000
  else if e < 0 then Float.ofScientific c true (-e).toNat
  else Float.ofScientific c false e.toNat

/-- Splits off the sign: is it a minus, and what follows. -/
def takeSign : List Char → Bool × List Char
  | '-' :: rest => (true, rest)
  | '+' :: rest => (false, rest)
  | s => (false, s)

/-- Is the character passed over around a whole number? -/
def isBlankAround (c : Char) : Bool := isBlank c && !(28 ≤ c.toNat && c.toNat ≤ 31)

/-- The largest number of digits that a whole number may have. -/
def digitLimit : Nat := 4300

/-- A whole number that is not negative: decimal digits of any script, with a sign and blanks
around. -/
def readNat? (s : List Char) : Option Nat := do
  let bare := ((s.dropWhile isBlankAround).reverse.dropWhile isBlankAround).reverse
  let (negative, rest) := takeSign (asciiDigits bare)
  let ds ← dropUnderscores? false rest
  if ds.isEmpty || !ds.all Char.isDigit || digitLimit < ds.length then none
  else if negative && digitsValue ds != 0 then none
  else return digitsValue ds

/-- An exponent: nothing, or the letter, a sign and at least one digit up to the end. -/
def readExponent? : List Char → Option Int
  | [] => some 0
  | c :: rest =>
    if c == 'e' || c == 'E' then
      let (negative, ds) := takeSign rest
      if ds.isEmpty || !ds.all Char.isDigit then none
      else
        let n : Int := digitsValue ds
        some (if negative then -n else n)
    else none

/-- A number without sign and underscores, written in ASCII digits. -/
def readUnsigned? (s : List Char) : Option Float :=
  let word := s.map Char.toLower
  if word = "inf".toList || word = "infinity".toList then some (Float.ofBits 0x7FF0000000000000)
  else if word = "nan".toList then some (Float.ofBits 0x7FF8000000000000)
  else
    let whole := s.takeWhile Char.isDigit
    let (fraction, rest) := match s.dropWhile Char.isDigit with
      | '.' :: r => (r.takeWhile Char.isDigit, r.dropWhile Char.isDigit)
      | r => ([], r)
    if whole.isEmpty && fraction.isEmpty then none
    else (readExponent? rest).map fun e =>
      nearest (digitsValue (whole ++ fraction)) (e - fraction.length)

/-- The number that a text writes, with blanks around it or not. -/
def read? (s : List Char) : Option Float := do
  let plain ← dropUnderscores? false (asciiDigits (strip s))
  let (negative, rest) := takeSign plain
  let x ← readUnsigned? rest
  return if negative then -x else x

end Stencil.Decimal
