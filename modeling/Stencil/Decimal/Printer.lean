import Stencil.Decimal.Shortest

/-!
Decimal texts of floating-point numbers.

`text` is the shortest text that reads back, positional from `10 ^ -4` up to below `10 ^ 16` and
with an exponent of at least two digits elsewhere.  `fixed` has a given number of places, a half
going to the even neighbour.
-/

namespace Stencil.Decimal

/-- Drops zeros at the end of a reversed list of digits, but not the last digit. -/
def dropZeros : List Char → List Char
  | '0' :: d :: rest => dropZeros (d :: rest)
  | ds => ds

/-- The digits of `n` without zeros at the end. -/
def significant (n : Nat) : List Char := (dropZeros (Nat.toDigits 10 n).reverse).reverse

/-- An exponent: its sign and at least two digits. -/
def exponentText (e : Int) : List Char :=
  let digits := Nat.toDigits 10 e.natAbs
  (if e < 0 then '-' else '+') :: (if digits.length < 2 then '0' :: digits else digits)

/-- The digits `ds`, the first of them standing at `10 ^ e`. -/
def layout (ds : List Char) (e : Int) : List Char :=
  if -4 ≤ e && e < 16 then
    if e < 0 then
      '0' :: '.' :: List.replicate (-e - 1).toNat '0' ++ ds
    else
      let whole := e.toNat + 1
      if ds.length ≤ whole then ds ++ List.replicate (whole - ds.length) '0' ++ ['.', '0']
      else ds.take whole ++ '.' :: ds.drop whole
  else
    match ds with
    | [] => []
    | d :: [] => d :: 'e' :: exponentText e
    | d :: rest => d :: '.' :: rest ++ 'e' :: exponentText e

/-- The shortest text that reads back as the number. -/
def text (x : Float) : String :=
  let sign := if isNegative x then ['-'] else []
  match magnitude x with
  | .notANumber => "nan"
  | .infinite => String.ofList (sign ++ ['i', 'n', 'f'])
  | .zero => String.ofList (sign ++ ['0', '.', '0'])
  | .finite d =>
    let (c, g) := d.shortest
    let e := ((Nat.toDigits 10 c).length : Int) - 1 + g
    String.ofList (sign ++ layout (significant c) e)

/-- `num / den` to the nearest whole number, a half to the even one. -/
def roundDiv (num den : Nat) : Nat :=
  let q := num / den
  let r := num % den
  if 2 * r < den || (2 * r = den && q % 2 = 0) then q else q + 1

/-- The number with `places` digits behind the point. -/
def fixed (places : Nat) (x : Float) : String :=
  let sign := if isNegative x then ['-'] else []
  let hundredths := match magnitude x with
    | .finite d => roundDiv (d.numerator * Nat.pow 10 places) d.denominator
    | _ => 0
  let digits := Nat.toDigits 10 hundredths
  let padded := List.replicate (places + 1 - digits.length) '0' ++ digits
  let whole := padded.length - places
  String.ofList (sign ++ padded.take whole ++ '.' :: padded.drop whole)

end Stencil.Decimal
