/-!
The shortest decimal that reads back as a given floating-point number.

A positive finite number is `m · 2 ^ q`.  The reals that round to it form an interval around it
(`Dyadic.low` to `Dyadic.high`, ends included when `m` is even).  For 1, 2, … 17 digits the two
neighbours of the number on the grid of decimals with that many digits are tried; the first grid
with a neighbour inside the interval decides, of two such neighbours the nearer.
-/

namespace Stencil.Decimal

/-- A positive binary number `mantissa · 2 ^ exponent`; `atPowerOfTwo` says that the next smaller
number is only half as far away as the next larger one. -/
structure Dyadic where
  mantissa : Nat
  exponent : Int
  atPowerOfTwo : Bool

/-- What the bits of a floating-point number say. -/
inductive Magnitude
  | zero
  | finite (value : Dyadic)
  | infinite
  | notANumber

def isNegative (x : Float) : Bool := x.toBits.toNat.testBit 63

/-- The magnitude that the bits encode. -/
def magnitude (x : Float) : Magnitude :=
  let bits := x.toBits.toNat
  let biased : Nat := bits / Nat.pow 2 52 % 2048
  let fraction : Nat := bits % Nat.pow 2 52
  if biased = 2047 then (if fraction = 0 then .infinite else .notANumber)
  else if biased = 0 then
    (if fraction = 0 then .zero else .finite ⟨fraction, -1074, false⟩)
  else .finite ⟨Nat.pow 2 52 + fraction, (biased : Int) - 1075, fraction = 0 && biased > 1⟩

namespace Dyadic

/-- The common denominator of the number and of the ends of its interval. -/
def denominator (d : Dyadic) : Nat := Nat.pow 2 (2 - d.exponent).toNat

/-- `quarters` quarter steps of the last place, over `denominator`. -/
def scaled (d : Dyadic) (quarters : Nat) : Nat := quarters * Nat.pow 2 (d.exponent - 2).toNat

/-- The number, over `denominator`. -/
def numerator (d : Dyadic) : Nat := d.scaled (4 * d.mantissa)

/-- The lower end of the interval that rounds to the number, over `denominator`. -/
def low (d : Dyadic) : Nat := d.scaled (4 * d.mantissa - if d.atPowerOfTwo then 1 else 2)

/-- The upper end of the interval, over `denominator`. -/
def high (d : Dyadic) : Nat := d.scaled (4 * d.mantissa + 2)

/-- `a · 10 ^ g` and `b` brought to one scale: the pair has the same order and ratio. -/
def onGrid (g : Int) (a b : Nat) : Nat × Nat :=
  (a * Nat.pow 10 g.toNat, b * Nat.pow 10 (-g).toNat)

/-- Does `c · 10 ^ g` round to the number? -/
def holds (d : Dyadic) (g : Int) (c : Nat) : Bool :=
  let (l, lowEnd) := onGrid g (c * d.denominator) d.low
  let (h, highEnd) := onGrid g (c * d.denominator) d.high
  if d.mantissa % 2 = 0 then lowEnd ≤ l && h ≤ highEnd else lowEnd < l && h < highEnd

def leadingExponent (d : Dyadic) : Int :=
  ((Nat.toDigits 10 (d.numerator * Nat.pow 10 340 / d.denominator)).length : Int) - 341

/-- The neighbour of the number on the grid of step `10 ^ g` that rounds to the number, the nearer
if both do, and the even one of two equally near. -/
def onStep? (d : Dyadic) (g : Int) : Option Nat :=
  let (unit, value) := onGrid g d.denominator d.numerator
  let c := value / unit
  match d.holds g c, d.holds g (c + 1) with
  | true, true =>
    let under := value % unit
    if 2 * under < unit || (2 * under = unit && c % 2 = 0) then some c else some (c + 1)
  | true, false => some c
  | false, true => some (c + 1)
  | false, false => none

/-- Looks for a hit with `places` digits or more, at most `tries` of them. -/
def shortestFrom (d : Dyadic) (leading : Int) (places : Nat) : Nat → Nat × Int
  | 0 => (0, 0)
  | tries + 1 =>
    let g := leading - places + 1
    match d.onStep? g with
    | some c => (c, g)
    | none => d.shortestFrom leading (places + 1) tries

/-- The shortest decimal `c · 10 ^ g` that rounds to the number, as `(c, g)`. -/
def shortest (d : Dyadic) : Nat × Int := d.shortestFrom d.leadingExponent 1 17

end Dyadic

end Stencil.Decimal
