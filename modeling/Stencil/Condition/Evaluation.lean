import Stencil.Condition.Basic
import Stencil.Text.Literal

/-!
When a condition holds.

Conditions are tested against the values of variables; a variable without a value fails every
comparison.  Values are texts, and only the two comparisons of size read them as numbers.
-/

namespace Stencil

/-- A comparison of a variable's value with a text. -/
inductive Comparison
  | equals
  | notEquals
  | contains
  | startsWith
  | endsWith
  | greaterThan
  | lessThan
  | isEmpty
  | isNotEmpty
  deriving DecidableEq

namespace Comparison

def ofName? : String → Option Comparison
  | "equals" => some .equals
  | "notEquals" => some .notEquals
  | "contains" => some .contains
  | "startsWith" => some .startsWith
  | "endsWith" => some .endsWith
  | "greaterThan" => some .greaterThan
  | "lessThan" => some .lessThan
  | "isEmpty" => some .isEmpty
  | "isNotEmpty" => some .isNotEmpty
  | _ => none

/-- Compares the numbers that two texts write; without a number on both sides nothing holds. -/
def numbers (test : Float → Float → Bool) (actual expected : String) : Bool :=
  match Decimal.read? actual.toList, Decimal.read? expected.toList with
  | some x, some y => test x y
  | _, _ => false

/-- Does the comparison of the value `actual` with `expected` hold? -/
def test : Comparison → (actual expected : String) → Bool
  | .equals, actual, expected => actual == expected
  | .notEquals, actual, expected => actual != expected
  | .contains, actual, expected => Text.occursIn expected.toList actual.toList
  | .startsWith, actual, expected => expected.toList.isPrefixOf actual.toList
  | .endsWith, actual, expected => expected.toList.isSuffixOf actual.toList
  | .greaterThan, actual, expected => numbers (fun x y => y < x) actual expected
  | .lessThan, actual, expected => numbers (fun x y => x < y) actual expected
  | .isEmpty, actual, _ => Text.allBlank actual.toList
  | .isNotEmpty, actual, _ => !Text.allBlank actual.toList

end Comparison

namespace Condition

/-- The comparison of a variable's value, if it has one and the operator is known. -/
def compare (values : Table String) (name operator expected : String) : Bool :=
  match values.lookup name, Comparison.ofName? operator with
  | some actual, some c => c.test actual expected
  | _, _ => false

mutual

/-- Does the condition hold under the values? Of two values for a name the first counts. -/
def holds (values : Table String) : Condition → Bool
  | .absent => false
  | .simple name operator expected => compare values name operator expected
  | .compound operator parts =>
    !parts.isEmpty &&
      if operator = some "AND" then allHold values parts
      else if operator = some "OR" then someHolds values parts
      else false

def allHold (values : Table String) : List Condition → Bool
  | [] => true
  | c :: rest => holds values c && allHold values rest

def someHolds (values : Table String) : List Condition → Bool
  | [] => false
  | c :: rest => holds values c || someHolds values rest

end

/-! ## Lemmas -/

theorem allHold_eq_all (values : Table String) (cs : List Condition) :
    allHold values cs = cs.all (holds values) := by
  induction cs with
  | nil => simp [allHold]
  | cons c rest ih => simp [allHold, ih]

theorem someHolds_eq_any (values : Table String) (cs : List Condition) :
    someHolds values cs = cs.any (holds values) := by
  induction cs with
  | nil => simp [someHolds]
  | cons c rest ih => simp [someHolds, ih]

end Condition

end Stencil
