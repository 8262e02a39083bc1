import Stencil.Profile.Basic
import Stencil.Profile.Similarity
import Stencil.Text.Literal

/-!
Merging the values that a field had over time into one.

The snapshots are walked in order.  The first value of a field that is not blank is tracked; a later
one that is a duplicate of the tracked value is counted, and the longer of the two is tracked from
then on.
-/

namespace Stencil.Profile

open Text

/-- How alike two values have to be to count as one: a number between zero and one. -/
structure Threshold where
  value : Float
  in_range : (0 ≤ value && value ≤ 1) = true

namespace Threshold

/-- The threshold of that value, if it is one. -/
def ofFloat? (x : Float) : Option Threshold :=
  if h : (0 ≤ x && x ≤ 1) = true then some ⟨x, h⟩ else none

/-- The threshold that is used without another. -/
def standard : Float := 0.8

/-- What is said about a number that is no threshold. -/
def refusal : String := "threshold must be between 0 and 1"

end Threshold

/-- Are two normalized values different spellings of one value? One may be a part of the other, or
they may be alike enough. -/
def isDuplicate (t : Threshold) (existing candidate : List Char) : Bool :=
  existing ≠ candidate &&
    (occursIn candidate existing || occursIn existing candidate ||
      t.value ≤ (likeness existing candidate).score)

/-- What merging found: the merged fields, how often a duplicate was seen and the names of the
fields, in the order of their first duplicates. -/
structure MergeResult where
  merged : Table String := []
  duplicates : Nat := 0
  affected : List String := []
  deriving DecidableEq

def MergeResult.toValue (r : MergeResult) : Value :=
  .object [("mergedFields", Wire.textTable r.merged), ("duplicateCount", .int r.duplicates),
    ("fieldsAffected", Wire.textList r.affected)]

/-- The tracked values and what was found so far. -/
structure MergeWalk where
  tracked : Table String := []
  result : MergeResult := {}
  deriving DecidableEq

namespace MergeWalk

/-- The longer value, the existing one if they are of one length. -/
def longer (existing value : String) : String :=
  if existing.length < value.length then value else existing

def collide (w : MergeWalk) (field merged : String) : MergeWalk :=
  { tracked := w.tracked.set field merged
    result :=
      { merged := w.result.merged.set field merged
        duplicates := w.result.duplicates + 1
        affected :=
          if w.result.affected.contains field then w.result.affected
          else w.result.affected ++ [field] } }

/-- Walks over one value of a field. -/
def step (t : Threshold) (w : MergeWalk) (entry : String × String) : MergeWalk :=
  let (field, value) := entry
  let normalized := normalizeValue value.toList
  if normalized.isEmpty then w
  else
    match w.tracked.lookup field with
    | none => { w with tracked := w.tracked.set field value }
    | some existing =>
      if isDuplicate t (normalizeValue existing.toList) normalized then
        w.collide field (longer existing value)
      else w

end MergeWalk

def merge (t : Threshold) (snapshots : List (Table String)) : MergeResult :=
  (snapshots.flatten.foldl (MergeWalk.step t) {}).result

end Stencil.Profile
