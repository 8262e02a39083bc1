import Stencil.Text.Blank
import Stencil.Text.Case

/-!
How alike two values are.

`editDistance` is computed row by row: a row holds the distances of one text to every suffix of the
other.  The score of two values is one less the distance relative to the length of the longer value,
after both have been normalized.
-/

namespace Stencil.Profile

open Text

/-- A value in lower case, without blanks at its ends and with single spaces for runs of blanks. -/
def normalizeValue (s : List Char) : List Char := collapse ' ' (strip (lower s))

/-- A row of distances: to the whole text, and to its shorter suffixes, longest first. -/
abbrev Row := Nat × List Nat

/-- The distances of the empty text to the suffixes of a text. -/
def firstRow : List Char → Row
  | [] => (0, [])
  | _ :: rest =>
    let (d, ds) := firstRow rest
    (d + 1, d :: ds)

/-- The distances of a text that begins with `c`, from those of the text without it. -/
def nextRow (c : Char) : List Char → Row → Row
  | y :: rest, (d, below :: more) =>
    let (d', ds) := nextRow c rest (below, more)
    (if c = y then below else 1 + min below (min d d'), d' :: ds)
  | _, (d, _) => (d + 1, [])

/-- The distances of a text to the suffixes of `b`. -/
def distanceRow (b : List Char) : List Char → Row
  | [] => firstRow b
  | c :: rest => nextRow c b (distanceRow b rest)

/-- The least number of characters to insert, delete or replace to turn `a` into `b`. -/
def editDistance (a b : List Char) : Nat := (distanceRow b a).1

/-- How alike two texts are: the number of edits between them and the length of the longer one. -/
structure Likeness where
  edits : Nat
  longest : Nat
  deriving DecidableEq

namespace Likeness

/-- How alike two texts are. -/
def of (a b : List Char) : Likeness := ⟨editDistance a b, max a.length b.length⟩

/-- One for equal texts, and less the more edits there are, in the numbers that `ofNat` gives. -/
def scoreIn {α : Type} [Sub α] [Div α] (ofNat : Nat → α) (l : Likeness) : α :=
  if l.edits = 0 then ofNat 1 else ofNat 1 - ofNat l.edits / ofNat l.longest

def score (l : Likeness) : Float := l.scoreIn Float.ofNat

end Likeness

def likeness (a b : List Char) : Likeness := .of (normalizeValue a) (normalizeValue b)

/-! ## Lemmas -/

theorem firstRow_fst (b : List Char) : (firstRow b).1 = b.length := by
  induction b with
  | nil => rfl
  | cons c rest ih => simp [firstRow, ih]

/-- The empty text is as far from a text as that is long. -/
theorem editDistance_nil_left (b : List Char) : editDistance [] b = b.length := firstRow_fst b

end Stencil.Profile
