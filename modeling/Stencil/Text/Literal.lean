/-!
Looking for one text inside another, letter by letter: occurrence, splitting at a separator and
replacing.  Occurrences are taken from left to right and do not overlap.
-/

namespace Stencil.Text

/-- Does `part` occur in the text? -/
def occursIn (part : List Char) : List Char → Bool
  | [] => part.isEmpty
  | c :: rest => part.isPrefixOf (c :: rest) || occursIn part rest

/-- Replaces the occurrences of `part`, of which `skip` more characters belong to the last one. -/
def replaceFrom (part new : List Char) : Nat → List Char → List Char
  | _, [] => []
  | skip + 1, _ :: rest => replaceFrom part new skip rest
  | 0, c :: rest =>
    if part.isPrefixOf (c :: rest) then new ++ replaceFrom part new (part.length - 1) rest
    else c :: replaceFrom part new 0 rest

/-- Replaces every occurrence of `part`, a text that is not empty, by `new`. -/
def replaceAll (part new s : List Char) : List Char := replaceFrom part new 0 s

/-- The texts in front of and behind the first `separator`, if there is one. -/
def splitFirst? (separator : Char) : List Char → Option (List Char × List Char)
  | [] => none
  | c :: rest =>
    if c == separator then some ([], rest)
    else (splitFirst? separator rest).map fun (a, b) => (c :: a, b)

/-- The first `n` members; a negative `n` drops that many at the end. -/
def leading {α : Type} (n : Int) (s : List α) : List α :=
  if 0 ≤ n then s.take n.toNat else s.take (s.length - (-n).toNat)

/-! ## Lemmas -/

theorem splitFirst?_append {separator : Char} {a : List Char} (h : separator ∉ a)
    (b : List Char) : splitFirst? separator (a ++ separator :: b) = some (a, b) := by
  induction a with
  | nil => simp [splitFirst?]
  | cons c a ih =>
    rw [List.mem_cons, not_or] at h
    have hc : (c == separator) = false := by simpa using fun e : c = separator => h.1 e.symm
    simp [splitFirst?, hc, ih h.2]

end Stencil.Text
