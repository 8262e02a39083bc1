/-! Writing a text as a pattern that matches exactly that text. -/

namespace Stencil.Pattern

/-- The characters that a pattern has to escape to stand for themselves. -/
def specials : List Char :=
  ['(', ')', '[', ']', '\x7b', '\x7d', '?', '*', '+', '-', '|', '^', '$', '\\', '.', '&', '~', '#',
   ' ', '\t', '\n', '\r', '\x0b', '\x0c']

/-- The pattern that matches exactly the text: a backslash in front of each special character. -/
def escape (s : List Char) : List Char :=
  s.flatMap fun c => if specials.contains c then ['\\', c] else [c]

/-! ## Lemmas -/

/-- Only the empty text is written as the empty pattern. -/
theorem escape_eq_nil_iff {s : List Char} : escape s = [] ↔ s = [] := by
  cases s with
  | nil => simp [escape]
  | cons c rest =>
    by_cases h : c ∈ specials <;> simp [escape, h]

end Stencil.Pattern
