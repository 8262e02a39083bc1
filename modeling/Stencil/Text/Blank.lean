/-!
Blanks: the white space that names, values and placeholders are trimmed and joined by.

`isBlank` is the set of 29 characters that count; `strip` drops blanks at both ends, `collapse`
writes every run of blanks as one given character.  Main statements: nothing is left in front
exactly when the text is blank (`stripLeft_eq_nil_iff`), and what `collapse` gives holds no blank
but the joint (`mem_collapse`).
-/

namespace Stencil.Text

/-- The characters that count as white space: the ASCII ones with the four separators U+001C to
U+001F, U+0085 and the Unicode spaces and line separators. -/
def isBlank (c : Char) : Bool :=
  let n := c.toNat
  (9 ≤ n && n ≤ 13) || (28 ≤ n && n ≤ 32) || n == 0x85 || n == 0xA0 || n == 0x1680 ||
    (0x2000 ≤ n && n ≤ 0x200A) || n == 0x2028 || n == 0x2029 || n == 0x202F || n == 0x205F ||
    n == 0x3000

def stripLeft (s : List Char) : List Char := s.dropWhile isBlank

def stripRight (s : List Char) : List Char := (s.reverse.dropWhile isBlank).reverse

/-- Drops the blanks at both ends. -/
def strip (s : List Char) : List Char := stripRight (stripLeft s)

/-- Is there nothing but blanks? -/
def allBlank (s : List Char) : Bool := s.all isBlank

/-- Writes each run of blanks as one `joint`; `inRun` says whether the run has begun before. -/
def collapseFrom (joint : Char) : Bool → List Char → List Char
  | _, [] => []
  | inRun, c :: rest =>
    if isBlank c then
      if inRun then collapseFrom joint true rest else joint :: collapseFrom joint true rest
    else c :: collapseFrom joint false rest

/-- Writes each run of blanks as one `joint`. -/
def collapse (joint : Char) (s : List Char) : List Char := collapseFrom joint false s

/-! ## Lemmas -/

theorem stripLeft_eq_nil_iff (s : List Char) : stripLeft s = [] ↔ allBlank s = true := by
  induction s with
  | nil => simp [stripLeft, allBlank]
  | cons c rest ih =>
    simp only [stripLeft, allBlank, List.dropWhile_cons, List.all_cons] at ih ⊢
    by_cases h : isBlank c <;> simp [h, ih]

theorem allBlank_stripLeft (s : List Char) : allBlank (stripLeft s) = allBlank s := by
  induction s with
  | nil => rfl
  | cons c rest ih =>
    simp only [stripLeft, allBlank, List.dropWhile_cons, List.all_cons] at ih ⊢
    by_cases h : isBlank c <;> simp [h, ih]

theorem strip_eq_nil_iff (s : List Char) : strip s = [] ↔ allBlank s = true := by
  rw [strip, stripRight, List.reverse_eq_nil_iff, ← stripLeft, stripLeft_eq_nil_iff, allBlank,
    List.all_reverse, ← allBlank, allBlank_stripLeft]

theorem mem_collapseFrom {joint c : Char} {inRun : Bool} {s : List Char}
    (h : c ∈ collapseFrom joint inRun s) : c = joint ∨ (c ∈ s ∧ isBlank c = false) := by
  fun_induction collapseFrom joint inRun s with
  | case1 => simp at h
  | case2 rest c' hc ih => exact (ih h).imp id fun ⟨m, b⟩ => ⟨List.mem_cons_of_mem _ m, b⟩
  | case3 inRun rest c' hc hr ih =>
    rcases List.mem_cons.1 h with h | h
    · exact Or.inl h
    · exact (ih h).imp id fun ⟨m, b⟩ => ⟨List.mem_cons_of_mem _ m, b⟩
  | case4 inRun rest c' hc ih =>
    rcases List.mem_cons.1 h with h | h
    · subst h
      exact Or.inr ⟨List.mem_cons_self, by simpa using hc⟩
    · exact (ih h).imp id fun ⟨m, b⟩ => ⟨List.mem_cons_of_mem _ m, b⟩

/-- What `collapse` writes is the joint or a character of the text that is no blank. -/
theorem mem_collapse {joint c : Char} {s : List Char} (h : c ∈ collapse joint s) :
    c = joint ∨ (c ∈ s ∧ isBlank c = false) :=
  mem_collapseFrom h

end Stencil.Text
