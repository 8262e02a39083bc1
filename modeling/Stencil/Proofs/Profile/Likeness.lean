import Mathlib.Algebra.Order.Field.Basic
import Mathlib.Algebra.Order.Field.Rat
import Mathlib.Order.Interval.Set.Defs
import Mathlib.Tactic.Linarith
import Stencil.Profile.Merging
import Stencil.Proofs.Profile.Distance

/-!
# How alike two values are

The score of two values is one less the distance relative to the longer one.  In exact numbers
(`Likeness.ratio`) it is one for equal texts only and zero where one of them is empty
(`ratio_eq_one_iff`, `ratio_nil_left`).  It does not depend on the order of the values, and neither
does their being duplicates, whatever the threshold (`similarity_laws`).
-/

namespace Stencil.Profile

namespace Likeness

def ratio (l : Likeness) : ℚ := l.scoreIn Nat.cast

theorem of_comm (a b : List Char) : of a b = of b a := by
  rw [of, of, editDistance_comm, Nat.max_comm]

variable {a b : List Char}

theorem ratio_of_self (a : List Char) : (of a a).ratio = 1 := by
  have hzero : (of a a).edits = 0 := editDistance_eq_zero_iff.2 rfl
  rw [ratio, scoreIn, if_pos hzero, Nat.cast_one]

/-- Texts that are not equal score one less the distance relative to the longer one. -/
theorem ratio_of_ne (h : a ≠ b) :
    (of a b).ratio = 1 - (editDistance a b : ℚ) / (max a.length b.length : ℕ) := by
  have hedits : (of a b).edits ≠ 0 := mt editDistance_eq_zero_iff.1 h
  rw [ratio, scoreIn, if_neg hedits, Nat.cast_one]
  rfl

/-- Texts that are not equal have a part of the longer one, and not nothing, in edits. -/
theorem edits_ratio_of_ne (h : a ≠ b) :
    0 < (editDistance a b : ℚ) / (max a.length b.length : ℕ) ∧
      (editDistance a b : ℚ) / (max a.length b.length : ℕ) ≤ 1 := by
  have hpos : 0 < editDistance a b := Nat.pos_of_ne_zero (mt editDistance_eq_zero_iff.1 h)
  have hle := editDistance_le_max_length a b
  have hlongest : (0 : ℚ) < (max a.length b.length : ℕ) := Nat.cast_pos.2 (hpos.trans_le hle)
  exact ⟨div_pos (Nat.cast_pos.2 hpos) hlongest, (div_le_one hlongest).2 (Nat.cast_le.2 hle)⟩

theorem ratio_mem_Icc (a b : List Char) : (of a b).ratio ∈ Set.Icc 0 1 := by
  by_cases heq : a = b
  · subst heq
    rw [ratio_of_self]
    exact ⟨zero_le_one, le_rfl⟩
  · obtain ⟨hpos, hle⟩ := edits_ratio_of_ne heq
    rw [ratio_of_ne heq]
    constructor <;> linarith

theorem ratio_eq_one_iff : (of a b).ratio = 1 ↔ a = b := by
  constructor
  · intro hone
    by_contra hne
    obtain ⟨hpos, -⟩ := edits_ratio_of_ne hne
    rw [ratio_of_ne hne] at hone
    linarith
  · rintro rfl
    exact ratio_of_self a

/-- The empty text is not like any other one. -/
theorem ratio_nil_left (h : b ≠ []) : (of [] b).ratio = 0 := by
  have hlength : (b.length : ℚ) ≠ 0 := by simpa using h
  rw [ratio_of_ne h.symm, editDistance_nil_left, List.length_nil, Nat.zero_max, div_self hlength,
    sub_self]

theorem ratio_nil_right (h : a ≠ []) : (of a []).ratio = 0 := by
  rw [of_comm, ratio_nil_left h]

end Likeness

theorem likeness_comm (a b : List Char) : likeness a b = likeness b a := Likeness.of_comm _ _

/-- Which of two values is the existing one makes no difference. -/
theorem isDuplicate_comm (t : Threshold) (a b : List Char) :
    isDuplicate t a b = isDuplicate t b a := by
  have hne : decide (a ≠ b) = decide (b ≠ a) := decide_eq_decide.2 ne_comm
  rw [isDuplicate, isDuplicate, hne, likeness_comm, Bool.or_comm (Text.occursIn b a)]

/-- **Distance and score.**  The distance follows the classical recurrence and is the least number
of edits; it is a metric and lies between the difference and the maximum of the lengths.  The exact
score of two values is one less the distance of their normal forms relative to the longer one: it is
symmetric and between zero and one, one for equal normal forms only, and zero if just one of them
is empty.  The score in any other numbers is symmetric too, and so is being duplicates. -/
theorem similarity_laws (a b c : List Char) :
    ((editDistance [] b = b.length ∧ editDistance a [] = a.length ∧
        ∀ x y, editDistance (x :: a) (y :: b) =
          min (editDistance a (y :: b) + 1)
            (min (editDistance (x :: a) b + 1) (editDistance a b + if x = y then 0 else 1))) ∧
      IsLeast {n | Edits n a b} (editDistance a b) ∧
      editDistance a b = editDistance b a ∧
      (editDistance a b = 0 ↔ a = b) ∧
      editDistance a c ≤ editDistance a b + editDistance b c ∧
      ((a.length : Int) - b.length).natAbs ≤ editDistance a b ∧
      editDistance a b ≤ max a.length b.length) ∧
    ((likeness a b).ratio = (likeness b a).ratio ∧
      (likeness a b).ratio ∈ Set.Icc 0 1 ∧
      ((likeness a b).ratio = 1 ↔ normalizeValue a = normalizeValue b) ∧
      (Xor (normalizeValue a = []) (normalizeValue b = []) → (likeness a b).ratio = 0) ∧
      (normalizeValue a ≠ normalizeValue b → (likeness a b).ratio =
        1 - (editDistance (normalizeValue a) (normalizeValue b) : ℚ) /
          (max (normalizeValue a).length (normalizeValue b).length : ℕ))) ∧
    (likeness a b).score = (likeness b a).score ∧
    ∀ t, isDuplicate t a b = isDuplicate t b a := by
  have hempty : Xor (normalizeValue a = []) (normalizeValue b = []) →
      (likeness a b).ratio = 0 := by
    unfold likeness
    rintro (⟨ha, hb⟩ | ⟨hb, ha⟩)
    · rw [ha, Likeness.ratio_nil_left hb]
    · rw [hb, Likeness.ratio_nil_right ha]
  exact ⟨⟨⟨editDistance_nil_left b, editDistance_nil_right a,
      fun x y => editDistance_classical x y a b⟩, isLeast_editDistance a b,
      editDistance_comm a b, editDistance_eq_zero_iff, editDistance_triangle a b c,
      length_sub_le_editDistance a b, editDistance_le_max_length a b⟩,
    ⟨congrArg Likeness.ratio (likeness_comm a b), Likeness.ratio_mem_Icc _ _,
      Likeness.ratio_eq_one_iff, hempty, Likeness.ratio_of_ne⟩,
    congrArg Likeness.score (likeness_comm a b), fun t => isDuplicate_comm t a b⟩

end Stencil.Profile
