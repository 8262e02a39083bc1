import Stencil.Text.Blank
import Stencil.Text.Case

/-!
# Lower case and blanks

No letter with another lower case is a blank, and neither is its lower case (`lowerRuns_apart`).  So
a text is as blank in lower case as it was before (`allBlank_lower`), whatever becomes of its
letters.
-/

namespace Stencil.Text

def blankCodes : List Nat :=
  [9, 10, 11, 12, 13, 28, 29, 30, 31, 32, 0x85, 0xA0, 0x1680, 0x2000, 0x2001, 0x2002, 0x2003,
    0x2004, 0x2005, 0x2006, 0x2007, 0x2008, 0x2009, 0x200A, 0x2028, 0x2029, 0x202F, 0x205F, 0x3000]

theorem mem_blankCodes_iff (c : Char) : c.toNat ∈ blankCodes ↔ isBlank c = true := by
  simp only [blankCodes, isBlank, List.mem_cons, List.not_mem_nil, or_false, Bool.or_eq_true,
    Bool.and_eq_true, decide_eq_true_eq, beq_iff_eq]
  omega

/-- A number that is no code point is read as zero, which is not blank either. -/
theorem isBlank_ofNat {n : Nat} (h : n ∉ blankCodes) : isBlank (Char.ofNat n) = false := by
  rw [← Bool.not_eq_true, ← mem_blankCodes_iff]
  intro hmem
  have hcode : (Char.ofNat n).toNat = n ∨ (Char.ofNat n).toNat = 0 := by
    by_cases hvalid : n.isValidChar
    · rw [Char.ofNat, dif_pos hvalid]
      exact .inl rfl
    · rw [Char.ofNat, dif_neg hvalid]
      exact .inr rfl
  rcases hcode with heq | heq
  · exact h (heq ▸ hmem)
  · rw [heq] at hmem
    exact absurd hmem (by decide)

/-- The runs of letters with case hold no blank, and neither do their partners. -/
theorem lowerRuns_apart : ∀ r ∈ lowerRuns, ∀ n ∈ blankCodes,
    ¬ (r.first ≤ n ∧ n ≤ r.last) ∧ ¬ (r.image ≤ n ∧ n ≤ r.image + (r.last - r.first)) := by
  decide +kernel

theorem isBlank_partner (c : Char) :
    isBlank (Char.ofNat (partnerIn lowerRuns c.toNat)) = isBlank c := by
  unfold partnerIn
  split
  · rename_i r hr
    have hcovers : r.first ≤ c.toNat ∧ c.toNat ≤ r.last := by
      have hfound := List.find?_some hr
      simp only [CaseRun.covers, Bool.and_eq_true, decide_eq_true_eq] at hfound
      exact hfound.1
    have hapart := lowerRuns_apart r (List.mem_of_find?_eq_some hr)
    have hc : isBlank c = false := by
      rw [← Bool.not_eq_true, ← mem_blankCodes_iff]
      exact fun hmem => (hapart _ hmem).1 hcovers
    rw [hc]
    refine isBlank_ofNat fun hmem => (hapart _ hmem).2 ?_
    unfold CaseRun.partner
    omega
  · rw [Char.ofNat_toNat]

theorem isBlank_toLower {c : Char} (h : c.toNat < 128) : isBlank c.toLower = isBlank c := by
  have hall : ∀ n < 128, isBlank (Char.ofNat n).toLower = isBlank (Char.ofNat n) := by
    decide +kernel
  have hc := hall c.toNat h
  rwa [Char.ofNat_toNat] at hc

theorem allBlank_lowerFrom (before s : List Char) : allBlank (lowerFrom before s) = allBlank s := by
  induction s generalizing before with
  | nil => rfl
  | cons c rest ih =>
    have hrest : (lowerFrom (c :: before) rest).all isBlank = rest.all isBlank := ih (c :: before)
    rw [lowerFrom, allBlank, allBlank, List.all_append, hrest, List.all_cons]
    congr 1
    split
    · rename_i hascii
      simp [isBlank_toLower hascii]
    split
    · rename_i hsigma
      have hc : isBlank c = false := by simp [isBlank, hsigma]
      rw [hc]
      split <;> rfl
    split
    · rename_i hdotted
      have hc : isBlank c = false := by simp [isBlank, hdotted]
      rw [hc]
      rfl
    · rename_i hascii _ hdotted
      simp [simpleLower, hascii, hdotted, isBlank_partner]

/-- A text is blank in lower case if it was blank before. -/
theorem allBlank_lower (s : List Char) : allBlank (lower s) = allBlank s := allBlank_lowerFrom [] s

theorem collapse_eq_nil_iff (joint : Char) (s : List Char) : collapse joint s = [] ↔ s = [] := by
  cases s with
  | nil => simp [collapse, collapseFrom]
  | cons c rest =>
    simp only [collapse, collapseFrom, reduceCtorEq, iff_false]
    split <;> simp

end Stencil.Text
