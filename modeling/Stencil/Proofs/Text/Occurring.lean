import Mathlib.Data.List.Infix
import Stencil.Proofs.Pattern.Literal
import Stencil.Proofs.Text.Replacing

/-!
# What replacing shows of the text that is put in

Where a text does not occur, replacing it changes nothing (`replaceAll_of_not_isInfix`).  Where it
occurs, the result tells what was put in its place (`replaceAll_inj`), so that the text stays as it
is only if each occurrence is replaced by itself (`replaceAll_eq_self_iff`).  No occurrence reaches
over a character that the replaced text lacks: replacing works on both sides of it on its own
(`replaceAll_append_cons`).
-/

namespace Stencil.Text

variable {part new : List Char}

/-! ## Occurrences -/

theorem replaceFrom_of_isPrefix {c : Char} {s : List Char} (h : part <+: c :: s) :
    replaceFrom part new 0 (c :: s) = new ++ replaceFrom part new (part.length - 1) s := by
  rw [replaceFrom, if_pos (List.isPrefixOf_iff_prefix.2 h)]

theorem replaceFrom_of_not_isPrefix {c : Char} {s : List Char} (h : ¬ part <+: c :: s) :
    replaceFrom part new 0 (c :: s) = c :: replaceFrom part new 0 s := by
  rw [replaceFrom, if_neg (mt List.isPrefixOf_iff_prefix.1 h)]

theorem replaceFrom_length (s : List Char) : replaceFrom part new s.length s = [] := by
  induction s with
  | nil => rfl
  | cons c s ih => exact ih

/-- The whole text is one occurrence. -/
theorem replaceAll_self (hpart : part ≠ []) : replaceAll part new part = new := by
  obtain ⟨c, tail, rfl⟩ := List.exists_cons_of_ne_nil hpart
  rw [replaceAll, replaceFrom_of_isPrefix List.prefix_rfl, List.length_cons, Nat.add_sub_cancel,
    replaceFrom_length, List.append_nil]

/-- Something is cut out exactly if the text occurs. -/
theorem none_mem_cutFrom_iff (hpart : part ≠ []) {s : List Char} :
    none ∈ cutFrom part 0 s ↔ part <:+: s := by
  induction s with
  | nil => simp [cutFrom, hpart]
  | cons c rest ih =>
    rw [cutFrom, List.infix_cons_iff]
    by_cases h : part <+: c :: rest
    · rw [if_pos (List.isPrefixOf_iff_prefix.2 h)]
      exact iff_of_true List.mem_cons_self (.inl h)
    · rw [if_neg (mt List.isPrefixOf_iff_prefix.1 h), List.mem_cons, ih]
      exact or_congr_left (iff_of_false (Option.some_ne_none c).symm h)

theorem replaceAll_of_not_isInfix {s : List Char} (h : ¬ part <:+: s) :
    replaceAll part new s = s := by
  have hnone : ∀ n < s.length, ¬ part <+: (s ++ []).drop n := by
    intro n _ hpart
    rw [List.append_nil] at hpart
    exact h (hpart.isInfix.trans (List.drop_suffix n s).isInfix)
  have hkept : replaceFrom part new 0 (s ++ []) = s ++ [] := replaceFrom_append hnone
  rwa [List.append_nil] at hkept

/-- A text that is replaced by itself stays. -/
theorem replaceFrom_itself (hpart : part ≠ []) (skip : Nat) (s : List Char) :
    replaceFrom part part skip s = s.drop skip := by
  induction s generalizing skip with
  | nil => simp [replaceFrom]
  | cons c rest ih =>
    cases skip with
    | succ skip => exact ih skip
    | zero =>
      by_cases h : part <+: c :: rest
      · rw [replaceFrom_of_isPrefix h, ih]
        obtain ⟨back, hback⟩ := h
        obtain ⟨d, tail, rfl⟩ := List.exists_cons_of_ne_nil hpart
        obtain ⟨rfl, rfl⟩ := List.cons.inj hback
        simp
      · rw [replaceFrom_of_not_isPrefix h, ih]
        rfl

/-! ## What was put in -/

/-- The parts of a text with the gaps filled in. -/
theorem length_flatMap_elim (parts : List (Option Char)) (new : List Char) :
    (parts.flatMap fun c => c.elim new ([·])).length + parts.count none =
      parts.length + parts.count none * new.length := by
  induction parts with
  | nil => simp
  | cons c parts ih =>
    cases c with
    | none =>
      simp only [List.flatMap_cons, Option.elim_none, List.length_append, List.count_cons_self,
        List.length_cons, Nat.add_mul, Nat.one_mul]
      omega
    | some c =>
      have hcount : (some c :: parts).count none = parts.count none := by simp
      simp only [List.flatMap_cons, Option.elim_some, List.length_append, hcount, List.length_cons,
        List.length_nil]
      omega

/-- If there is a gap, the whole tells what it is filled with. -/
theorem eq_of_flatMap_elim {parts : List (Option Char)} (hgap : none ∈ parts) {new' : List Char}
    (h : (parts.flatMap fun c => c.elim new ([·])) = parts.flatMap fun c => c.elim new' ([·])) :
    new = new' := by
  have hlength : new.length = new'.length := by
    have hnew := length_flatMap_elim parts new
    have hnew' := length_flatMap_elim parts new'
    rw [h] at hnew
    exact Nat.eq_of_mul_eq_mul_left (List.count_pos_iff.2 hgap) (by omega)
  induction parts with
  | nil => cases hgap
  | cons c parts ih =>
    rw [List.flatMap_cons, List.flatMap_cons] at h
    cases c with
    | none => exact List.append_inj_left h hlength
    | some c =>
      have hrest : none ∈ parts := by simpa using hgap
      exact ih hrest (List.append_cancel_left h)

/-- Where the text occurs, the result tells what was put in its place. -/
theorem replaceAll_inj (hpart : part ≠ []) {new' s : List Char} :
    replaceAll part new s = replaceAll part new' s ↔ new = new' ∨ ¬ part <:+: s := by
  constructor
  · intro h
    by_cases hoccurs : part <:+: s
    · rw [replaceAll, replaceAll, replaceFrom_eq_flatMap, replaceFrom_eq_flatMap] at h
      exact .inl (eq_of_flatMap_elim ((none_mem_cutFrom_iff hpart).2 hoccurs) h)
    · exact .inr hoccurs
  · rintro (rfl | hnone)
    · rfl
    · rw [replaceAll_of_not_isInfix hnone, replaceAll_of_not_isInfix hnone]

/-- Only a text that does not occur stays, or one that is replaced by itself. -/
theorem replaceAll_eq_self_iff (hpart : part ≠ []) {s : List Char} :
    replaceAll part new s = s ↔ new = part ∨ ¬ part <:+: s := by
  have hitself : replaceAll part part s = s := replaceFrom_itself hpart 0 s
  rw [← replaceAll_inj hpart, hitself]

/-! ## Both sides of a character -/

/-- What begins in front of a character that it lacks ends there. -/
theorem prefix_append_cons_iff {c : Char} (hc : c ∉ part) {a b : List Char} :
    part <+: a ++ c :: b ↔ part <+: a := by
  constructor
  · intro h
    rcases Nat.lt_or_ge a.length part.length with hlt | hle
    · have hover : a ++ [c] <+: part := by
        refine List.prefix_of_prefix_length_le ⟨b, by simp⟩ h ?_
        rw [List.length_append]
        exact hlt
      exact absurd (hover.subset (by simp)) hc
    · exact List.prefix_of_prefix_length_le h (List.prefix_append a _) hle
  · exact fun h => h.trans (List.prefix_append a _)

theorem replaceFrom_append_cons (hpart : part ≠ []) {c : Char} (hc : c ∉ part) {skip : Nat}
    {a : List Char} (hskip : skip ≤ a.length) (b : List Char) :
    replaceFrom part new skip (a ++ c :: b) =
      replaceFrom part new skip a ++ c :: replaceFrom part new 0 b := by
  induction a generalizing skip with
  | nil =>
    obtain rfl := Nat.le_zero.1 hskip
    have hnone : ¬ part <+: [] ++ c :: b := fun h =>
      hpart (List.prefix_nil.1 ((prefix_append_cons_iff hc).1 h))
    exact replaceFrom_of_not_isPrefix hnone
  | cons d a ih =>
    cases skip with
    | succ skip => exact ih (Nat.le_of_succ_le_succ hskip)
    | zero =>
      have hiff : part <+: d :: (a ++ c :: b) ↔ part <+: d :: a :=
        prefix_append_cons_iff hc (a := d :: a)
      by_cases h : part <+: d :: a
      · have hlength : part.length - 1 ≤ a.length := Nat.sub_le_of_le_add h.length_le
        rw [List.cons_append, replaceFrom_of_isPrefix (hiff.2 h), replaceFrom_of_isPrefix h,
          ih hlength, List.append_assoc]
      · rw [List.cons_append, replaceFrom_of_not_isPrefix (mt hiff.1 h),
          replaceFrom_of_not_isPrefix h, ih (Nat.zero_le _), List.cons_append]

theorem replaceAll_append_cons (hpart : part ≠ []) {c : Char} (hc : c ∉ part) (a b : List Char) :
    replaceAll part new (a ++ c :: b) = replaceAll part new a ++ c :: replaceAll part new b :=
  replaceFrom_append_cons hpart hc (Nat.zero_le _) b

end Stencil.Text
