import Mathlib.Order.Bounds.Basic
import Stencil.Profile.Similarity

/-!
# The distance of two texts

The rows of distances follow the recurrence over the first characters of both texts
(`editDistance_cons_cons`).  What it counts are edits: an edit inserts, deletes or replaces one
character at any place (`Edit`), and the distance is the least number of edits that lead from one
text to the other (`isLeast_editDistance`).

Edits come in any order and may undo one another, and the recurrence walks over both texts from left
to right.  Between the two stand alignments, which are texts side by side with at most `n`
differences (`Aligned`):

    Edits n a b  →  Aligned n a b                                       (Edits.aligned)
    Aligned n a b  →  editDistance a b ≤ n                              (editDistance_le)
    Aligned (editDistance a b) a b                                      (aligned_editDistance)
    Aligned n a b  →  ∃ m ≤ n, Edits m a b                              (Aligned.exists_edits)

So the distance is symmetric, because alignments are, and it satisfies the triangle inequality,
because edits follow one another.
-/

namespace Stencil.Profile

/-! ## The recurrence -/

/-- The row of a text goes on as the row of the text without its first character. -/
theorem distanceRow_cons_snd (d : Char) (b a : List Char) :
    (distanceRow (d :: b) a).2 = (distanceRow b a).1 :: (distanceRow b a).2 := by
  induction a with
  | nil => rfl
  | cons c a ih =>
    have hrow : distanceRow (d :: b) a =
        ((distanceRow (d :: b) a).1, (distanceRow b a).1 :: (distanceRow b a).2) := by
      rw [← ih]
    rw [distanceRow, hrow]
    rfl

theorem editDistance_nil_right (a : List Char) : editDistance a [] = a.length := by
  induction a with
  | nil => rfl
  | cons c a ih =>
    have hrow : (nextRow c [] (distanceRow [] a)).1 = (distanceRow [] a).1 + 1 := rfl
    rw [editDistance, distanceRow, hrow, List.length_cons, ← ih, editDistance]

/-- The rows compare the first characters: equal ones cost nothing, and otherwise one of them is
replaced, deleted or inserted. -/
theorem editDistance_cons_cons (c d : Char) (a b : List Char) :
    editDistance (c :: a) (d :: b) =
      if c = d then editDistance a b
      else
        1 + min (editDistance a b) (min (editDistance a (d :: b)) (editDistance (c :: a) b)) := by
  have hrow : distanceRow (d :: b) a =
      (editDistance a (d :: b), editDistance a b :: (distanceRow b a).2) :=
    Prod.ext rfl (distanceRow_cons_snd d b a)
  rw [editDistance, distanceRow, hrow]
  rfl

/-! ## Edits -/

/-- The second text is the first one with one character inserted, deleted or replaced. -/
inductive Edit : (a b : List Char) → Prop
  | insert (u v : List Char) (c : Char) : Edit (u ++ v) (u ++ c :: v)
  | delete (u v : List Char) (c : Char) : Edit (u ++ c :: v) (u ++ v)
  | replace (u v : List Char) (c d : Char) : Edit (u ++ c :: v) (u ++ d :: v)

/-- So many edits lead from the first text to the second one. -/
inductive Edits : (n : Nat) → (a b : List Char) → Prop
  | none {a : List Char} : Edits 0 a a
  | more {n : Nat} {a b c : List Char} (h : Edit a b) (hs : Edits n b c) : Edits (n + 1) a c

variable {m n : Nat} {a b c : List Char}

theorem Edits.trans (h : Edits m a b) (h' : Edits n b c) : Edits (m + n) a c := by
  induction h with
  | none =>
    rw [Nat.zero_add]
    exact h'
  | more hedit _ ih =>
    rw [Nat.add_right_comm]
    exact .more hedit (ih h')

/-- Edits of texts are edits behind one more character. -/
theorem Edits.cons (h : Edits n a b) (x : Char) : Edits n (x :: a) (x :: b) := by
  induction h with
  | none => exact .none
  | more hedit _ ih =>
    refine .more ?_ ih
    cases hedit with
    | insert u v c => exact .insert (x :: u) v c
    | delete u v c => exact .delete (x :: u) v c
    | replace u v c d => exact .replace (x :: u) v c d

/-! ## Alignments -/

/-- The texts stand side by side with at most `n` differences. -/
inductive Aligned : (n : Nat) → (a b : List Char) → Prop
  | nil {n : Nat} : Aligned n [] []
  | keep {n : Nat} {a b : List Char} (x : Char) (h : Aligned n a b) : Aligned n (x :: a) (x :: b)
  | replace {n : Nat} {a b : List Char} (x y : Char) (h : Aligned n a b) :
      Aligned (n + 1) (x :: a) (y :: b)
  | delete {n : Nat} {a b : List Char} (x : Char) (h : Aligned n a b) : Aligned (n + 1) (x :: a) b
  | insert {n : Nat} {a b : List Char} (y : Char) (h : Aligned n a b) : Aligned (n + 1) a (y :: b)

namespace Aligned

theorem refl (a : List Char) : Aligned n a a := by
  induction a with
  | nil => exact .nil
  | cons x a ih => exact .keep x ih

theorem symm (h : Aligned n a b) : Aligned n b a := by
  induction h with
  | nil => exact .nil
  | keep x _ ih => exact .keep x ih
  | replace x y _ ih => exact .replace y x ih
  | delete x _ ih => exact .insert x ih
  | insert y _ ih => exact .delete y ih

theorem mono (h : Aligned m a b) (hmn : m ≤ n) : Aligned n a b := by
  induction h generalizing n with
  | nil => exact .nil
  | keep x _ ih => exact .keep x (ih hmn)
  | replace x y _ ih =>
    obtain ⟨k, rfl⟩ := Nat.exists_eq_add_of_le' hmn
    exact .replace x y (ih (Nat.le_add_left ..))
  | delete x _ ih =>
    obtain ⟨k, rfl⟩ := Nat.exists_eq_add_of_le' hmn
    exact .delete x (ih (Nat.le_add_left ..))
  | insert y _ ih =>
    obtain ⟨k, rfl⟩ := Nat.exists_eq_add_of_le' hmn
    exact .insert y (ih (Nat.le_add_left ..))

theorem length_le (h : Aligned n a b) : a.length ≤ b.length + n := by
  induction h <;> simp only [List.length_cons, List.length_nil] <;> omega

/-- Any two texts can be aligned with a difference at every place. -/
theorem max_length (a b : List Char) : Aligned (max a.length b.length) a b := by
  induction a generalizing b with
  | nil =>
    induction b with
    | nil => exact .nil
    | cons y b ih => exact (ih.insert y).mono (by simp)
  | cons x a ih =>
    cases b with
    | nil => exact ((ih []).delete x).mono (by simp)
    | cons y b => exact ((ih b).replace x y).mono (by simp)

/-- Without its first character a text is aligned with one more difference. -/
theorem tail {x : Char} (h : Aligned n (x :: a) b) : Aligned (n + 1) a b := by
  generalize hx : x :: a = a' at h
  induction h with
  | nil => cases hx
  | keep y h _ =>
    cases hx
    exact h.insert x
  | replace y z h _ =>
    cases hx
    exact (h.insert z).mono (Nat.le_succ _)
  | delete y h _ =>
    cases hx
    exact h.mono (by omega)
  | insert y _ ih => exact (ih hx).insert y

/-- Equal first characters can be left out. -/
theorem of_cons {x : Char} (h : Aligned n (x :: a) (x :: b)) : Aligned n a b := by
  cases h with
  | keep _ h => exact h
  | replace _ _ h => exact h.mono (Nat.le_succ _)
  | delete _ h => exact h.symm.tail.symm
  | insert _ h => exact h.tail

/-- Another first character is one more difference. -/
theorem set_head {y : Char} (h : Aligned n (y :: a) b) (x : Char) : Aligned (n + 1) (x :: a) b := by
  generalize hy : y :: a = a' at h
  induction h with
  | nil => cases hy
  | keep z h _ =>
    cases hy
    exact h.replace x y
  | replace z z' h _ =>
    cases hy
    exact (h.replace x z').mono (Nat.le_succ _)
  | delete z h _ =>
    cases hy
    exact (h.delete x).mono (Nat.le_succ _)
  | insert z _ ih => exact (ih hy).insert z

end Aligned

/-- What a change of a text costs at most, it costs behind one more character. -/
theorem aligned_cons (h : ∀ {n z}, Aligned n b z → Aligned (n + 1) a z) {x : Char} {z : List Char}
    (hz : Aligned n (x :: b) z) : Aligned (n + 1) (x :: a) z := by
  generalize hx : x :: b = b' at hz
  induction hz with
  | nil => cases hx
  | keep y hz _ =>
    cases hx
    exact (h hz).keep x
  | replace y y' hz _ =>
    cases hx
    exact (h hz).replace x y'
  | delete y hz _ =>
    cases hx
    exact (h hz).delete x
  | insert y _ ih => exact (ih hx).insert y

theorem aligned_append (u : List Char) (h : ∀ {n z}, Aligned n b z → Aligned (n + 1) a z)
    {z : List Char} (hz : Aligned n (u ++ b) z) : Aligned (n + 1) (u ++ a) z := by
  induction u generalizing n z with
  | nil => exact h hz
  | cons x u ih => exact aligned_cons ih hz

/-- One more edit is one more difference. -/
theorem Edit.aligned (h : Edit a b) (hs : Aligned n b c) : Aligned (n + 1) a c := by
  cases h with
  | insert u v x => exact aligned_append u Aligned.tail hs
  | delete u v x => exact aligned_append u (Aligned.delete x) hs
  | replace u v x y => exact aligned_append u (fun h => h.set_head x) hs

theorem Edits.aligned (h : Edits n a b) : Aligned n a b := by
  induction h with
  | none => exact .refl _
  | more hedit _ ih => exact hedit.aligned ih

/-- The differences of an alignment are made by edits, from left to right. -/
theorem Aligned.exists_edits (h : Aligned n a b) : ∃ m ≤ n, Edits m a b := by
  induction h with
  | nil => exact ⟨0, Nat.zero_le _, .none⟩
  | keep x _ ih =>
    obtain ⟨m, hm, hedits⟩ := ih
    exact ⟨m, hm, hedits.cons x⟩
  | @replace _ a _ x y _ ih =>
    obtain ⟨m, hm, hedits⟩ := ih
    exact ⟨m + 1, Nat.succ_le_succ hm, .more (.replace [] a x y) (hedits.cons y)⟩
  | @delete _ a _ x _ ih =>
    obtain ⟨m, hm, hedits⟩ := ih
    exact ⟨m + 1, Nat.succ_le_succ hm, .more (.delete [] a x) hedits⟩
  | @insert _ a _ y _ ih =>
    obtain ⟨m, hm, hedits⟩ := ih
    exact ⟨m + 1, Nat.succ_le_succ hm, .more (.insert [] a y) (hedits.cons y)⟩

/-! ## The distance -/

/-- The recurrence finds an alignment. -/
theorem aligned_editDistance (a b : List Char) : Aligned (editDistance a b) a b := by
  induction a generalizing b with
  | nil =>
    rw [editDistance_nil_left]
    exact (Aligned.max_length [] b).mono (by simp)
  | cons x a iha =>
    induction b with
    | nil =>
      rw [editDistance_nil_right]
      exact (Aligned.max_length (x :: a) []).mono (by simp)
    | cons y b ihb =>
      rw [editDistance_cons_cons]
      split
      · next heq =>
        subst heq
        exact (iha b).keep x
      · have hleast : ∀ {k l m : Nat}, 1 + min k (min l m) = k + 1 ∨
            1 + min k (min l m) = l + 1 ∨ 1 + min k (min l m) = m + 1 := by omega
        rcases @hleast (editDistance a b) (editDistance a (y :: b)) (editDistance (x :: a) b) with
          h | h | h
        · rw [h]
          exact (iha b).replace x y
        · rw [h]
          exact (iha (y :: b)).delete x
        · rw [h]
          exact ihb.insert y

/-- It finds one with the fewest differences. -/
theorem editDistance_le (h : Aligned n a b) : editDistance a b ≤ n := by
  induction a generalizing b n with
  | nil =>
    rw [editDistance_nil_left]
    simpa using h.symm.length_le
  | cons x a iha =>
    induction b generalizing n with
    | nil =>
      rw [editDistance_nil_right]
      simpa using h.length_le
    | cons y b ihb =>
      rw [editDistance_cons_cons]
      split
      · next heq =>
        subst heq
        exact iha h.of_cons
      · next hne =>
        cases h with
        | keep => exact absurd rfl hne
        | replace _ _ h =>
          have := iha h
          omega
        | delete _ h =>
          have := iha h
          omega
        | insert _ h =>
          have := ihb h
          omega

/-- The distance is the least number of edits. -/
theorem isLeast_editDistance (a b : List Char) : IsLeast {n | Edits n a b} (editDistance a b) := by
  constructor
  · obtain ⟨m, hm, hedits⟩ := (aligned_editDistance a b).exists_edits
    have hle : editDistance a b ≤ m := editDistance_le hedits.aligned
    rw [Set.mem_ofPred_eq, Nat.le_antisymm hle hm]
    exact hedits
  · exact fun n hedits => editDistance_le hedits.aligned

/-- The rows follow the classical recurrence: the first character of one text is deleted, that of
the other one is inserted, or one is replaced by the other, which costs nothing if they are
equal. -/
theorem editDistance_classical (x y : Char) (a b : List Char) :
    editDistance (x :: a) (y :: b) =
      min (editDistance a (y :: b) + 1)
        (min (editDistance (x :: a) b + 1) (editDistance a b + if x = y then 0 else 1)) := by
  rw [editDistance_cons_cons]
  by_cases heq : x = y
  · -- to delete or to insert one of two equal characters is no better than to keep them
    subst heq
    have hdelete := editDistance_le (aligned_editDistance a (x :: b)).symm.tail.symm
    have hinsert := editDistance_le (aligned_editDistance (x :: a) b).tail
    rw [if_pos rfl, if_pos rfl]
    omega
  · rw [if_neg heq, if_neg heq]
    omega

theorem editDistance_comm (a b : List Char) : editDistance a b = editDistance b a :=
  Nat.le_antisymm (editDistance_le (aligned_editDistance b a).symm)
    (editDistance_le (aligned_editDistance a b).symm)

theorem editDistance_eq_zero_iff : editDistance a b = 0 ↔ a = b := by
  constructor
  · intro hzero
    have hedits : Edits (editDistance a b) a b := (isLeast_editDistance a b).1
    rw [hzero] at hedits
    cases hedits
    rfl
  · rintro rfl
    exact Nat.le_zero.1 (editDistance_le (.refl a))

theorem editDistance_triangle (a b c : List Char) :
    editDistance a c ≤ editDistance a b + editDistance b c :=
  (isLeast_editDistance a c).2 ((isLeast_editDistance a b).1.trans (isLeast_editDistance b c).1)

theorem length_sub_le_editDistance (a b : List Char) :
    ((a.length : Int) - b.length).natAbs ≤ editDistance a b := by
  have hleft := (aligned_editDistance a b).length_le
  have hright := (aligned_editDistance a b).symm.length_le
  omega

theorem editDistance_le_max_length (a b : List Char) :
    editDistance a b ≤ max a.length b.length :=
  editDistance_le (.max_length a b)

end Stencil.Profile
