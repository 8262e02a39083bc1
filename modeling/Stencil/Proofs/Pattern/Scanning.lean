import Stencil.Proofs.Pattern.Ends

/-!
# Scanning a text part by part

A text is scanned from left to right.  Where a pattern matches nowhere inside a part (`Quiet`), the
part is passed over character by character (`segmentsFrom_of_quiet`); where it matches exactly a
part, the scan goes on behind it (`segmentsFrom_of_match`).  A pattern whose matches begin with
certain words is quiet wherever none of the words begins (`NoneBegins`, `quiet_of_noneBegins`).
-/

namespace Stencil.Pattern

/-! ## Words that begin nowhere in a part -/

/-- The word begins at no place inside the part `x`, in a text where `y` follows. -/
def NoneBegins (w : List Char) : (x y : List Char) → Prop
  | [], _ => True
  | c :: x, y => ¬ w <+: c :: (x ++ y) ∧ NoneBegins w x y

theorem noneBegins_append {w x x' y : List Char} :
    NoneBegins w (x ++ x') y ↔ NoneBegins w x (x' ++ y) ∧ NoneBegins w x' y := by
  induction x with
  | nil => simp [NoneBegins]
  | cons c x ih => simp only [List.cons_append, NoneBegins, ih, List.append_assoc, and_assoc]

/-- A word does not begin in a part that lacks its first character. -/
theorem noneBegins_of_not_mem {c : Char} {w x : List Char} (h : c ∉ x) (y : List Char) :
    NoneBegins (c :: w) x y := by
  induction x with
  | nil => trivial
  | cons d x ih =>
    rw [List.mem_cons, not_or] at h
    exact ⟨fun hp => h.1 (List.cons_prefix_cons.1 hp).1, ih h.2⟩

/-- A word that does not occur in a part cannot begin there and end behind it either, unless what
follows begins with one of its later characters. -/
theorem noneBegins_of_not_isInfix {w x y : List Char} (h : ¬ w <:+: x)
    (hy : ∀ c ∈ y.head?, c ∉ w.drop 1) : NoneBegins w x y := by
  induction x with
  | nil => trivial
  | cons d x ih =>
    refine ⟨?_, ih fun hin => h (hin.trans (List.infix_cons (List.infix_refl x)))⟩
    rintro ⟨z, hz⟩
    rw [← List.cons_append] at hz
    rcases List.append_eq_append_iff.1 hz with ⟨k, hk, -⟩ | ⟨k, hk, hky⟩
    · exact h ⟨[], k, by rw [hk]; rfl⟩
    · cases k with
      | nil => exact h ⟨[], [], by rw [hk]; simp⟩
      | cons e k =>
        refine hy e (by rw [hky]; rfl) ?_
        rw [hk]
        simp

theorem NoneBegins.not_isPrefix {w x y u v : List Char} (h : NoneBegins w x y) (hx : x = u ++ v)
    (hv : v ≠ []) : ¬ w <+: v ++ y := by
  subst hx
  have hrest := (noneBegins_append.1 h).2
  cases v with
  | nil => exact absurd rfl hv
  | cons c v => exact hrest.1

/-! ## Parts without a match -/

/-- The pattern matches at no place inside the part `x`, which stands behind `before`, given in
reverse, and in front of `y`. -/
def Quiet (p : Pattern) : (before x y : List Char) → Prop
  | _, [], _ => True
  | before, c :: x, y => p.ends ⟨⟨before, c :: (x ++ y)⟩, []⟩ = [] ∧ Quiet p (c :: before) x y

theorem quiet_append {p : Pattern} {before x x' y : List Char} :
    Quiet p before (x ++ x') y ↔
      Quiet p before x (x' ++ y) ∧ Quiet p (x.reverse ++ before) x' y := by
  induction x generalizing before with
  | nil => simp [Quiet]
  | cons c x ih =>
    simp only [List.cons_append, Quiet, ih, List.append_assoc, and_assoc, List.reverse_cons,
      List.nil_append]

/-- A pattern that only matches where one of two words begins is quiet where none of them does. -/
theorem quiet_of_noneBegins {p : Pattern} {w w' : List Char}
    (hp : ∀ before after, ¬ w <+: after → ¬ w' <+: after → p.ends ⟨⟨before, after⟩, []⟩ = [])
    {x y : List Char} (h : NoneBegins w x y) (h' : NoneBegins w' x y) (before : List Char) :
    Quiet p before x y := by
  induction x generalizing before with
  | nil => trivial
  | cons c x ih => exact ⟨hp before _ h.1 h'.1, ih h.2 h'.2 (c :: before)⟩

/-- A pattern is quiet in a part if it has no end at any place that splits the part. -/
theorem quiet_iff {p : Pattern} {before x y : List Char} :
    Quiet p before x y ↔
      ∀ u v, x = u ++ v → v ≠ [] → p.ends ⟨⟨u.reverse ++ before, v ++ y⟩, []⟩ = [] := by
  constructor
  · rintro h u v rfl hv
    have hrest := (quiet_append.1 h).2
    cases v with
    | nil => exact absurd rfl hv
    | cons c v => exact hrest.1
  · intro h
    induction x generalizing before with
    | nil => trivial
    | cons c x ih =>
      refine ⟨h [] (c :: x) rfl (List.cons_ne_nil c x), ih fun u v huv hv => ?_⟩
      have hlater := h (c :: u) v (by rw [huv, List.cons_append]) hv
      rwa [List.reverse_cons, List.append_assoc] at hlater

theorem ends_eq_nil_of_matchAt {p : Pattern} {c : Cursor} (h : p.matchAt false c = none) :
    p.ends ⟨c, []⟩ = [] := by
  rwa [matchAt_eq_head?, Option.map_eq_none_iff, List.head?_eq_none_iff] at h

theorem quiet_of_segmentsFrom {p : Pattern} {before s : List Char}
    (h : ∀ seg ∈ segmentsFrom p 0 before s, seg.match? = none) : Quiet p before s [] := by
  induction s generalizing before with
  | nil => trivial
  | cons c rest ih =>
    rw [segmentsFrom] at h
    cases hmatch : p.matchAt false ⟨before, c :: rest⟩ with
    | none =>
      simp only [hmatch, List.forall_mem_cons] at h
      rw [Quiet, List.append_nil]
      exact ⟨ends_eq_nil_of_matchAt hmatch, ih h.2⟩
    | some m =>
      -- the match is a segment
      simp only [hmatch] at h
      split at h <;> cases (List.forall_mem_cons.1 h).1

/-- A pattern that does not occur in a text has no match at any place of it. -/
theorem quiet_of_occursIn {p : Pattern} {s : List Char} (h : p.occursIn s = false) :
    Quiet p [] s [] := by
  refine quiet_of_segmentsFrom fun seg hseg => ?_
  have hnone := List.any_eq_false.1 h seg hseg
  simpa using hnone

/-- A part without a match is passed over. -/
theorem segmentsFrom_of_quiet {p : Pattern} {before x y : List Char} (h : Quiet p before x y) :
    segmentsFrom p 0 before (x ++ y) =
      x.map .plain ++ segmentsFrom p 0 (x.reverse ++ before) y := by
  induction x generalizing before with
  | nil => simp
  | cons c x ih =>
    have hnone : p.matchAt false ⟨before, c :: (x ++ y)⟩ = none := by
      rw [matchAt_eq_head?, h.1]
      rfl
    simp only [List.cons_append, segmentsFrom, hnone, ih h.2, List.map_cons, List.reverse_cons,
      List.append_assoc, List.nil_append]

/-! ## Parts that match -/

theorem segmentsFrom_skip (p : Pattern) (before x y : List Char) :
    segmentsFrom p x.length before (x ++ y) = segmentsFrom p 0 (x.reverse ++ before) y := by
  induction x generalizing before with
  | nil => rfl
  | cons c x ih => simp only [List.cons_append, List.length_cons, segmentsFrom, ih,
      List.reverse_cons, List.append_assoc, List.nil_append]

/-- A part that is matched is one segment. -/
theorem segmentsFrom_of_match {p : Pattern} {before x y : List Char} {t : State} (hx : x ≠ [])
    (h : (p.ends ⟨⟨before, x ++ y⟩, []⟩).head? = some t) (hy : t.cursor.after = y) :
    segmentsFrom p 0 before (x ++ y) =
      .found ⟨x, t.captures⟩ :: segmentsFrom p 0 (x.reverse ++ before) y := by
  cases x with
  | nil => exact absurd rfl hx
  | cons c x =>
    have hmatch : p.matchAt false ⟨before, c :: (x ++ y)⟩ = some ⟨c :: x, t.captures⟩ := by
      have hlength : (c :: x ++ y).length - y.length = (c :: x).length := by
        rw [List.length_append]; omega
      rw [matchAt_eq_head?, ← List.cons_append, h, Option.map_some, hy, hlength, List.take_left]
    simp only [List.cons_append, segmentsFrom, hmatch, List.isEmpty_cons, List.length_cons,
      Nat.add_sub_cancel, segmentsFrom_skip, List.reverse_cons, List.append_assoc,
      List.nil_append, Bool.false_eq_true, if_false]

/-- At the end of a text nothing is left to scan. -/
theorem segmentsFrom_nil {p : Pattern} {before : List Char}
    (h : p.ends ⟨⟨before, []⟩, []⟩ = []) : segmentsFrom p 0 before [] = [] := by
  have hnone : p.matchAt false ⟨before, []⟩ = none := by
    rw [matchAt_eq_head?, h]
    rfl
  simp only [segmentsFrom, hnone]

end Stencil.Pattern
