import Stencil.Text.Blank

/-!
# Texts that differ in their blanks only

Two texts are respacings of each other if they are the same but for their runs of blanks
(`Respaced R`, where `R` relates one run with the other).  Wherever a character that is no blank
stands in one of them, both can be cut there (`Respaced.split`, and `Respaced.symm` for the other
text); so the two have the same characters but for blanks (`Respaced.mem_iff`), and the same words
stand in both (`Respaced.split_word`, `Respaced.isInfix_iff`).
-/

namespace Stencil.Text

/-- A relation between runs of blanks that leaves the empty run alone. -/
structure Tight (R : List Char → List Char → Prop) : Prop where
  nil : R [] []
  eq_nil_of_left : ∀ r, R [] r → r = []
  eq_nil_of_right : ∀ r, R r [] → r = []

/-- The texts are the same but for their runs of blanks, which `R` relates one by one. -/
inductive Respaced (R : List Char → List Char → Prop) : List Char → List Char → Prop
  | last {r r' : List Char} (hr : allBlank r = true) (hr' : allBlank r' = true) (h : R r r') :
      Respaced R r r'
  | next {r r' s s' : List Char} {c : Char} (hr : allBlank r = true) (hr' : allBlank r' = true)
      (h : R r r') (hc : isBlank c = false) (hs : Respaced R s s') :
      Respaced R (r ++ c :: s) (r' ++ c :: s')

theorem Tight.symm {R : List Char → List Char → Prop} (h : Tight R) : Tight fun u v => R v u :=
  ⟨h.nil, h.eq_nil_of_right, h.eq_nil_of_left⟩

/-- The characters that are no blanks. -/
def solid (s : List Char) : List Char := s.filter fun c => !isBlank c

theorem solid_append (s s' : List Char) : solid (s ++ s') = solid s ++ solid s' :=
  List.filter_append ..

theorem mem_solid {c : Char} {s : List Char} : c ∈ solid s ↔ c ∈ s ∧ isBlank c = false := by
  rw [solid, List.mem_filter, Bool.not_eq_true']

theorem solid_cons {c : Char} (h : isBlank c = false) (s : List Char) :
    solid (c :: s) = c :: solid s :=
  List.filter_cons_of_pos (by rw [h]; rfl)

theorem allBlank_iff {s : List Char} : allBlank s = true ↔ ∀ c ∈ s, isBlank c = true :=
  List.all_eq_true

theorem allBlank_append {s s' : List Char} :
    allBlank (s ++ s') = true ↔ allBlank s = true ∧ allBlank s' = true := by
  simp only [allBlank_iff, List.forall_mem_append]

theorem solid_of_allBlank {s : List Char} (h : allBlank s = true) : solid s = [] := by
  refine List.filter_eq_nil_iff.2 fun c hc => ?_
  rw [allBlank_iff.1 h c hc]
  exact Bool.false_ne_true

theorem not_allBlank {c : Char} (hc : isBlank c = false) (s s' : List Char) :
    allBlank (s ++ c :: s') ≠ true := by
  intro h
  have hblank := allBlank_iff.1 h c (by simp)
  rw [hc] at hblank
  cases hblank

theorem notBlank_of_all {s : List Char} (h : s.all (fun c => !isBlank c) = true) :
    ∀ c ∈ s, isBlank c = false := by
  simpa using h

/-- Two cuts of one text are the same, or one comes before the other. -/
theorem cut_cases {x x' z z' : List Char} {c c' : Char} (h : x ++ c :: z = x' ++ c' :: z') :
    (x = x' ∧ c = c' ∧ z = z') ∨ (∃ k, x' = x ++ c :: k ∧ z = k ++ c' :: z') ∨
      ∃ k, x = x' ++ c' :: k ∧ z' = k ++ c :: z := by
  induction x generalizing x' with
  | nil =>
    cases x' with
    | nil => exact .inl ⟨rfl, List.cons.inj h⟩
    | cons d x' =>
      obtain ⟨rfl, rfl⟩ := List.cons.inj h
      exact .inr (.inl ⟨x', rfl, rfl⟩)
  | cons d x ih =>
    cases x' with
    | nil =>
      obtain ⟨rfl, rfl⟩ := List.cons.inj h
      exact .inr (.inr ⟨x, rfl, rfl⟩)
    | cons d' x' =>
      obtain ⟨rfl, hrest⟩ := List.cons.inj h
      rcases ih hrest with ⟨rfl, hcut⟩ | ⟨k, rfl, hk⟩ | ⟨k, rfl, hk⟩
      · exact .inl ⟨rfl, hcut⟩
      · exact .inr (.inl ⟨k, rfl, hk⟩)
      · exact .inr (.inr ⟨k, rfl, hk⟩)

/-- A text is cut in one way at a character that does not stand before. -/
theorem cut_at_first {x x' z z' : List Char} {c : Char} (h : x ++ c :: z = x' ++ c :: z')
    (hx : c ∉ x) (hx' : c ∉ x') : x = x' ∧ z = z' := by
  rcases cut_cases h with ⟨hfront, -, hback⟩ | ⟨k, rfl, -⟩ | ⟨k, rfl, -⟩
  · exact ⟨hfront, hback⟩
  · exact absurd (by simp) hx'
  · exact absurd (by simp) hx

/-- A text is cut at a character that is no blank by the number of such characters before it. -/
theorem cut_unique {x x' z z' : List Char} {c c' : Char} (h : x ++ c :: z = x' ++ c' :: z')
    (hc : isBlank c = false) (hc' : isBlank c' = false)
    (hcount : (solid x).length = (solid x').length) : x = x' := by
  rcases cut_cases h with ⟨hx, -, -⟩ | ⟨k, rfl, -⟩ | ⟨k, rfl, -⟩
  · exact hx
  · rw [solid_append, solid_cons hc, List.length_append, List.length_cons] at hcount
    omega
  · rw [solid_append, solid_cons hc', List.length_append, List.length_cons] at hcount
    omega

namespace Respaced

variable {R : List Char → List Char → Prop} {s s' : List Char}

theorem symm (h : Respaced R s s') : Respaced (fun u v => R v u) s' s := by
  induction h with
  | last hr hr' h => exact .last hr' hr h
  | next hr hr' h hc hs ih => exact .next hr' hr h hc ih

theorem mono {R' : List Char → List Char → Prop} (h : Respaced R s s')
    (hR : ∀ r r', allBlank r = true → R r r' → R' r r') : Respaced R' s s' := by
  induction h with
  | last hr hr' h => exact .last hr hr' (hR _ _ hr h)
  | next hr hr' h hc hs ih => exact .next hr hr' (hR _ _ hr h) hc ih

theorem solid_eq (h : Respaced R s s') : solid s = solid s' := by
  induction h with
  | last hr hr' h => rw [solid_of_allBlank hr, solid_of_allBlank hr']
  | next hr hr' h hc hs ih =>
    rw [solid_append, solid_append, solid_of_allBlank hr, solid_of_allBlank hr', solid_cons hc,
      solid_cons hc, ih]

/-- The two texts hold the same characters but for blanks. -/
theorem mem_iff (h : Respaced R s s') {c : Char} (hc : isBlank c = false) : c ∈ s ↔ c ∈ s' := by
  have hmem : c ∈ solid s ↔ c ∈ solid s' := by rw [h.solid_eq]
  simpa only [mem_solid, hc, and_true] using hmem

/-- Of blanks there is one run. -/
theorem of_allBlank (h : Respaced R s s') (hs : allBlank s = true) :
    R s s' ∧ allBlank s' = true := by
  cases h with
  | last hr hr' h => exact ⟨h, hr'⟩
  | next hr hr' h hc hs' => exact absurd hs (not_allBlank hc _ _)

theorem append_cons {c : Char} {t t' : List Char} (h : Respaced R s s') (hc : isBlank c = false)
    (ht : Respaced R t t') : Respaced R (s ++ c :: t) (s' ++ c :: t') := by
  induction h with
  | last hr hr' h => exact .next hr hr' h hc ht
  | next hr hr' h hd hs ih =>
    rw [List.append_assoc, List.append_assoc]
    exact .next hr hr' h hd ih

/-- Where a character that is no blank stands in the one text, both can be cut. -/
theorem split {c : Char} {x z : List Char} (h : Respaced R (x ++ c :: z) s')
    (hc : isBlank c = false) :
    ∃ x' z', s' = x' ++ c :: z' ∧ Respaced R x x' ∧ Respaced R z z' := by
  generalize hs : x ++ c :: z = s at h
  induction h generalizing x with
  | last hr hr' h => exact absurd (hs ▸ hr) (not_allBlank hc x z)
  | @next r r' s s' d hr hr' h hd hs' ih =>
    rcases cut_cases hs with ⟨rfl, rfl, rfl⟩ | ⟨k, rfl, -⟩ | ⟨y, rfl, hy⟩
    · exact ⟨r', s', rfl, .last hr hr' h, hs'⟩
    · -- the character would be one of the blanks in front
      exact absurd hr (not_allBlank hc x k)
    · obtain ⟨y', z', rfl, hy', hz'⟩ := ih hy.symm
      exact ⟨r' ++ d :: y', z', by simp, .next hr hr' h hd hy', hz'⟩

/-- A function that treats every run of blanks by itself gives a respacing. -/
theorem of_function {f : List Char → List Char}
    (hblank : ∀ r, allBlank r = true → allBlank (f r) = true)
    (hcons : ∀ r c s, allBlank r = true → isBlank c = false → f (r ++ c :: s) = f r ++ c :: f s)
    (s : List Char) : Respaced (fun r r' => r' = f r) s (f s) := by
  have hwalk : ∀ r, allBlank r = true → Respaced (fun r r' => r' = f r) (r ++ s) (f (r ++ s)) := by
    induction s with
    | nil =>
      intro r hr
      rw [List.append_nil]
      exact .last hr (hblank r hr) rfl
    | cons c s ih =>
      intro r hr
      cases hc : isBlank c with
      | true =>
        have hrun : allBlank (r ++ [c]) = true :=
          allBlank_append.2 ⟨hr, by simpa [allBlank] using hc⟩
        have hmore := ih (r ++ [c]) hrun
        rwa [List.append_assoc] at hmore
      | false =>
        rw [hcons r c s hr hc]
        exact .next hr (hblank r hr) rfl hc (ih [] rfl)
  exact hwalk [] rfl

theorem comp {R' : List Char → List Char → Prop} {s'' : List Char} (h : Respaced R s s')
    (h' : Respaced R' s' s'') : Respaced (fun r r'' => ∃ r', R r r' ∧ R' r' r'') s s'' := by
  induction h generalizing s'' with
  | last hr hr' h =>
    obtain ⟨hlast, hr''⟩ := h'.of_allBlank hr'
    exact .last hr hr'' ⟨_, h, hlast⟩
  | next hr hr' h hc hs ih =>
    obtain ⟨x'', z'', rfl, hx, hz⟩ := h'.split hc
    obtain ⟨hrun, hr''⟩ := hx.of_allBlank hr'
    exact .next hr hr'' ⟨_, h, hrun⟩ hc (ih hz)

section

variable (hR : Tight R) {w : List Char} (hw : ∀ c ∈ w, isBlank c = false) (hne : w ≠ [])

include hR hw hne

theorem append_word {t t' : List Char} (h : Respaced R s s') (ht : Respaced R t t') :
    Respaced R (s ++ (w ++ t)) (s' ++ (w ++ t')) := by
  induction w generalizing s s' with
  | nil => exact absurd rfl hne
  | cons c w ih =>
    rw [List.forall_mem_cons] at hw
    refine h.append_cons hw.1 ?_
    by_cases hnil : w = []
    · rw [hnil]
      exact ht
    · have hempty : Respaced R [] [] := .last rfl rfl hR.nil
      exact ih hw.2 hnil hempty

/-- Where a word stands in the one text, it stands in the other, and both can be cut there. -/
theorem split_word {x z : List Char} (h : Respaced R (x ++ (w ++ z)) s') :
    ∃ x' z', s' = x' ++ (w ++ z') ∧ Respaced R x x' ∧ Respaced R z z' := by
  induction w generalizing x s' with
  | nil => exact absurd rfl hne
  | cons c w ih =>
    rw [List.forall_mem_cons] at hw
    obtain ⟨x', y', rfl, hx, hy⟩ := h.split hw.1
    by_cases hnil : w = []
    · subst hnil
      exact ⟨x', y', rfl, hx, hy⟩
    · obtain ⟨e, z', rfl, he, hz⟩ := ih (x := []) hw.2 hnil hy
      obtain rfl := hR.eq_nil_of_left e (he.of_allBlank rfl).1
      exact ⟨x', z', rfl, hx, hz⟩

/-- The same words stand in both texts. -/
theorem isInfix_iff (h : Respaced R s s') : w <:+: s ↔ w <:+: s' := by
  constructor
  · rintro ⟨x, z, rfl⟩
    rw [List.append_assoc] at h
    obtain ⟨x', z', rfl, -, -⟩ := h.split_word hR hw hne
    exact ⟨x', z', List.append_assoc ..⟩
  · rintro ⟨x', z', rfl⟩
    rw [List.append_assoc] at h
    obtain ⟨x, z, rfl, -, -⟩ := h.symm.split_word hR.symm hw hne
    exact ⟨x, z, List.append_assoc ..⟩

end

end Respaced

end Stencil.Text
