import Stencil.Pattern.Progress
import Stencil.Proofs.Pattern.Scanning

/-!
# What is found in a text

A pattern that never matches the empty text (`Consuming`) cuts a text into matches and characters at
which it does not match (`Scanned`, `scanned_segments`).  Every match that is found is one at its
place (`exists_place_of_mem_findAll`), and a match is found unless an earlier one reaches into it
(`Scanned.found_or_reached`), as none does if the word that it opens with begins nowhere inside a
match (`Scanned.split`).  So the pattern occurs in a text if it has an end somewhere in it
(`occursIn_iff`).
-/

namespace Stencil.Pattern

/-- The pattern matches no empty text. -/
def Consuming (p : Pattern) : Prop := ∀ c m, p.matchAt false c = some m → m.text ≠ []

/-- A match at a place ends where the first of the ends is. -/
theorem exists_end_of_matchAt {p : Pattern} {c : Cursor} {m : Match}
    (h : p.matchAt false c = some m) :
    ∃ t, (p.ends ⟨c, []⟩).head? = some t ∧ c.after = m.text ++ t.cursor.after ∧
      m.captures = t.captures := by
  rw [matchAt_eq_head?] at h
  obtain ⟨t, ht, rfl⟩ := Option.map_eq_some_iff.1 h
  have hrun : p.run some ⟨c, []⟩ = some t := by
    rw [run_eq_findSome?, findSome?_some, ht]
  obtain ⟨u, hu, passed, hpassed, -⟩ := p.progressive_run some _ t hrun
  obtain rfl := Option.some.inj hu
  refine ⟨u, ht, ?_, rfl⟩
  dsimp only at hpassed ⊢
  rw [hpassed, List.length_append, Nat.add_sub_cancel, List.take_left]

/-- Where there is an end, there is a match. -/
theorem exists_matchAt_of_mem_ends {p : Pattern} {c : Cursor} {t : State}
    (h : t ∈ p.ends ⟨c, []⟩) : ∃ m, p.matchAt false c = some m := by
  rw [← Option.isSome_iff_exists, matchAt_eq_head?, Option.isSome_map, List.isSome_head?]
  exact List.ne_nil_of_mem h

/-- A pattern that ends behind the place where it begins matches no empty text. -/
theorem consuming_of_ends {p : Pattern}
    (h : ∀ c, ∀ t ∈ p.ends ⟨c, []⟩, t.cursor.after ≠ c.after) : p.Consuming := by
  intro c m hm hnil
  obtain ⟨t, ht, hafter, -⟩ := exists_end_of_matchAt hm
  rw [hnil, List.nil_append] at hafter
  exact h c t (List.mem_of_head? ht) hafter.symm

/-- The text behind the place `before` consists of the segments: matches of the pattern, and
characters at which it does not match. -/
inductive Scanned (p : Pattern) : (before s : List Char) → List Segment → Prop
  | nil {before : List Char} : Scanned p before [] []
  | plain {before s : List Char} {c : Char} {segs : List Segment}
      (h : p.matchAt false ⟨before, c :: s⟩ = none) (hs : Scanned p (c :: before) s segs) :
      Scanned p before (c :: s) (.plain c :: segs)
  | found {before s : List Char} {m : Match} {segs : List Segment} (hne : m.text ≠ [])
      (h : p.matchAt false ⟨before, m.text ++ s⟩ = some m)
      (hs : Scanned p (m.text.reverse ++ before) s segs) :
      Scanned p before (m.text ++ s) (.found m :: segs)

theorem scanned_segmentsFrom {p : Pattern} (hp : Consuming p) (before s : List Char) :
    Scanned p before s (segmentsFrom p 0 before s) := by
  induction hn : s.length using Nat.strongRecOn generalizing before s with
  | ind n ih =>
    cases s with
    | nil =>
      cases hmatch : p.matchAt false ⟨before, []⟩ with
      | none =>
        simp only [segmentsFrom, hmatch]
        exact .nil
      | some m => exact absurd (List.prefix_nil.1 (matchAt_text hmatch)) (hp _ _ hmatch)
    | cons c rest =>
      cases hmatch : p.matchAt false ⟨before, c :: rest⟩ with
      | none =>
        simp only [segmentsFrom, hmatch]
        exact .plain hmatch (ih rest.length (by simp [← hn]) (c :: before) rest rfl)
      | some m =>
        have hne := hp _ _ hmatch
        obtain ⟨y, hy⟩ := matchAt_text hmatch
        obtain ⟨d, text, htext⟩ := List.exists_cons_of_ne_nil hne
        obtain ⟨rfl, rfl⟩ : d = c ∧ text ++ y = rest := by
          rw [htext] at hy
          exact ⟨(List.cons.inj hy).1, (List.cons.inj hy).2⟩
        have hskip : segmentsFrom p (m.text.length - 1) (d :: before) (text ++ y) =
            segmentsFrom p 0 (m.text.reverse ++ before) y := by
          rw [htext, List.length_cons, Nat.add_sub_cancel, segmentsFrom_skip]
          simp
        simp only [segmentsFrom, hmatch, List.isEmpty_iff, hne, if_false, hskip]
        have hafter : m.text ++ y = d :: (text ++ y) := hy
        have hshorter : y.length < n := by
          rw [← hn, List.length_cons, List.length_append]
          omega
        have hscan := ih y.length hshorter (m.text.reverse ++ before) y rfl
        rw [← hafter] at hmatch ⊢
        exact .found hne hmatch hscan

theorem scanned_segments {p : Pattern} (hp : Consuming p) (s : List Char) :
    Scanned p [] s (p.segments s) := scanned_segmentsFrom hp [] s

namespace Scanned

variable {p : Pattern} {before s : List Char} {segs : List Segment}

/-- The empty text has no segments. -/
theorem eq_nil (h : Scanned p before [] segs) : segs = [] := by
  generalize hs : ([] : List Char) = s at h
  cases h with
  | nil => rfl
  | plain h hs' => cases hs
  | found hne h hs' => exact absurd (List.append_eq_nil_iff.1 hs.symm).1 hne

/-- A match among the segments stands at a place of the text, and is the one that is preferred
there. -/
theorem exists_place (h : Scanned p before s segs) {m : Match} (hm : .found m ∈ segs) :
    ∃ x y, s = x ++ (m.text ++ y) ∧
      p.matchAt false ⟨x.reverse ++ before, m.text ++ y⟩ = some m := by
  induction h with
  | nil => cases hm
  | @plain before s c segs h hs ih =>
    rw [List.mem_cons] at hm
    obtain ⟨x, y, rfl, hmatch⟩ := ih (hm.resolve_left fun heq => nomatch heq)
    exact ⟨c :: x, y, rfl, by simpa using hmatch⟩
  | @found before s m' segs hne h hs ih =>
    rcases List.mem_cons.1 hm with heq | hm
    · obtain rfl := Segment.found.inj heq
      exact ⟨[], s, rfl, h⟩
    · obtain ⟨x, y, rfl, hmatch⟩ := ih hm
      exact ⟨m'.text ++ x, y, by simp, by simpa using hmatch⟩

/-- Where a single character is passed over there is no match. -/
theorem matchAt_eq_none {c : Char} (h : Scanned p before s (.plain c :: segs)) :
    p.matchAt false ⟨before, s⟩ = none := by
  cases h with
  | plain hnone hs => exact hnone

/-- What is scanned in front is a part of the text, and the rest is scanned behind it. -/
theorem of_append {earlier later : List Segment} (h : Scanned p before s (earlier ++ later)) :
    ∃ z, s = earlier.flatMap Segment.text ++ z ∧
      Scanned p ((earlier.flatMap Segment.text).reverse ++ before) z later := by
  induction earlier generalizing before s with
  | nil => exact ⟨s, rfl, h⟩
  | cons seg earlier ih =>
    cases h with
    | plain hnone hs =>
      obtain ⟨z, rfl, hz⟩ := ih hs
      exact ⟨z, rfl, by simpa [Segment.text] using hz⟩
    | found hne hmatch hs =>
      obtain ⟨z, rfl, hz⟩ := ih hs
      exact ⟨z, by simp [Segment.text], by simpa [Segment.text] using hz⟩

/-- The scan stops at a place and finds the match there, unless an earlier match that it finds
reaches over the place. -/
theorem found_or_reached (hp : Consuming p) {x z : List Char} (h : Scanned p before (x ++ z) segs)
    {m : Match} (hm : p.matchAt false ⟨x.reverse ++ before, z⟩ = some m) :
    (∃ earlier later, segs = earlier ++ .found m :: later ∧ earlier.flatMap Segment.text = x) ∨
      ∃ x' a b y m', x = x' ++ a ∧ z = b ++ y ∧ a ≠ [] ∧ b ≠ [] ∧ m'.text = a ++ b ∧
        .found m' ∈ segs ∧ p.matchAt false ⟨x'.reverse ++ before, m'.text ++ y⟩ = some m' := by
  generalize hs : x ++ z = s at h
  induction h generalizing x with
  | nil =>
    obtain ⟨rfl, rfl⟩ := List.append_eq_nil_iff.1 hs
    exact absurd (List.prefix_nil.1 (matchAt_text hm)) (hp _ _ hm)
  | @plain before s c segs h hs' ih =>
    cases x with
    | nil =>
      obtain rfl : z = c :: s := hs
      rw [List.reverse_nil, List.nil_append, h] at hm
      cases hm
    | cons d x =>
      obtain ⟨rfl, rfl⟩ := List.cons.inj hs
      rcases ih (by simpa using hm) rfl with
        ⟨earlier, later, rfl, hx⟩ | ⟨x', a, b, y, m', rfl, rfl, ha, hb, htext, hmem, hm'⟩
      · exact .inl ⟨.plain d :: earlier, later, rfl, by rw [List.flatMap_cons, hx]; rfl⟩
      · exact .inr ⟨d :: x', a, b, y, m', rfl, rfl, ha, hb, htext, List.mem_cons_of_mem _ hmem,
          by simpa using hm'⟩
  | @found before s m' segs hne h hs' ih =>
    -- the place is that of the match, behind it, or inside it
    by_cases hx : x = []
    · subst hx
      obtain rfl : z = m'.text ++ s := hs
      rw [List.reverse_nil, List.nil_append, h] at hm
      obtain rfl := Option.some.inj hm
      exact .inl ⟨[], segs, rfl, rfl⟩
    by_cases hpassed : m'.text <+: x
    · obtain ⟨k, rfl⟩ := hpassed
      rw [List.append_assoc, List.append_cancel_left_eq] at hs
      rcases ih (by simpa using hm) hs with
        ⟨earlier, later, rfl, hk⟩ | ⟨x', a, b, y, m'', rfl, rfl, ha, hb, htext, hmem, hm''⟩
      · exact .inl ⟨.found m' :: earlier, later, rfl, by rw [List.flatMap_cons, hk]; rfl⟩
      · exact .inr ⟨m'.text ++ x', a, b, y, m'', by simp, rfl, ha, hb, htext,
          List.mem_cons_of_mem _ hmem, by simpa using hm''⟩
    · rcases List.append_eq_append_iff.1 hs with ⟨k, htext, rfl⟩ | ⟨k, rfl, -⟩
      · have hk : k ≠ [] := by
          rintro rfl
          exact hpassed ⟨[], by rw [htext]; simp⟩
        exact .inr ⟨[], x, k, s, m', rfl, rfl, hx, hk, htext, List.mem_cons_self, h⟩
      · exact absurd (List.prefix_append _ _) hpassed

/-- The scan stops at a place and finds the match there, if the word that stands there begins
nowhere inside a match. -/
theorem split (hp : Consuming p) {w x z : List Char} (h : Scanned p before (x ++ z) segs)
    (hinside : ∀ c m, p.matchAt false c = some m → ∀ rest, NoneBegins w (m.text.drop 1) rest)
    (hw : w <+: z) {m : Match} (hm : p.matchAt false ⟨x.reverse ++ before, z⟩ = some m) :
    ∃ earlier later, segs = earlier ++ .found m :: later ∧
      earlier.flatMap Segment.text = x := by
  rcases h.found_or_reached hp hm with hfound | ⟨x', a, b, y, m', -, rfl, ha, hb, htext, -, hm'⟩
  · exact hfound
  · -- the match would reach into the text where the word begins
    obtain ⟨c, a, rfl⟩ := List.exists_cons_of_ne_nil ha
    have hdrop : m'.text.drop 1 = a ++ b := by rw [htext]; rfl
    exact absurd hw ((hinside _ _ hm' y).not_isPrefix hdrop hb)

end Scanned

theorem mem_findAll_iff {p : Pattern} {s : List Char} {m : Match} :
    m ∈ p.findAll s ↔ .found m ∈ p.segments s := by
  rw [findAll, List.mem_filterMap]
  constructor
  · rintro ⟨seg, hseg, hm⟩
    cases seg with
    | plain c => cases hm
    | found m' =>
      obtain rfl := Option.some.inj hm
      exact hseg
  · exact fun h => ⟨_, h, rfl⟩

/-- A match that is found stands at a place of the text. -/
theorem exists_place_of_mem_findAll {p : Pattern} (hp : Consuming p) {s : List Char} {m : Match}
    (hm : m ∈ p.findAll s) :
    ∃ x y, s = x ++ (m.text ++ y) ∧ p.matchAt false ⟨x.reverse, m.text ++ y⟩ = some m := by
  obtain ⟨x, y, hs, hmatch⟩ := (scanned_segments hp s).exists_place (mem_findAll_iff.1 hm)
  exact ⟨x, y, hs, by simpa using hmatch⟩

/-- A pattern occurs in a text if it has an end somewhere in it. -/
theorem occursIn_iff {p : Pattern} (hp : Consuming p) {s : List Char} :
    p.occursIn s = true ↔ ∃ u v, s = u ++ v ∧ p.ends ⟨⟨u.reverse, v⟩, []⟩ ≠ [] := by
  constructor
  · intro h
    obtain ⟨seg, hseg, hfound⟩ := List.any_eq_true.1 h
    cases seg with
    | plain c => cases hfound
    | found m =>
      obtain ⟨u, v, hs, hm⟩ := exists_place_of_mem_findAll hp (mem_findAll_iff.2 hseg)
      obtain ⟨t, ht, -⟩ := exists_end_of_matchAt hm
      exact ⟨u, _, hs, List.ne_nil_of_mem (List.mem_of_head? ht)⟩
  · rintro ⟨u, v, rfl, hends⟩
    obtain ⟨t, ht⟩ := List.exists_mem_of_ne_nil _ hends
    obtain ⟨m, hm⟩ := exists_matchAt_of_mem_ends ht
    have hv : v ≠ [] := by
      rintro rfl
      exact hp _ m hm (List.prefix_nil.1 (matchAt_text hm))
    cases hoccurs : p.occursIn (u ++ v) with
    | true => rfl
    | false =>
      have hquiet := quiet_iff.1 (quiet_of_occursIn hoccurs) u v rfl hv
      rw [List.append_nil, List.append_nil] at hquiet
      exact absurd hquiet hends

end Stencil.Pattern
