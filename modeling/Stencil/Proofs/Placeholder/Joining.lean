import Stencil.Placeholder.Joining
import Stencil.Proofs.Pattern.Finding
import Stencil.Proofs.Pattern.Language
import Stencil.Proofs.Text.Respacing

/-!
# Joining lines changes blanks only

Writing line ends as line feeds and joining the lines inside tokens are respacings of the text
(`respaced_lineFeeds`, `Delimited.respaced_join`): a run of blanks with a line feed may become one
space, and nothing else changes.  Tokens of a `Sealed` kind do not begin inside one another, so each
is found where it stands (`Sealed.split_segments`).  Therefore no line feed is left inside them once
their lines are joined (`Sealed.unbroken_join`), also if others are joined later
(`Sealed.unbroken_of_respaced`), and joining once more changes nothing (`Sealed.join_eq_self`).
-/

namespace Stencil.Placeholder

open Text Pattern

/-! ## Line ends -/

theorem lineFeeds_append_cons {c : Char} (hc : isBlank c = false) (s s' : List Char) :
    lineFeeds (s ++ c :: s') = lineFeeds s ++ c :: lineFeeds s' := by
  have hne : c ≠ '\r' ∧ c ≠ '\n' := by
    constructor
    · rintro rfl
      exact absurd hc (by decide)
    · rintro rfl
      exact absurd hc (by decide)
  fun_induction lineFeeds s with
  | case1 => simp [lineFeeds, hne.1]
  | case2 rest ih => simp [lineFeeds, ih]
  | case3 rest hrest ih =>
    have hnot : ∀ more, rest ++ c :: s' = '\n' :: more → False := by
      intro more hmore
      cases rest with
      | nil => exact hne.2 (List.cons.inj hmore).1
      | cons d rest =>
        obtain rfl := (List.cons.inj hmore).1
        exact hrest rest rfl
    rw [List.cons_append, lineFeeds, ih, List.cons_append]
    exact hnot
  | case4 d rest _ hd ih =>
    rw [List.cons_append, lineFeeds, ih, List.cons_append]
    · exact fun _ heq => absurd heq hd
    · exact hd

theorem lineFeeds_append {s : List Char} (h : '\r' ∉ s) (s' : List Char) :
    lineFeeds (s ++ s') = s ++ lineFeeds s' := by
  induction s with
  | nil => rfl
  | cons c s ih =>
    rw [List.mem_cons, not_or] at h
    have hc : c ≠ '\r' := fun heq => h.1 heq.symm
    rw [List.cons_append, lineFeeds, ih h.2, List.cons_append]
    · exact fun _ heq => absurd heq hc
    · exact hc

theorem allBlank_lineFeeds {s : List Char} (h : allBlank s = true) :
    allBlank (lineFeeds s) = true := by
  have hcons {c : Char} {r : List Char} (hc : isBlank c = true) (hr : allBlank r = true) :
      allBlank (c :: r) = true :=
    allBlank_iff.2 (List.forall_mem_cons.2 ⟨hc, allBlank_iff.1 hr⟩)
  rw [allBlank_iff] at h
  fun_induction lineFeeds s with
  | case1 => rfl
  | case2 rest ih =>
    rw [List.forall_mem_cons, List.forall_mem_cons] at h
    exact hcons (by decide) (ih h.2.2)
  | case3 rest _ ih => exact hcons (by decide) (ih (List.forall_mem_cons.1 h).2)
  | case4 c rest _ _ ih =>
    rw [List.forall_mem_cons] at h
    exact hcons h.1 (ih h.2)

theorem respaced_lineFeeds (s : List Char) :
    Respaced (fun r r' => r' = lineFeeds r) s (lineFeeds s) :=
  .of_function (fun _ => allBlank_lineFeeds) (fun _ _ _ _ hc => lineFeeds_append_cons hc _ _) s

theorem tight_lineFeeds : Tight fun r r' => r' = lineFeeds r where
  nil := rfl
  eq_nil_of_left _ h := h
  eq_nil_of_right r h := by
    fun_cases lineFeeds r <;> simp_all [lineFeeds]

/-! ## Lines -/

/-- One space may be written for a run that holds a line feed. -/
def Joins (r r' : List Char) : Prop := r' = r ∨ ('\n' ∈ r ∧ r' = [' '])

theorem tight_joins : Tight Joins where
  nil := .inl rfl
  eq_nil_of_left := by
    rintro r (rfl | ⟨h, -⟩)
    · rfl
    · cases h
  eq_nil_of_right := by
    rintro r (rfl | ⟨-, h⟩)
    · rfl
    · cases h

theorem joinLinesFrom_append {r : List Char} (hr : allBlank r = true) (run s : List Char) :
    joinLinesFrom run (r ++ s) = joinLinesFrom (r.reverse ++ run) s := by
  induction r generalizing run with
  | nil => rfl
  | cons c r ih =>
    have hc : isBlank c = true ∧ allBlank r = true := by simpa [allBlank] using hr
    rw [List.cons_append, joinLinesFrom, if_pos hc.1, ih hc.2]
    simp

theorem joinLines_of_allBlank {r : List Char} (hr : allBlank r = true) :
    joinLines r = if '\n' ∈ r then [' '] else r := by
  have hrun := joinLinesFrom_append hr [] []
  rw [List.append_nil, List.append_nil] at hrun
  rw [joinLines, hrun, joinLinesFrom, joinedRun]
  simp

theorem joinLines_append_cons {r : List Char} (hr : allBlank r = true) {c : Char}
    (hc : isBlank c = false) (s : List Char) :
    joinLines (r ++ c :: s) = joinLines r ++ c :: joinLines s := by
  have hrun := joinLinesFrom_append hr [] []
  rw [List.append_nil] at hrun
  rw [joinLines, joinLinesFrom_append hr, joinLinesFrom, hc, joinLines, hrun, joinLinesFrom]
  rfl

theorem joinLines_append {s : List Char} (h : ∀ c ∈ s, isBlank c = false) (s' : List Char) :
    joinLines (s ++ s') = s ++ joinLines s' := by
  induction s with
  | nil => rfl
  | cons c s ih =>
    rw [List.forall_mem_cons] at h
    have hcons := joinLines_append_cons (r := []) rfl h.1 (s ++ s')
    rw [ih h.2] at hcons
    exact hcons

theorem allBlank_joinLines {r : List Char} (hr : allBlank r = true) :
    allBlank (joinLines r) = true := by
  rw [joinLines_of_allBlank hr]
  split
  · decide
  · exact hr

theorem respaced_joinLines (s : List Char) : Respaced Joins s (joinLines s) := by
  have hrespaced : Respaced (fun r r' => r' = joinLines r) s (joinLines s) :=
    .of_function (fun _ => allBlank_joinLines) (fun _ _ _ hr hc => joinLines_append_cons hr hc _) s
  refine hrespaced.mono ?_
  rintro r _ hr rfl
  rw [joinLines_of_allBlank hr]
  split
  · rename_i hfeed
    exact .inr ⟨hfeed, rfl⟩
  · exact .inl rfl

theorem lineFeed_notMem_joinLinesFrom (run s : List Char) : '\n' ∉ joinLinesFrom run s := by
  have hrun (run : List Char) : '\n' ∉ joinedRun run := by
    unfold joinedRun
    split
    · decide
    · rename_i hnot
      simpa using hnot
  induction s generalizing run with
  | nil => exact hrun run
  | cons c s ih =>
    rw [joinLinesFrom]
    split
    · exact ih (c :: run)
    · rename_i hc
      rw [List.mem_append, List.mem_cons]
      rintro (h | rfl | h)
      · exact hrun run h
      · exact hc (by decide)
      · exact ih [] h

/-- No line feed is left where lines have been joined. -/
theorem lineFeed_notMem_joinLines (s : List Char) : '\n' ∉ joinLines s :=
  lineFeed_notMem_joinLinesFrom [] s

/-- A text without line feeds has no lines to join. -/
theorem eq_of_respaced_joins {s s' : List Char} (h : Respaced Joins s s') (hs : '\n' ∉ s) :
    s' = s := by
  induction h with
  | last hr hr' h => exact h.resolve_right fun hjoin => hs hjoin.1
  | @next r r' s s' c hr hr' h hc hs' ih =>
    rw [List.mem_append, List.mem_cons, not_or, not_or] at hs
    rw [h.resolve_right fun hjoin => hs.1 hjoin.1, ih hs.2.2]

/-- Joining adds no character but the space. -/
theorem mem_of_respaced_joins {s s' : List Char} (h : Respaced Joins s s') {c : Char}
    (hc : c ≠ ' ') (hmem : c ∈ s') : c ∈ s := by
  have hrun {r r' : List Char} (hjoins : Joins r r') (hmem : c ∈ r') : c ∈ r := by
    rcases hjoins with rfl | ⟨-, rfl⟩
    · exact hmem
    · exact absurd (List.mem_singleton.1 hmem) hc
  induction h with
  | last hr hr' h => exact hrun h hmem
  | next hr hr' h hd hs ih =>
    rw [List.mem_append, List.mem_cons] at hmem ⊢
    exact hmem.imp (hrun h) (Or.imp id ih)

/-- Joining adds no line feed. -/
theorem count_lineFeed_le {s s' : List Char} (h : Respaced Joins s s') :
    s'.count '\n' ≤ s.count '\n' := by
  have hrun {r r' : List Char} (hjoins : Joins r r') : r'.count '\n' ≤ r.count '\n' := by
    rcases hjoins with rfl | ⟨-, rfl⟩
    · exact Nat.le_refl _
    · exact Nat.zero_le _
  induction h with
  | last hr hr' h => exact hrun h
  | next hr hr' h hc hs ih =>
    rw [List.count_append, List.count_append, List.count_cons, List.count_cons]
    have hfirst := hrun h
    omega

/-- Joining twice is joining. -/
theorem respaced_joins_trans {s s' s'' : List Char} (h : Respaced Joins s s')
    (h' : Respaced Joins s' s'') : Respaced Joins s s'' := by
  refine (h.comp h').mono ?_
  rintro r r'' - ⟨r', rfl | ⟨hr, rfl⟩, hjoin⟩
  · exact hjoin
  · exact .inr ⟨hr, hjoin.resolve_right fun hspace => absurd hspace.1 (by decide)⟩

/-! ## Tokens -/

namespace Enclosure

def token (e : Enclosure) (inner : List Char) : List Char := e.opening ++ (inner ++ e.closing)

/-- Tokens of the kind open and close with a word, and their texts are given by a plain pattern. -/
structure Delimited (e : Enclosure) : Prop where
  plain : e.inner.isPlain = true
  opening_ne : e.opening ≠ []
  opening_solid : ∀ c ∈ e.opening, isBlank c = false
  closing_ne : e.closing ≠ []
  closing_solid : ∀ c ∈ e.closing, isBlank c = false

/-- What the pattern matches are tokens of the kind. -/
def MatchedBy (e : Enclosure) (p : Pattern) : Prop :=
  ∀ c m, p.matchAt false c = some m → ∃ inner, Spells e.inner inner ∧ m.text = e.token inner

/-- What a segment becomes when the lines inside tokens are joined. -/
def joinedSegment (e : Enclosure) : Segment → List Char
  | .plain c => [c]
  | .found m => e.joined m

theorem join_eq (e : Enclosure) (s : List Char) :
    e.join s = (e.pattern.segments s).flatMap e.joinedSegment := rfl

/-- Where joining leaves every token as it is, the text stays. -/
theorem join_eq_self_of_found {e : Enclosure} {s : List Char}
    (h : ∀ m ∈ e.pattern.findAll s, e.joined m = m.text) : e.join s = s := by
  have hsegs : ∀ seg ∈ e.pattern.segments s, e.joinedSegment seg = seg.text := by
    intro seg hseg
    cases seg with
    | plain c => rfl
    | found m => exact h m (mem_findAll_iff.2 hseg)
  rw [join_eq, List.flatMap_def, List.map_congr_left hsegs, ← List.flatMap_def,
    flatMap_text_segments]

theorem token_append (e : Enclosure) (inner y : List Char) :
    e.token inner ++ y = e.opening ++ (inner ++ (e.closing ++ y)) := by
  simp only [token, List.append_assoc]

theorem token_injective {e : Enclosure} {u v : List Char} (h : e.token u = e.token v) : u = v :=
  List.append_cancel_right (List.append_cancel_left h)

namespace Delimited

variable {e : Enclosure} (he : e.Delimited)

include he

/-- A match is a token with its text. -/
theorem of_matchAt {c : Cursor} {m : Match} (h : e.pattern.matchAt false c = some m) :
    ∃ inner, Spells e.inner inner ∧ m.text = e.token inner ∧ m.group? 1 = some inner := by
  obtain ⟨t, ht, hafter, hcaptures⟩ := exists_end_of_matchAt h
  obtain ⟨inner, rest, hrest, hspells, rfl⟩ :=
    (mem_ends_enclosed he.plain).1 (List.mem_of_mem_head? ht)
  refine ⟨inner, hspells, ?_, ?_⟩
  · rw [hrest, ← token_append] at hafter
    exact (List.append_cancel_right hafter).symm
  · rw [Match.group?, hcaptures]
    exact congrArg some (Capture.text_append inner _)

theorem matchedBy_pattern : e.MatchedBy e.pattern := by
  intro c m hm
  obtain ⟨inner, hspells, htext, -⟩ := he.of_matchAt hm
  exact ⟨inner, hspells, htext⟩

theorem consuming {p : Pattern} (hp : e.MatchedBy p) : p.Consuming := by
  intro c m hm hnil
  obtain ⟨inner, -, htext⟩ := hp c m hm
  rw [htext] at hnil
  exact he.opening_ne (List.append_eq_nil_iff.1 hnil).1

theorem of_mem_segments {s : List Char} {m : Match} (hm : .found m ∈ e.pattern.segments s) :
    ∃ inner, m.text = e.token inner ∧ m.group? 1 = some inner := by
  obtain ⟨x, y, -, hmatch⟩ :=
    exists_place_of_mem_findAll (he.consuming he.matchedBy_pattern) (mem_findAll_iff.2 hm)
  obtain ⟨inner, -, htext, hgroup⟩ := he.of_matchAt hmatch
  exact ⟨inner, htext, hgroup⟩

/-- Joining the lines in some segments respaces their text; a run of blanks in front stays. -/
theorem respaced_segments (segs : List Segment)
    (h : ∀ m, .found m ∈ segs → ∃ inner, m.text = e.token inner ∧ m.group? 1 = some inner)
    {r : List Char} (hr : allBlank r = true) :
    Respaced Joins (r ++ segs.flatMap Segment.text) (r ++ segs.flatMap e.joinedSegment) := by
  induction segs generalizing r with
  | nil => exact .last (by simpa using hr) (by simpa using hr) (.inl rfl)
  | cons seg segs ih =>
    have hrest {r : List Char} (hr : allBlank r = true) := ih
      (fun m hm => h m (List.mem_cons_of_mem _ hm)) hr
    rw [List.flatMap_cons, List.flatMap_cons]
    cases seg with
    | plain c =>
      cases hc : isBlank c with
      | true =>
        have hrun : allBlank (r ++ [c]) = true :=
          allBlank_append.2 ⟨hr, by simpa [allBlank] using hc⟩
        simpa [Segment.text, joinedSegment] using hrest hrun
      | false => exact .next hr hr (.inl rfl) hc (hrest (r := []) rfl)
    | found m =>
      obtain ⟨inner, htext, hgroup⟩ := h m List.mem_cons_self
      have hjoined : e.joined m = e.opening ++ (joinLines inner ++ e.closing) := by
        rw [joined, hgroup, Option.getD_some, List.append_assoc]
      have hinner : Respaced Joins (inner ++ (e.closing ++ segs.flatMap Segment.text))
          (joinLines inner ++ (e.closing ++ segs.flatMap e.joinedSegment)) :=
        (respaced_joinLines inner).append_word tight_joins he.closing_solid he.closing_ne
          (hrest (r := []) rfl)
      have hfront : Respaced Joins r r := .last hr hr (.inl rfl)
      simp only [Segment.text, joinedSegment, htext, hjoined, token, List.append_assoc]
      exact hfront.append_word tight_joins he.opening_solid he.opening_ne hinner

/-- Where the word that opens tokens does not stand, there is nothing to join. -/
theorem join_eq_self_of_not_isInfix {s : List Char} (h : ¬ e.opening <:+: s) : e.join s = s := by
  refine join_eq_self_of_found fun m hm => ?_
  obtain ⟨x, y, rfl, hmatch⟩ :=
    exists_place_of_mem_findAll (he.consuming he.matchedBy_pattern) hm
  obtain ⟨inner, -, htext, -⟩ := he.of_matchAt hmatch
  rw [htext, token_append] at h
  exact absurd ⟨x, inner ++ (e.closing ++ y), List.append_assoc ..⟩ h

theorem respaced_join (s : List Char) : Respaced Joins s (e.join s) := by
  have hrespaced := he.respaced_segments (e.pattern.segments s)
    (fun m hm => he.of_mem_segments hm) (r := []) rfl
  rwa [List.nil_append, List.nil_append, flatMap_text_segments] at hrespaced

end Delimited

/-- Moreover no token begins inside another one, the closing word cannot stand in a text, and
whether a text may stand in a token does not depend on its blanks. -/
structure Sealed (e : Enclosure) : Prop extends Delimited e where
  apart : ∀ inner rest, Spells e.inner inner → NoneBegins e.opening ((e.token inner).drop 1) rest
  closing_notMem : ∀ inner, Spells e.inner inner → ∀ c ∈ e.closing.head?, c ∉ inner
  respaced : ∀ R u v, Respaced R u v → Spells e.inner u → Spells e.inner v

/-- No token in the text holds a line feed. -/
def Unbroken (e : Enclosure) (s : List Char) : Prop :=
  ∀ x inner y, s = x ++ (e.token inner ++ y) → Spells e.inner inner → '\n' ∉ inner

namespace Sealed

variable {e : Enclosure} (he : e.Sealed)

include he

/-- Tokens that begin at one place have one text. -/
theorem inner_unique {u v y z : List Char} (hu : Spells e.inner u) (hv : Spells e.inner v)
    (h : e.token u ++ y = e.token v ++ z) : u = v := by
  obtain ⟨c, closing, hclosing⟩ := List.exists_cons_of_ne_nil he.closing_ne
  have hc {w : List Char} (hw : Spells e.inner w) : c ∉ w :=
    he.closing_notMem w hw c (by simp [hclosing])
  rw [token_append, token_append, hclosing] at h
  rcases cut_cases (List.append_cancel_left h) with ⟨huv, -, -⟩ | ⟨k, rfl, -⟩ | ⟨k, rfl, -⟩
  · exact huv
  · exact absurd (by simp) (hc hv)
  · exact absurd (by simp) (hc hu)

section

variable {p : Pattern} (hp : e.MatchedBy p) {inner y : List Char} {m : Match}

include hp

/-- Where a token stands, nothing but this token is matched. -/
theorem text_of_matchAt {before : List Char} (hspells : Spells e.inner inner)
    (hm : p.matchAt false ⟨before, e.token inner ++ y⟩ = some m) : m.text = e.token inner := by
  obtain ⟨inner', hspells', htext⟩ := hp _ _ hm
  obtain ⟨z, hz⟩ := matchAt_text hm
  rw [htext] at hz ⊢
  rw [he.inner_unique hspells' hspells hz]

/-- The scan stops at every token. -/
theorem split_segments {x : List Char}
    (hm : p.matchAt false ⟨x.reverse, e.token inner ++ y⟩ = some m) :
    ∃ earlier later, p.segments (x ++ (e.token inner ++ y)) = earlier ++ .found m :: later ∧
      earlier.flatMap Segment.text = x := by
  have hconsuming := he.consuming hp
  have hinside : ∀ c m, p.matchAt false c = some m →
      ∀ rest, NoneBegins e.opening (m.text.drop 1) rest := by
    intro c m hm rest
    obtain ⟨inner', hspells', htext⟩ := hp c m hm
    rw [htext]
    exact he.apart inner' rest hspells'
  have hopening : e.opening <+: e.token inner ++ y := by
    rw [token_append]
    exact List.prefix_append _ _
  exact (scanned_segments hconsuming _).split hconsuming hinside hopening (by simpa using hm)

end

/-- Where a token stands, its lines are joined. -/
theorem join_token {x inner y : List Char} (hspells : Spells e.inner inner) :
    ∃ x' y', e.join (x ++ (e.token inner ++ y)) = x' ++ (e.token (joinLines inner) ++ y') ∧
      Respaced Joins x x' := by
  obtain ⟨m, hm⟩ : ∃ m, e.pattern.matchAt false ⟨x.reverse, e.token inner ++ y⟩ = some m :=
    exists_matchAt_of_mem_ends ((mem_ends_enclosed he.plain).2
      ⟨inner, y, e.token_append inner y, hspells, rfl⟩)
  obtain ⟨inner', hspells', htext, hgroup⟩ := he.of_matchAt hm
  obtain rfl : inner' = inner := token_injective
    (htext.symm.trans (he.text_of_matchAt he.matchedBy_pattern hspells hm))
  obtain ⟨earlier, later, hsegs, hx⟩ := he.split_segments he.matchedBy_pattern hm
  have hearlier := he.respaced_segments earlier
    (fun m hm => he.of_mem_segments (hsegs ▸ List.mem_append_left _ hm)) (r := []) rfl
  rw [List.nil_append, List.nil_append, hx] at hearlier
  refine ⟨_, later.flatMap e.joinedSegment, ?_, hearlier⟩
  rw [join_eq, hsegs, List.flatMap_append, List.flatMap_cons]
  simp only [joinedSegment, joined, hgroup, Option.getD_some, token, List.append_assoc]

/-- The places of tokens are the same in a text and its respacings. -/
theorem token_of_respaced {R : List Char → List Char → Prop} (hR : Tight R)
    {x inner y s' : List Char} (h : Respaced R (x ++ (e.token inner ++ y)) s')
    (hspells : Spells e.inner inner) :
    ∃ x' inner' y', s' = x' ++ (e.token inner' ++ y') ∧ Spells e.inner inner' ∧
      Respaced R x x' ∧ Respaced R inner inner' := by
  rw [token_append] at h
  obtain ⟨x', z, rfl, hx, hz⟩ := h.split_word hR he.opening_solid he.opening_ne
  obtain ⟨inner', y', rfl, hinner, -⟩ := hz.split_word hR he.closing_solid he.closing_ne
  exact ⟨x', inner', y', by rw [token_append], he.respaced R _ _ hinner hspells, hx, hinner⟩

/-- Where no token holds a line feed, what is matched holds none. -/
theorem lineFeed_notMem_match {p : Pattern} (hp : e.MatchedBy p) {x y : List Char} {m : Match}
    (hs : e.Unbroken (x ++ y)) (hm : p.matchAt false ⟨x.reverse, y⟩ = some m) : '\n' ∉ m.text := by
  have hword {w : List Char} (hw : ∀ c ∈ w, isBlank c = false) : '\n' ∉ w := fun hmem =>
    absurd (hw _ hmem) (by decide)
  obtain ⟨inner, hspells, htext⟩ := hp _ _ hm
  obtain ⟨z, rfl⟩ := matchAt_text hm
  have hinner : '\n' ∉ inner := hs x inner z (by rw [← htext]) hspells
  rw [htext, token, List.mem_append, List.mem_append, not_or, not_or]
  exact ⟨hword he.opening_solid, hinner, hword he.closing_solid⟩

theorem unbroken_of_respaced {s s' : List Char} (hs : e.Unbroken s) (h : Respaced Joins s s') :
    e.Unbroken s' := by
  rintro x' inner' y' rfl hspells' hfeed
  obtain ⟨x, inner, y, rfl, hspells, -, hinner⟩ :=
    he.token_of_respaced tight_joins.symm h.symm hspells'
  exact hs x inner y rfl hspells (mem_of_respaced_joins hinner.symm (by decide) hfeed)

/-- Once the lines inside tokens are joined, no token holds a line feed. -/
theorem unbroken_join (s : List Char) : e.Unbroken (e.join s) := by
  intro x' inner' y' hjoin hspells'
  have hrespaced := he.respaced_join s
  rw [hjoin] at hrespaced
  obtain ⟨x, inner, y, rfl, hspells, hx, -⟩ :=
    he.token_of_respaced tight_joins.symm hrespaced.symm hspells'
  obtain ⟨x'', y'', hjoin', hx'⟩ := he.join_token (x := x) (y := y) hspells
  have hspells'' := he.respaced _ _ _ (respaced_joinLines inner) hspells
  -- the token stands where the joined one does, behind as many characters that are no blanks
  have hplace : x' ++ (e.token inner' ++ y') = x'' ++ (e.token (joinLines inner) ++ y'') :=
    hjoin.symm.trans hjoin'
  have hsame : x' = x'' := by
    obtain ⟨c, opening, hopening⟩ := List.exists_cons_of_ne_nil he.opening_ne
    have hc : isBlank c = false := he.opening_solid c (by simp [hopening])
    simp only [token_append, hopening, List.cons_append] at hplace
    exact cut_unique hplace hc hc (by rw [hx.solid_eq, hx'.solid_eq])
  subst hsame
  rw [he.inner_unique hspells' hspells'' (List.append_cancel_left hplace)]
  exact lineFeed_notMem_joinLines inner

/-- Without line feeds inside tokens there is nothing to join. -/
theorem join_eq_self {s : List Char} (hs : e.Unbroken s) : e.join s = s := by
  refine join_eq_self_of_found fun m hm => ?_
  obtain ⟨x, y, hplace, hmatch⟩ :=
    exists_place_of_mem_findAll (he.consuming he.matchedBy_pattern) hm
  obtain ⟨inner, hspells, htext, hgroup⟩ := he.of_matchAt hmatch
  have hfeed := hs x inner y (by rw [← htext, hplace]) hspells
  simp only [joined, hgroup, Option.getD_some, htext, token,
    eq_of_respaced_joins (respaced_joinLines inner) hfeed, List.append_assoc]

end Sealed

end Enclosure

end Stencil.Placeholder
