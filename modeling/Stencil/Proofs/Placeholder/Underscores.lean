import Stencil.Proofs.Placeholder.Runs

/-!
# Tokens between double underscores

In a token with a `Lone` text the underscores around the text are the only pair, so such a token is
matched as a whole or not at all (`Lone.segments_eq`, `Lone.findAll_eq_nil`).  A name that is broken
at one of its spaces is of the kind whose lines are joined if it has no other space
(`spells_brokenUnderscores_append_iff`).  Hence normalizing joins it in that case, and leaves it
broken otherwise (`normalize_broken`).
-/

namespace Stencil.Placeholder

open Text Pattern

/-! ## Tokens on their own -/

/-- Where no pair of underscores begins in a text, the only one is the pair behind it. -/
theorem eq_of_pair {s x z : List Char} (hs : NoneBegins ['_', '_'] s ['_', '_'])
    (h : s ++ ['_', '_'] = x ++ (['_', '_'] ++ z)) : x = s ∧ z = [] := by
  rcases List.append_eq_append_iff.1 h with ⟨k, rfl, hk⟩ | ⟨k, rfl, hk⟩
  · have hlength := congrArg List.length hk
    simp only [List.length_append, List.length_cons, List.length_nil] at hlength
    obtain rfl : k = [] := List.eq_nil_of_length_eq_zero (by omega)
    exact ⟨List.append_nil s, List.eq_nil_of_length_eq_zero (by omega)⟩
  · by_cases hnil : k = []
    · subst hnil
      exact ⟨(List.append_nil x).symm, List.append_cancel_left hk⟩
    · exact absurd ⟨z, hk⟩ (hs.not_isPrefix rfl hnil)

/-- In the token around the text no pair of underscores stands but those around the text. -/
def Lone (w : List Char) : Prop := NoneBegins ['_', '_'] ('_' :: w) ['_', '_']

namespace Lone

variable {e : Enclosure} (he : e.Delimited) (hopening : e.opening = ['_', '_'])
  (hclosing : e.closing = ['_', '_']) {w : List Char} (hw : Lone w)

section

include hopening hclosing hw

/-- The token is the only one that stands in it. -/
theorem eq_of_token {x w' y : List Char} (h : e.token w = x ++ (e.token w' ++ y)) :
    x = [] ∧ w' = w ∧ y = [] := by
  rw [e.token_append, Enclosure.token, hopening, hclosing] at h
  cases x with
  | nil =>
    have hback : '_' :: w ++ ['_', '_'] = '_' :: w' ++ (['_', '_'] ++ y) := (List.cons.inj h).2
    obtain ⟨hname, hy⟩ := eq_of_pair hw hback
    exact ⟨rfl, (List.cons.inj hname).2, hy⟩
  | cons c x =>
    -- behind the first pair there is no room for two more
    have hfront : '_' :: w ++ ['_', '_'] = x ++ (['_', '_'] ++ (w' ++ (['_', '_'] ++ y))) :=
      (List.cons.inj h).2
    have hnil := (eq_of_pair hw hfront).2
    simp at hnil

include he

/-- If the pattern gives the text, the token is the only segment. -/
theorem segments_eq (hspells : Spells e.inner w) :
    ∃ m, e.pattern.segments (e.token w) = [.found m] ∧ m.text = e.token w ∧
      m.group? 1 = some w := by
  obtain ⟨m, hm⟩ : ∃ m, e.pattern.matchAt false ⟨[], e.token w⟩ = some m := by
    refine exists_matchAt_of_mem_ends ((mem_ends_enclosed he.plain).2 ⟨w, [], ?_, hspells, rfl⟩)
    rw [← e.token_append, List.append_nil]
  obtain ⟨w', -, htext, hgroup⟩ := he.of_matchAt hm
  obtain ⟨y, hy⟩ := matchAt_text hm
  have hwhole : e.token w = [] ++ (e.token w' ++ y) := by rw [← htext]; exact hy.symm
  obtain ⟨-, rfl, rfl⟩ := hw.eq_of_token hopening hclosing hwhole
  refine ⟨m, ?_, htext, hgroup⟩
  -- the scan begins with the match, and nothing is left behind it
  have hscan := scanned_segments (he.consuming he.matchedBy_pattern) (e.token w')
  generalize e.pattern.segments (e.token w') = segs at hscan
  generalize e.token w' = s at *
  cases hscan with
  | nil => exact absurd htext (he.consuming he.matchedBy_pattern _ _ hm)
  | plain h hs =>
    rw [hm] at h
    cases h
  | @found _ rest m' segs hne h hs =>
    obtain rfl : m' = m := Option.some.inj (h.symm.trans hm)
    obtain rfl : rest = [] := List.append_cancel_left (htext.symm.trans (List.append_nil _).symm)
    rw [hs.eq_nil]

/-- If it does not, nothing is found in the token. -/
theorem findAll_eq_nil (hnot : ¬ Spells e.inner w) : e.pattern.findAll (e.token w) = [] := by
  refine List.eq_nil_iff_forall_not_mem.2 fun m hm => ?_
  obtain ⟨x, y, hplace, hmatch⟩ :=
    exists_place_of_mem_findAll (he.consuming he.matchedBy_pattern) hm
  obtain ⟨w', hspells, htext, -⟩ := he.of_matchAt hmatch
  rw [htext] at hplace
  obtain ⟨-, rfl, -⟩ := hw.eq_of_token hopening hclosing hplace
  exact hnot hspells

theorem join_eq (hspells : Spells e.inner w) : e.join (e.token w) = e.token (joinLines w) := by
  obtain ⟨m, hsegs, -, hgroup⟩ := hw.segments_eq he hopening hclosing hspells
  rw [Enclosure.join_eq, hsegs, List.flatMap_singleton]
  simp only [Enclosure.joinedSegment, Enclosure.joined, hgroup, Option.getD_some, Enclosure.token,
    List.append_assoc]

theorem join_eq_self (hnot : ¬ Spells e.inner w) : e.join (e.token w) = e.token w := by
  refine Enclosure.join_eq_self_of_found fun m hm => ?_
  rw [hw.findAll_eq_nil he hopening hclosing hnot] at hm
  cases hm

end

end Lone

theorem Runs.lone_append {joint : Char → Prop} {u x : List Char} (hu : Runs joint u)
    (hx : NoneBegins ['_', '_'] x ['_', '_']) : Lone (u ++ x) := by
  refine ⟨fun hp => ?_, noneBegins_append.2 ⟨hu.noneBegins _, hx⟩⟩
  obtain ⟨c, rest, rfl, hc⟩ := hu.exists_cons
  obtain rfl : '_' = c := (List.cons_prefix_cons.1 (List.cons_prefix_cons.1 hp).2).1
  exact absurd hc (by decide)

theorem Runs.lone {joint : Char → Prop} {s : List Char} (h : Runs joint s) : Lone s := by
  have hlone := h.lone_append (x := []) trivial
  rwa [List.append_nil] at hlone

/-! ## Names that are broken at a space -/

/-- Spaces and tabs. -/
def IsIndent (g : List Char) : Prop := ∀ c ∈ g, c = ' ' ∨ c = '\t'

/-- A line end, with spaces and tabs around it. -/
def IsBreak (b : List Char) : Prop :=
  ∃ pre nl post, b = pre ++ (nl ++ post) ∧ nl ∈ [['\n'], ['\r', '\n'], ['\r']] ∧
    IsIndent pre ∧ IsIndent post

/-- A line feed, with spaces and tabs around it. -/
def IsFeed (r : List Char) : Prop :=
  ∃ pre post, r = pre ++ '\n' :: post ∧ IsIndent pre ∧ IsIndent post

theorem IsIndent.allBlank {g : List Char} (h : IsIndent g) : allBlank g = true := by
  refine allBlank_iff.2 fun c hc => ?_
  rcases h c hc with rfl | rfl
  · decide
  · decide

theorem IsIndent.notMem {g : List Char} (h : IsIndent g) {c : Char} (hspace : c ≠ ' ')
    (htab : c ≠ '\t') : c ∉ g :=
  fun hmem => (h c hmem).elim hspace htab

/-- Such a line end is written as such a line feed. -/
theorem IsBreak.exists_lineFeeds {b : List Char} (h : IsBreak b) :
    ∃ r, IsFeed r ∧ ∀ x y, '\r' ∉ x → '\r' ∉ y → '\n' ∉ y →
      lineFeeds (x ++ (b ++ y)) = x ++ (r ++ y) := by
  obtain ⟨pre, nl, post, rfl, hnl, hpre, hpost⟩ := h
  have hplain {g : List Char} (hg : IsIndent g) : '\r' ∉ g := hg.notMem (by decide) (by decide)
  refine ⟨pre ++ '\n' :: post, ⟨pre, post, rfl, hpre, hpost⟩, fun x y hx hy hfeed => ?_⟩
  have hrest : lineFeeds (post ++ y) = post ++ y := by
    rw [lineFeeds_append (hplain hpost), lineFeeds_eq_self hy]
  have hend : lineFeeds (nl ++ (post ++ y)) = '\n' :: (post ++ y) := by
    simp only [List.mem_cons, List.not_mem_nil, or_false] at hnl
    rcases hnl with rfl | rfl | rfl
    · rw [lineFeeds_append (by decide), hrest]
      rfl
    · show lineFeeds ('\r' :: '\n' :: (post ++ y)) = _
      rw [lineFeeds, hrest]
    · -- no line feed stands behind the carriage return
      have hnone : ∀ more, post ++ y = '\n' :: more → False := by
        intro more hmore
        have hmem : '\n' ∈ post ++ y := by simp [hmore]
        exact (List.mem_append.1 hmem).elim (hpost.notMem (by decide) (by decide)) hfeed
      rw [List.singleton_append, lineFeeds, hrest]
      exact hnone
  rw [lineFeeds_append hx, List.append_assoc, lineFeeds_append (hplain hpre), List.append_assoc,
    hend, List.append_assoc, List.cons_append]

/-- If a text is blanks and a part without blanks, then a part of it behind blanks that begins
without a blank holds no blanks either. -/
theorem notBlank_of_append_eq {g v g' v' : List Char} (h : g ++ v = g' ++ v')
    (hg' : allBlank g' = true) (hv' : ∀ c ∈ v', isBlank c = false)
    (hv : ∀ c ∈ v.head?, isBlank c = false) : ∀ c ∈ v, isBlank c = false := by
  rcases List.append_eq_append_iff.1 h with ⟨k, rfl, rfl⟩ | ⟨k, rfl, rfl⟩
  · cases k with
    | nil => exact hv'
    | cons d k =>
      have hblank := allBlank_iff.1 hg' d (by simp)
      rw [hv d rfl] at hblank
      cases hblank
  · exact fun d hd => hv' d (List.mem_append_right k hd)

/-- The same of a part in front of blanks that ends without a blank. -/
theorem notBlank_of_append_eq_left {u g u' g' : List Char} (h : u ++ g = u' ++ g')
    (hg' : allBlank g' = true) (hu' : ∀ c ∈ u', isBlank c = false)
    (hu : ∀ c ∈ u.getLast?, isBlank c = false) : ∀ c ∈ u, isBlank c = false := by
  have hreverse : g.reverse ++ u.reverse = g'.reverse ++ u'.reverse := by
    rw [← List.reverse_append, h, List.reverse_append]
  have hblank : allBlank g'.reverse = true := by
    rwa [allBlank, List.all_reverse]
  simpa using notBlank_of_append_eq hreverse hblank (by simpa using hu') (by simpa using hu)

theorem Runs.lineFeed_notMem {s : List Char} (h : Runs IsJoint s) : '\n' ∉ s := by
  intro hmem
  rcases h.mem _ hmem with h | h | h
  · exact absurd h (by decide)
  · cases h
  · cases h

/-- A name that is broken at a space is a broken name of the kind that is joined if it has no other
space. -/
theorem spells_brokenUnderscores_append_iff {u r v : List Char} (hu : Runs IsJoint u)
    (hr : IsFeed r) (hv : Runs IsJoint v) :
    Spells brokenUnderscores.inner (u ++ (r ++ v)) ↔ ' ' ∉ u ++ v := by
  obtain ⟨pre, post, rfl, hpre, hpost⟩ := hr
  rw [spells_brokenUnderscores_iff]
  constructor
  · rintro ⟨u', g, b, v', hcut, hu', hg, hb, hv'⟩
    have hname {s : List Char} (hs : Runs (· = '_') s) : ∀ c ∈ s, isBlank c = false :=
      hs.notBlank fun c _ hc => by rw [hc]; decide
    have hfront {u g : List Char} (hu : '\n' ∉ u) (hg : IsIndent g) : '\n' ∉ u ++ g := fun hmem =>
      (List.mem_append.1 hmem).elim hu (hg.notMem (by decide) (by decide))
    -- both names are broken at the first line feed
    obtain ⟨hleft, hright⟩ : u ++ pre = u' ++ g ∧ post ++ v = b ++ v' := by
      refine cut_at_first (c := '\n') (by simpa using hcut) (hfront hu.lineFeed_notMem hpre)
        (hfront (fun hmem => ?_) hg)
      exact absurd (hname hu' _ hmem) (by decide)
    have hspace : isBlank ' ' = true := by decide
    rw [List.mem_append]
    rintro (hmem | hmem)
    · rw [notBlank_of_append_eq_left hleft (IsIndent.allBlank hg) (hname hu') hu.last_notBlank _
        hmem] at hspace
      cases hspace
    · rw [notBlank_of_append_eq hright hb (hname hv') hv.head_notBlank _ hmem] at hspace
      cases hspace
  · intro h
    rw [List.mem_append, not_or] at h
    have hnames {s : List Char} (hs : Runs IsJoint s) (hspace : ' ' ∉ s) : Runs (· = '_') s := by
      refine hs.mono fun c hc hjoint => hjoint.resolve_right ?_
      rintro rfl
      exact hspace hc
    refine ⟨u, pre, post, v, ?_, hnames hu h.1, hpre, hpost.allBlank, hnames hv h.2⟩
    rw [List.append_assoc, List.cons_append]

/-! ## Tokens in a normalized text -/

/-- May the character stand in a name between double underscores, broken or not? -/
def isNameChar (c : Char) : Bool :=
  CharSet.asciiAlnum.has c || ['_', ' ', '\t', '\n'].contains c

/-- Only such characters stand in the text. -/
def OfNameChars (s : List Char) : Prop := ∀ c ∈ s, isNameChar c = true

namespace OfNameChars

variable {s s' : List Char}

theorem notMem (h : OfNameChars s) {c : Char} (hc : isNameChar c = false) : c ∉ s := by
  intro hmem
  rw [h c hmem] at hc
  cases hc

theorem not_isInfix (h : OfNameChars s) {c : Char} {w : List Char} (hc : isNameChar c = false) :
    ¬ c :: w <:+: s := fun hin => h.notMem hc (hin.subset List.mem_cons_self)

theorem append (h : OfNameChars s) (h' : OfNameChars s') : OfNameChars (s ++ s') :=
  List.forall_mem_append.2 ⟨h, h'⟩

theorem pair : OfNameChars ['_', '_'] := by
  simp [OfNameChars, isNameChar]

theorem token (h : OfNameChars s) : OfNameChars (underscored.token s) := pair.append (h.append pair)

theorem of_runs (h : Runs IsJoint s) : OfNameChars s := by
  intro c hc
  rcases h.mem c hc with hc | rfl | rfl
  · simp [isNameChar, hc]
  · decide
  · decide

theorem of_isFeed (h : IsFeed s) : OfNameChars s := by
  obtain ⟨pre, post, rfl, hpre, hpost⟩ := h
  have hgap {g : List Char} (hg : IsIndent g) : OfNameChars g := by
    intro c hc
    rcases hg c hc with rfl | rfl
    · decide
    · decide
  exact (hgap hpre).append (List.forall_mem_cons.2 ⟨by decide, hgap hpost⟩)

theorem of_broken {u r v : List Char} (hu : Runs IsJoint u) (hr : IsFeed r) (hv : Runs IsJoint v) :
    OfNameChars (u ++ (r ++ v)) :=
  (of_runs hu).append ((of_isFeed hr).append (of_runs hv))

/-- With such characters alone no other tokens stand in the text. -/
theorem normalize_eq (h : OfNameChars (lineFeeds s)) :
    normalize s = brokenUnderscores.join (lineFeeds s) := by
  have hbrace : doubleBrace.join (lineFeeds s) = lineFeeds s :=
    sealed_doubleBrace.join_eq_self_of_not_isInfix (h.not_isInfix (by decide))
  have htag : variableTag.join (lineFeeds s) = lineFeeds s := by
    refine sealed_variableTag.join_eq_self_of_not_isInfix ?_
    rw [opening_variableTag]
    exact h.not_isInfix (by decide)
  have hcaps : capsBracket.join (lineFeeds s) = lineFeeds s :=
    sealed_capsBracket.join_eq_self_of_not_isInfix (h.not_isInfix (by decide))
  rw [Placeholder.normalize_eq, hbrace, htag, hcaps]

end OfNameChars

theorem lineFeed_notMem_token {w : List Char} (h : '\n' ∉ w) : '\n' ∉ underscored.token w := by
  simpa [Enclosure.token, underscored] using h

/-- A token with a name stays as it is. -/
theorem normalize_token {w : List Char} (h : Runs IsJoint w) :
    normalize (underscored.token w) = underscored.token w := by
  have hreturn : '\r' ∉ underscored.token w := (OfNameChars.of_runs h).token.notMem (by decide)
  have hjoins := respaced_joins_normalize (underscored.token w)
  rw [lineFeeds_eq_self hreturn] at hjoins
  exact eq_of_respaced_joins hjoins (lineFeed_notMem_token h.lineFeed_notMem)

theorem lone_broken {u r v : List Char} (hu : Runs IsJoint u) (hr : IsFeed r)
    (hv : Runs IsJoint v) : Lone (u ++ (r ++ v)) := by
  obtain ⟨pre, post, rfl, hpre, hpost⟩ := hr
  have hunderscore : '_' ∉ pre ++ '\n' :: post := by
    simpa using ⟨hpre.notMem (by decide) (by decide), hpost.notMem (by decide) (by decide)⟩
  exact hu.lone_append (noneBegins_append.2
    ⟨noneBegins_of_not_mem hunderscore _, hv.noneBegins _⟩)

theorem IsFeed.allBlank {r : List Char} (h : IsFeed r) : allBlank r = true := by
  obtain ⟨pre, post, rfl, hpre, hpost⟩ := h
  rw [allBlank_append]
  refine ⟨hpre.allBlank, ?_⟩
  rw [allBlank_iff, List.forall_mem_cons]
  exact ⟨by decide, allBlank_iff.1 hpost.allBlank⟩

theorem IsFeed.lineFeed_mem {r : List Char} (h : IsFeed r) : '\n' ∈ r := by
  obtain ⟨pre, post, rfl, -⟩ := h
  simp

theorem joinLines_broken {u r v : List Char} (hu : Runs IsJoint u) (hr : IsFeed r)
    (hv : Runs IsJoint v) (h : ' ' ∉ u ++ v) : joinLines (u ++ (r ++ v)) = u ++ ' ' :: v := by
  rw [List.mem_append, not_or] at h
  have hsolid {s : List Char} (hs : Runs IsJoint s) (hspace : ' ' ∉ s) :
      ∀ c ∈ s, isBlank c = false := by
    refine hs.notBlank fun c hc hjoint => ?_
    rcases hjoint with rfl | rfl
    · decide
    · exact absurd hc hspace
  have hright := hsolid hv h.2
  obtain ⟨c, rest, rfl, -⟩ := hv.exists_cons
  rw [List.forall_mem_cons] at hright
  have hrest : joinLines rest = rest := by
    have happend : joinLines (rest ++ []) = rest ++ [] := joinLines_append hright.2 []
    rwa [List.append_nil] at happend
  rw [joinLines_append (hsolid hu h.1), joinLines_append_cons hr.allBlank hright.1,
    joinLines_of_allBlank hr.allBlank, if_pos hr.lineFeed_mem, hrest]
  rfl

/-- A name that is broken at a space is joined if it has no other space, and stays broken
otherwise. -/
theorem normalize_broken {u b v : List Char} (hu : Runs IsJoint u) (hb : IsBreak b)
    (hv : Runs IsJoint v) :
    ∃ r, IsFeed r ∧ normalize (underscored.token (u ++ (b ++ v))) =
      underscored.token (if ' ' ∈ u ++ v then u ++ (r ++ v) else u ++ ' ' :: v) := by
  obtain ⟨r, hr, hfeeds⟩ := hb.exists_lineFeeds
  refine ⟨r, hr, ?_⟩
  have hlines : lineFeeds (underscored.token (u ++ (b ++ v))) =
      brokenUnderscores.token (u ++ (r ++ v)) := by
    have hparts := hfeeds (['_', '_'] ++ u) (v ++ ['_', '_'])
      ((OfNameChars.pair.append (.of_runs hu)).notMem (by decide))
      (((OfNameChars.of_runs hv).append .pair).notMem (by decide))
      (by simpa using hv.lineFeed_notMem)
    simpa [Enclosure.token, underscored, brokenUnderscores] using hparts
  have hchars : OfNameChars (lineFeeds (underscored.token (u ++ (b ++ v)))) := by
    rw [hlines]
    exact (OfNameChars.of_broken hu hr hv).token
  have hlone := lone_broken hu hr hv
  rw [hchars.normalize_eq, hlines]
  split
  · rename_i hspace
    refine hlone.join_eq_self delimited_brokenUnderscores rfl rfl fun hspells => ?_
    exact (spells_brokenUnderscores_append_iff hu hr hv).1 hspells hspace
  · rename_i hspace
    rw [hlone.join_eq delimited_brokenUnderscores rfl rfl
      ((spells_brokenUnderscores_append_iff hu hr hv).2 hspace)]
    exact congrArg underscored.token (joinLines_broken hu hr hv hspace)

end Stencil.Placeholder
