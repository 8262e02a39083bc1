import Stencil.Proofs.Pattern.Finding
import Stencil.Proofs.Section.Authoring
import Stencil.Proofs.Section.Refinement

/-!
# Sections of a text that goes on

A text that ends in front of blanks and a bracket keeps what is found in it.  A section of it is one
as before, although it need not be matched at the same place or up to the same marker any more
(`occurs_append`).  The opening markers in it are found one by one as before, and the scan goes on
behind it (`openedFrom_append`).  So the sections that it lists stay listed, in the same order
(`sublist_names_append`); a section that is added at its end is listed too (`mem_names_added`).
-/

namespace Stencil.Section

open Pattern Text

/-! ## Sections stand where they are written -/

/-- The text is a section as it is written, between `before` and `rest`: an opening marker, any
text, and a closing marker. -/
inductive IsSection (name before rest : List Char) : List Char → Prop
  | commented {opening closing : Gaps} (hopening : opening.Blank) (hclosing : closing.Blank)
      (body : List Char) :
      IsSection name before rest
        (commentText "BEGIN" name opening ++ (body ++ commentText "END" name closing))
  | bare {mid mid' body : List Char} (hbefore : ∀ c ∈ before.head?, wordOrDash.has c = false)
      (hmid : allBlank mid = true ∧ mid ≠ [])
      (hopened : ∀ c ∈ (body ++ (bareText "END" mid' name ++ rest)).head?, nameChar.has c = false)
      (hclosing : ∀ c ∈ (body.reverse ++ ((bareText "BEGIN" mid name).reverse ++ before)).head?,
        wordOrDash.has c = false)
      (hmid' : allBlank mid' = true ∧ mid' ≠ [])
      (hrest : ∀ c ∈ rest.head?, nameChar.has c = false) :
      IsSection name before rest (bareText "BEGIN" mid name ++ (body ++ bareText "END" mid' name))

theorem IsSection.ne_nil {name before rest text : List Char}
    (h : IsSection name before rest text) : text ≠ [] := by
  cases h with
  | commented => simp [commentText]
  | bare => simp [bareText]

/-- A section goes on to be one if its name does not go on. -/
theorem IsSection.append {name before rest text : List Char} (h : IsSection name before rest text)
    {y : List Char} (hy : ∀ c ∈ y.head?, nameChar.has c = false) :
    IsSection name before (rest ++ y) text := by
  cases h with
  | commented hopening hclosing body => exact .commented hopening hclosing body
  | @bare mid mid' body hbefore hmid hopened hclosing hmid' hrest =>
    have hclosed : body ++ bareText "END" mid' name ≠ [] := by simp [bareText]
    refine .bare hbefore hmid (fun c hc => hopened c ?_) hclosing hmid' fun c hc => ?_
    · rw [← List.append_assoc, List.head?_append_of_ne_nil _ hclosed] at hc ⊢
      exact hc
    · cases rest with
      | nil => exact hy c hc
      | cons d rest => exact hrest c hc

theorem reads_few : Reads (few .any).ends fun _ => True :=
  (reads_ends rfl).congr fun _ => by
    rw [few, spells_span_iff]
    simp

/-- A match of a section is one as it is written. -/
theorem isSection_of_mem_ends {name before after : List Char} {t : State}
    (ht : t ∈ (pattern name).ends ⟨⟨before, after⟩, []⟩) :
    ∃ text, after = text ++ t.cursor.after ∧ IsSection name before t.cursor.after text := by
  rw [ends_pattern, List.mem_append] at ht
  simp only [mem_ends_all_cons, mem_ends_group] at ht
  rcases ht with ⟨_, hopen, _, ⟨_, hbody, rfl⟩, _, hclose, ht⟩ |
    ⟨_, hopen, _, hlead, _, ⟨_, hbody, rfl⟩, _, htrail, _, hclose, ht⟩
  · obtain ⟨opening, hopening, _, rfl, rfl⟩ := mem_ends_commentMarker.1 hopen
    obtain ⟨body, _, rfl, -, rfl⟩ := (reads_few _ _ _ _).1 hbody
    obtain ⟨closing, hclosing, rest, rfl, rfl⟩ := mem_ends_commentMarker.1 hclose
    rw [List.mem_singleton.1 ht]
    exact ⟨_, by simp, .commented hopening hclosing body⟩
  · obtain ⟨hbefore, mid, hmid, _, rfl, hopened, rfl⟩ := mem_ends_bareMarker.1 hopen
    obtain ⟨lead, _, rfl, -, rfl⟩ := (reads_blanks _ _ _ _).1 hlead
    obtain ⟨body, _, rfl, -, rfl⟩ := (reads_few _ _ _ _).1 hbody
    obtain ⟨trail, _, rfl, -, rfl⟩ := (reads_blanks _ _ _ _).1 htrail
    obtain ⟨hclosing, mid', hmid', rest, rfl, hrest, rfl⟩ := mem_ends_bareMarker.1 hclose
    rw [List.mem_singleton.1 ht]
    -- the blanks that are taken around the text inside count as a part of it here
    have hsection : IsSection name before rest (bareText "BEGIN" mid name ++
        (lead ++ (body ++ trail) ++ bareText "END" mid' name)) :=
      .bare hbefore hmid (by simpa using hopened) (by simpa using hclosing) hmid' hrest
    exact ⟨_, by simp, hsection⟩

/-- Where a section is written the pattern matches. -/
theorem IsSection.exists_end {name before rest text : List Char}
    (h : IsSection name before rest text) :
    ∃ t, t ∈ (pattern name).ends ⟨⟨before, text ++ rest⟩, []⟩ := by
  simp only [ends_pattern, List.mem_append, mem_ends_all_cons, mem_ends_group]
  cases h with
  | @commented opening closing hopening hclosing body =>
    simp only [List.append_assoc]
    exact ⟨_, .inl ⟨_, mem_ends_commentMarker.2 ⟨opening, hopening, _, rfl, rfl⟩,
      _, ⟨_, (reads_few _ _ _ _).2 ⟨body, _, rfl, trivial, rfl⟩, rfl⟩,
      _, mem_ends_commentMarker.2 ⟨closing, hclosing, _, rfl, rfl⟩, List.mem_singleton_self _⟩⟩
  | @bare mid mid' body hbefore hmid hopened hclosing hmid' hrest =>
    simp only [List.append_assoc]
    exact ⟨_, .inr ⟨_, mem_ends_bareMarker.2 ⟨hbefore, mid, hmid, _, rfl, hopened, rfl⟩,
      _, (reads_blanks _ _ _ _).2 ⟨[], _, rfl, rfl, rfl⟩,
      _, ⟨_, (reads_few _ _ _ _).2 ⟨body, _, rfl, trivial, rfl⟩, rfl⟩,
      _, (reads_blanks _ _ _ _).2 ⟨[], _, rfl, rfl, rfl⟩,
      _, mem_ends_bareMarker.2 ⟨hclosing, mid', hmid', _, rfl, hrest, rfl⟩,
      List.mem_singleton_self _⟩⟩

theorem consuming_pattern (name : List Char) : (pattern name).Consuming := by
  refine consuming_of_ends fun c t ht heq => ?_
  obtain ⟨text, hafter, hsection⟩ := isSection_of_mem_ends ht
  rw [heq] at hafter
  exact hsection.ne_nil (List.append_left_eq_self.1 hafter.symm)

/-- A section occurs in a text if one is written there. -/
theorem occurs_iff {name s : List Char} :
    occurs name s = true ↔
      ∃ u text rest, s = u ++ (text ++ rest) ∧ IsSection name u.reverse rest text := by
  rw [occurs, occursIn_iff (consuming_pattern name)]
  constructor
  · rintro ⟨u, v, rfl, hends⟩
    obtain ⟨t, ht⟩ := List.exists_mem_of_ne_nil _ hends
    obtain ⟨text, rfl, hsection⟩ := isSection_of_mem_ends ht
    exact ⟨u, text, _, rfl, hsection⟩
  · rintro ⟨u, text, rest, rfl, hsection⟩
    obtain ⟨t, ht⟩ := hsection.exists_end
    exact ⟨u, _, rfl, List.ne_nil_of_mem ht⟩

/-- What occurs in a text occurs in the texts that go on from it with no character of a name. -/
theorem occurs_append {name s y : List Char} (hy : ∀ c ∈ y.head?, nameChar.has c = false)
    (h : occurs name s = true) : occurs name (s ++ y) = true := by
  obtain ⟨u, text, rest, rfl, hsection⟩ := occurs_iff.1 h
  exact occurs_iff.2 ⟨u, text, rest ++ y, by simp, hsection.append hy⟩

/-! ## Opening markers are found where they stand -/

theorem reads_name : Reads (many1 nameChar).ends IsName :=
  (reads_ends rfl).congr fun name => by rw [many1, spells_span_one_iff, IsName]

theorem IsOpening.ne_nil {name before x : List Char} (h : IsOpening name before x) : x ≠ [] := by
  cases h <;> simp [bareText]

/-- An opening marker goes on with its name. -/
theorem IsOpening.append {name before x : List Char} (h : IsOpening name before x)
    (k : List Char) : IsOpening (name ++ k) before (x ++ k) := by
  cases h with
  | @commented lead mid hlead hmid =>
    have hlonger : IsOpening (name ++ k) before
        ("<!--".toList ++ (lead ++ bareText "BEGIN" mid (name ++ k))) := .commented hlead hmid
    simpa [bareText] using hlonger
  | @bare mid hbefore hmid hmid_ne =>
    have hlonger : IsOpening (name ++ k) before (bareText "BEGIN" mid (name ++ k)) :=
      .bare hbefore hmid hmid_ne
    simpa [bareText] using hlonger

/-- An opening marker has one bracket at most, the one that it begins with, and its name ends in no
blank. -/
theorem IsOpening.closed {name before x : List Char} (hname : IsName name)
    (h : IsOpening name before x) :
    '<' ∉ x.drop 1 ∧ ∀ c ∈ x.getLast?, isBlank c = false := by
  have hbare {mid : List Char} (hmid : allBlank mid = true) :
      '<' ∉ (bareText "BEGIN" mid name).drop 1 ∧
        ∀ c ∈ (bareText "BEGIN" mid name).getLast?, isBlank c = false :=
    bareText_closed hname (by decide) hmid
  cases h with
  | @commented lead mid hlead hmid =>
    obtain ⟨hopen, hlast⟩ := hbare hmid
    have hgap : '<' ∉ lead := notMem_gap (by decide) hlead
    have hword : '<' ∉ bareText "BEGIN" mid name := by
      rintro (_ | ⟨_, hmem⟩)
      exact hopen hmem
    constructor
    · simp [hgap, hword]
    · have hne : bareText "BEGIN" mid name ≠ [] := by simp [bareText]
      obtain ⟨last, hend⟩ := Option.isSome_iff_exists.1 (List.getLast?_isSome.2 hne)
      intro c hc
      rw [← List.append_assoc, List.getLast?_append, hend, Option.some_or] at hc
      exact hlast c (hend.trans hc)
  | bare hbefore hmid => exact hbare hmid

/-- What the opening pattern matches is an opening marker up to a beginning of its name. -/
theorem isOpening_of_mem_ends {before after : List Char} {t : State}
    (ht : t ∈ openingPattern.ends ⟨⟨before, after⟩, []⟩) :
    ∃ name x, IsName name ∧ IsOpening name before x ∧ after = x ++ t.cursor.after := by
  rw [ends_openingPattern, List.mem_flatMap] at ht
  simp only [List.mem_append, mem_ends_all_cons, mem_ends_group] at ht
  obtain ⟨_, ⟨_, hopen, _, hlead, _, hword, _, hmid, hend⟩ | ⟨_, hfresh, _, hword, _, hmid, hend⟩,
    _, hname, rfl⟩ := ht
  · obtain ⟨_, rfl, rfl⟩ := mem_ends_exactly.1 hopen
    obtain ⟨lead, _, rfl, hleadBlank, rfl⟩ := (reads_blanks _ _ _ _).1 hlead
    obtain ⟨_, rfl, rfl⟩ := mem_ends_exactly.1 hword
    obtain ⟨mid, _, rfl, hmidBlank, rfl⟩ := (reads_blanks _ _ _ _).1 hmid
    rw [List.mem_singleton.1 hend] at hname
    obtain ⟨name, rest, rfl, hnameChars, rfl⟩ := (reads_name _ _ _ _).1 hname
    exact ⟨name, _, hnameChars, .commented hleadBlank hmidBlank, by simp [bareText]⟩
  · obtain ⟨hbefore, rfl⟩ := mem_ends_freshWord.1 hfresh
    obtain ⟨_, rfl, rfl⟩ := mem_ends_exactly.1 hword
    obtain ⟨mid, _, rfl, hmidBlank, rfl⟩ := (reads_blanks1 _ _ _ _).1 hmid
    rw [List.mem_singleton.1 hend] at hname
    obtain ⟨name, rest, rfl, hnameChars, rfl⟩ := (reads_name _ _ _ _).1 hname
    exact ⟨name, _, hnameChars, .bare hbefore hmidBlank.1 hmidBlank.2, by simp [bareText]⟩

/-- An opening marker is matched up to the end of its name. -/
theorem exists_matchAt_openingPattern {name before x rest : List Char} (hname : IsName name)
    (hx : IsOpening name before x) (hrest : ∀ c ∈ rest.head?, nameChar.has c = false) :
    ∃ m, openingPattern.matchAt false ⟨before, x ++ rest⟩ = some m ∧ m.text = x ∧
      m.group? 1 = some name := by
  obtain ⟨t, ht, hafter, hgroup⟩ := exists_end_openingPattern hname hx hrest
  refine ⟨⟨x, t.captures⟩, ?_, rfl, hgroup⟩
  rw [matchAt_eq_head?, ht, Option.map_some, hafter, List.length_append, Nat.add_sub_cancel,
    List.take_left]

/-- A match of the opening pattern is an opening marker up to the end of its name. -/
theorem isOpening_of_matchAt {before after : List Char} {m : Match}
    (hm : openingPattern.matchAt false ⟨before, after⟩ = some m) :
    ∃ name rest, IsName name ∧ IsOpening name before m.text ∧
      (∀ c ∈ rest.head?, nameChar.has c = false) ∧ after = m.text ++ rest ∧
      m.group? 1 = some name := by
  obtain ⟨t, ht, -⟩ := exists_end_of_matchAt hm
  obtain ⟨name, x, hname, hx, rfl⟩ := isOpening_of_mem_ends (List.mem_of_head? ht)
  -- the name is read as far as it goes
  obtain ⟨more, rest, hsplit, hmore, hrest⟩ : ∃ more rest, t.cursor.after = more ++ rest ∧
      (∀ c ∈ more, nameChar.has c = true) ∧ ∀ c ∈ rest.head?, nameChar.has c = false := by
    refine ⟨t.cursor.after.takeWhile nameChar.has, t.cursor.after.dropWhile nameChar.has,
      List.takeWhile_append_dropWhile.symm,
      List.all_eq_true.1 List.all_takeWhile, fun c hc => ?_⟩
    have hnot := List.head?_dropWhile_not nameChar.has t.cursor.after
    rw [Option.mem_def.1 hc] at hnot
    exact hnot
  have hlonger : IsName (name ++ more) := by
    refine ⟨List.append_ne_nil_of_left_ne_nil hname.1 _, fun c hc => ?_⟩
    exact (List.mem_append.1 hc).elim (hname.2 c) (hmore c)
  obtain ⟨m', hm', htext, hgroup⟩ := exists_matchAt_openingPattern hlonger (hx.append more) hrest
  rw [hsplit, ← List.append_assoc] at hm ⊢
  rw [hm] at hm'
  obtain rfl := Option.some.inj hm'
  exact ⟨_, rest, hlonger, htext ▸ hx.append more, hrest, by rw [htext], hgroup⟩

theorem consuming_openingPattern : openingPattern.Consuming := by
  intro c m hm hnil
  obtain ⟨_, _, -, hx, -⟩ := isOpening_of_matchAt hm
  exact hx.ne_nil hnil

/-! ## The scan goes on behind a seam -/

/-- The name that a segment opens, if it is an opening marker. -/
def opened? (seg : Segment) : Option (List Char) := seg.match?.bind (·.group? 1)

/-- The names in the opening markers of a text behind the place `before`, from left to right. -/
def openedFrom (before s : List Char) : List (List Char) :=
  (openingPattern.segmentsFrom 0 before s).filterMap opened?

theorem openedNames_eq (s : List Char) : openedNames s = openedFrom [] s := by
  rw [openedNames, findAll, List.filterMap_filterMap]
  rfl

/-- An opening marker opens its name. -/
theorem openedFrom_of_isOpening {name before x rest : List Char} (hname : IsName name)
    (hx : IsOpening name before x) (hrest : ∀ c ∈ rest.head?, nameChar.has c = false) :
    openedFrom before (x ++ rest) = name :: openedFrom (x.reverse ++ before) rest := by
  obtain ⟨t, ht, hafter, hgroup⟩ := exists_end_openingPattern hname hx hrest
  have hopened : opened? (.found ⟨x, t.captures⟩) = some name := hgroup
  rw [openedFrom, segmentsFrom_of_match hx.ne_nil ht hafter, List.filterMap_cons_some hopened]
  rfl

/-- A character where no opening marker begins is passed over. -/
theorem openedFrom_of_none {before s : List Char} {c : Char}
    (h : openingPattern.matchAt false ⟨before, c :: s⟩ = none) :
    openedFrom before (c :: s) = openedFrom (c :: before) s := by
  rw [openedFrom, segmentsFrom, h]
  rfl

theorem openedFrom_nil (before : List Char) : openedFrom before [] = [] := by
  have hend := atOpenings_openingPattern.elsewhere before [] (by decide) (by decide)
  rw [openedFrom, segmentsFrom_nil hend]
  rfl

/-- A part in which no opening marker is matched opens nothing. -/
theorem openedFrom_of_quiet {before x y : List Char} (h : Quiet openingPattern before x y) :
    openedFrom before (x ++ y) = openedFrom (x.reverse ++ before) y := by
  have hplain : (x.map Segment.plain).filterMap opened? = [] := by
    rw [List.filterMap_map, List.filterMap_eq_nil_iff]
    exact fun _ _ => rfl
  rw [openedFrom, segmentsFrom_of_quiet h, List.filterMap_append, hplain]
  rfl

/-- Blanks open nothing. -/
theorem openedFrom_gap {gap : List Char} (hgap : allBlank gap = true) (before y : List Char) :
    openedFrom before (gap ++ y) = openedFrom (gap.reverse ++ before) y :=
  openedFrom_of_quiet (quiet_of_silent atOpenings_openingPattern (silent_gap hgap y) before)

section

variable {gap z : List Char} (hgap : allBlank gap = true)

include hgap

/-- Behind blanks and a bracket no name goes on. -/
theorem head_of_seam : ∀ c ∈ (gap ++ '<' :: z).head?, nameChar.has c = false := by
  cases gap with
  | nil =>
    rintro c ⟨⟩
    decide
  | cons d gap =>
    exact fun c hc => nameChar_of_isBlank (head_of_gap hgap (List.cons_ne_nil d gap) _ c hc)

theorem head_append_seam {s : List Char} (hs : ∀ c ∈ s.head?, nameChar.has c = false) :
    ∀ c ∈ (s ++ (gap ++ '<' :: z)).head?, nameChar.has c = false := by
  cases s with
  | nil => exact head_of_seam hgap
  | cons d s => exact hs

/-- No opening marker that begins in front of a seam ends behind it. -/
theorem matchAt_openingPattern_seam {before s : List Char} (hs : s ≠ [])
    (h : openingPattern.matchAt false ⟨before, s⟩ = none) :
    openingPattern.matchAt false ⟨before, s ++ (gap ++ '<' :: z)⟩ = none := by
  cases hm : openingPattern.matchAt false ⟨before, s ++ (gap ++ '<' :: z)⟩ with
  | none => rfl
  | some m =>
    obtain ⟨name, rest, hname, hx, hrest, hafter, -⟩ := isOpening_of_matchAt hm
    obtain ⟨hopen, hlast⟩ := hx.closed hname
    obtain ⟨k, rfl⟩ := prefix_of_prefix_seam hopen hlast hgap hs ⟨rest, hafter.symm⟩
    -- the marker stands in front of the seam, and its name ends there
    rw [List.append_assoc, List.append_cancel_left_eq] at hafter
    have hk : ∀ c ∈ k.head?, nameChar.has c = false :=
      fun c hc => hrest c (hafter ▸ List.mem_head?_append_of_mem_head? hc)
    obtain ⟨m', hm', -⟩ := exists_matchAt_openingPattern hname hx hk
    rw [h] at hm'
    cases hm'

/-- What is opened in front of a seam is opened as before, and the scan goes on behind it. -/
theorem openedFrom_append (before s : List Char) :
    openedFrom before (s ++ (gap ++ '<' :: z)) =
      openedFrom before s ++ openedFrom (s.reverse ++ before) (gap ++ '<' :: z) := by
  -- the segments are not the same, since a capture holds what follows; the names in them are
  have hscan := scanned_segmentsFrom consuming_openingPattern before s
  rw [openedFrom.eq_def before s]
  generalize openingPattern.segmentsFrom 0 before s = segs at hscan
  induction hscan with
  | nil => rfl
  | @plain before s c segs h hs ih =>
    have hnone := matchAt_openingPattern_seam (z := z) hgap (List.cons_ne_nil c s) h
    have hopened : opened? (.plain c) = none := rfl
    rw [List.cons_append] at hnone ⊢
    rw [openedFrom_of_none hnone, ih, List.filterMap_cons_none hopened, List.reverse_cons,
      List.append_assoc]
    rfl
  | @found before s m segs hne h hs ih =>
    obtain ⟨name, rest, hname, hx, hrest, hafter, hgroup⟩ := isOpening_of_matchAt h
    obtain rfl := List.append_cancel_left hafter
    have hopened : opened? (.found m) = some name := hgroup
    rw [List.append_assoc, openedFrom_of_isOpening hname hx (head_append_seam hgap hrest), ih,
      List.filterMap_cons_some hopened, List.reverse_append, List.append_assoc]
    rfl

/-- **What is listed stays listed.**  A text that goes on with blanks and a bracket lists the
sections that it listed before, in the same order. -/
theorem sublist_names_append (s : List Char) :
    (names s).Sublist (names (s ++ (gap ++ '<' :: z))) := by
  have hoccurs : ∀ name, occurs name s = true → occurs name (s ++ (gap ++ '<' :: z)) = true :=
    fun name h => occurs_append (head_of_seam hgap) h
  rw [names_eq, names_eq, eraseDups_filter, eraseDups_filter, openedNames_eq, openedNames_eq,
    openedFrom_append hgap, List.eraseDups_append, List.filter_append]
  exact (List.monotone_filter_right _ hoccurs).trans (List.sublist_append_left _ _)

/-- A section that is added at the end of a text is listed. -/
theorem mem_names_added {name : List Char} (hname : IsName name) (s body : List Char) :
    name ∈ names (s ++ (gap ++ (commentText "BEGIN" name oneBlank ++
      (body ++ commentText "END" name oneBlank)))) := by
  rw [names_eq, List.mem_eraseDups, List.mem_filter, openedNames_eq]
  constructor
  · obtain ⟨z, hz⟩ : ∃ z, commentText "BEGIN" name oneBlank ++
      (body ++ commentText "END" name oneBlank) = '<' :: z := ⟨_, rfl⟩
    have hblock : commentText "BEGIN" name oneBlank ++ (body ++ commentText "END" name oneBlank) =
        "<!--".toList ++ ([' '] ++ bareText "BEGIN" [' '] name) ++
          (' ' :: ("-->".toList ++ (body ++ commentText "END" name oneBlank))) := by
      simp [commentText, bareText, oneBlank]
    rw [hz, openedFrom_append hgap, openedFrom_gap hgap, ← hz, hblock,
      openedFrom_of_isOpening hname (.commented rfl rfl) (by rintro c ⟨⟩; decide)]
    exact List.mem_append_right _ List.mem_cons_self
  · have hblank : oneBlank.Blank := ⟨rfl, rfl, rfl⟩
    exact occurs_iff.2 ⟨s ++ gap, _, [], by simp, .commented hblank hblank body⟩

end

end Stencil.Section
