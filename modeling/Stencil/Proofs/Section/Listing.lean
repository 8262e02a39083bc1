import Stencil.Proofs.Section.Extending

/-!
# Sections that are there and sections that are listed

A section is looked up by a pattern with its name, and the sections are listed by the names in the
opening markers, each of which is read as far as it goes.  Every name that is listed is that of a
section that is there.  The other way round, an opening marker is read if no earlier one reaches
over the place where it begins (`opened_or_reached`).  In a comment none does, but the name that is
read goes on into the dashes that close the comment, if no blank is left in front of them
(`opened_of_glued`); so a section can be there and not be listed (`occurs_notMem_names_of_glued`).
A bare one can be the end of the name of another marker (`opened_of_bare`).  A section that is there
is listed unless one of the two happens to all sections of the name (`sections_listed`).
-/

namespace Stencil.Section

open Pattern Text

/-- The comment that opens the section ends right behind the name. -/
def Glued (name text : List Char) : Prop :=
  ∃ g : Gaps, g.Blank ∧ g.trail = [] ∧ commentText "BEGIN" name g <+: text

/-- The section behind `u` begins with the last word in the name of another opening marker. -/
def Shadowed (u text : List Char) : Prop :=
  "BEGIN".toList <+: text ∧ ∃ x marker front, u = x ++ marker ∧
    IsOpening (front ++ "BEGIN".toList) x.reverse (marker ++ "BEGIN".toList)

/-! ## Opening markers at one place -/

theorem mem_openedNames_iff {name s : List Char} :
    name ∈ openedNames s ↔ ∃ m, .found m ∈ openingPattern.segments s ∧ m.group? 1 = some name := by
  simp only [openedNames, List.mem_filterMap, mem_findAll_iff]

/-- Two opening markers at one place have the same name. -/
theorem IsOpening.name_unique {name name' before x x' rest rest' : List Char} (hname : IsName name)
    (hname' : IsName name') (hx : IsOpening name before x) (hx' : IsOpening name' before x')
    (hrest : ∀ c ∈ rest.head?, nameChar.has c = false)
    (hrest' : ∀ c ∈ rest'.head?, nameChar.has c = false) (h : x ++ rest = x' ++ rest') :
    name = name' := by
  obtain ⟨m, hm, -, hgroup⟩ := exists_matchAt_openingPattern hname hx hrest
  obtain ⟨m', hm', -, hgroup'⟩ := exists_matchAt_openingPattern hname' hx' hrest'
  rw [h, hm'] at hm
  obtain rfl := Option.some.inj hm
  exact Option.some.inj (hgroup.symm.trans hgroup')

/-- An opening marker is read, unless another one that is read reaches over the place where it
begins. -/
theorem opened_or_reached {name u x rest : List Char} (hname : IsName name)
    (hx : IsOpening name u.reverse x) (hrest : ∀ c ∈ rest.head?, nameChar.has c = false) :
    name ∈ openedNames (u ++ (x ++ rest)) ∨
      ∃ u' a b y name', u = u' ++ a ∧ x ++ rest = b ++ y ∧ a ≠ [] ∧ b ≠ [] ∧ IsName name' ∧
        IsOpening name' u'.reverse (a ++ b) ∧ (∀ c ∈ y.head?, nameChar.has c = false) ∧
        name' ∈ openedNames (u ++ (x ++ rest)) := by
  obtain ⟨m, hm, -, hgroup⟩ := exists_matchAt_openingPattern hname hx hrest
  have hscan := scanned_segments consuming_openingPattern (u ++ (x ++ rest))
  rcases hscan.found_or_reached consuming_openingPattern (by simpa using hm) with
    ⟨earlier, later, hsegs, -⟩ | ⟨u', a, b, y, m', hu, hz, ha, hb, htext, hmem, hm'⟩
  · refine .inl (mem_openedNames_iff.2 ⟨m, ?_, hgroup⟩)
    rw [hsegs]
    exact List.mem_append_right _ List.mem_cons_self
  · rw [List.append_nil] at hm'
    obtain ⟨name', y', hname', hx', hy', hafter, hgroup'⟩ := isOpening_of_matchAt hm'
    obtain rfl := List.append_cancel_left hafter
    exact .inr ⟨u', a, b, y, name', hu, hz, ha, hb, hname', htext ▸ hx', hy',
      mem_openedNames_iff.2 ⟨m', hmem, hgroup'⟩⟩

/-! ## Markers in comments -/

/-- An opening marker in a comment is read: no other one reaches over its bracket. -/
theorem opened_of_commented {name lead mid rest : List Char} (hname : IsName name)
    (hlead : allBlank lead = true) (hmid : allBlank mid = true)
    (hrest : ∀ c ∈ rest.head?, nameChar.has c = false) (u : List Char) :
    name ∈ openedNames
      (u ++ ("<!--".toList ++ (lead ++ bareText "BEGIN" mid name) ++ rest)) := by
  rcases opened_or_reached hname (.commented hlead hmid) hrest with
    hopened | ⟨u', a, b, y, name', -, hz, ha, hb, hname', hx', -⟩
  · exact hopened
  · obtain ⟨c, a, rfl⟩ := List.exists_cons_of_ne_nil ha
    obtain ⟨d, b, rfl⟩ := List.exists_cons_of_ne_nil hb
    obtain rfl : '<' = d := (List.cons.inj hz).1
    refine absurd ?_ (hx'.closed hname').1
    exact List.mem_append_right a List.mem_cons_self

/-- A name may go on into the dashes that close a comment. -/
theorem IsName.append_dashes {name : List Char} (h : IsName name) :
    IsName (name ++ "--".toList) := by
  refine ⟨List.append_ne_nil_of_left_ne_nil h.1 _, fun c hc => ?_⟩
  rcases List.mem_append.1 hc with hc | hc
  · exact h.2 c hc
  · obtain rfl : c = '-' := by simpa using hc
    decide

theorem commentText_glued (name lead mid rest : List Char) :
    commentText "BEGIN" name ⟨lead, mid, []⟩ ++ rest =
      "<!--".toList ++ (lead ++ bareText "BEGIN" mid (name ++ "--".toList)) ++ '>' :: rest := by
  simp [commentText, bareText]

theorem head_close (rest : List Char) : ∀ c ∈ ('>' :: rest).head?, nameChar.has c = false := by
  rintro c ⟨⟩
  decide

/-- Of a glued section the name is read with the dashes behind it. -/
theorem opened_of_glued {name text : List Char} (hname : IsName name) (h : Glued name text)
    (u rest : List Char) : name ++ "--".toList ∈ openedNames (u ++ (text ++ rest)) := by
  obtain ⟨⟨lead, mid, _⟩, ⟨hlead, hmid, -⟩, rfl, inside, rfl⟩ := h
  rw [List.append_assoc, commentText_glued]
  exact opened_of_commented hname.append_dashes hlead hmid (head_close _) u

/-- A glued section that stands alone is there and is not listed. -/
theorem occurs_notMem_names_of_glued {name body : List Char} (hname : IsName name)
    (hless : Markerless name) (hbody : PlainText body) {opening closing : Gaps}
    (hopening : opening.Blank) (htrail : opening.trail = []) (hclosing : closing.Valid) :
    let content := commentText "BEGIN" name opening ++ (body ++ commentText "END" name closing)
    occurs name content = true ∧ name ∉ names content := by
  intro content
  have hblank : closing.Blank := ⟨hclosing.lead, hclosing.mid, hclosing.trail⟩
  refine ⟨occurs_iff.2 ⟨[], content, [], by simp, .commented hopening hblank body⟩, ?_⟩
  obtain ⟨lead, mid, _⟩ := opening
  obtain ⟨hlead, hmid, -⟩ := hopening
  obtain rfl := htrail
  have hquiet (before : List Char) : Quiet openingPattern before
      ('>' :: (body ++ commentText "END" name closing)) [] := by
    rw [← List.singleton_append, quiet_append]
    exact ⟨quiet_of_silent atOpenings_openingPattern
        (silent_of_not_mem (by decide) (by decide) _) _,
      quiet_bodyAndEnd atOpenings_openingPattern hname hless hbody hclosing [] _⟩
  have hread : openedNames content = [name ++ "--".toList] := by
    have hcontent : content = _ := commentText_glued name lead mid _
    have hbehind := openedFrom_of_quiet (hquiet
      (("<!--".toList ++ (lead ++ bareText "BEGIN" mid (name ++ "--".toList))).reverse ++ []))
    rw [openedFrom_nil, List.append_nil ('>' :: _)] at hbehind
    rw [openedNames_eq, hcontent,
      openedFrom_of_isOpening hname.append_dashes (.commented hlead hmid) (head_close _), hbehind]
  rw [names_eq, List.mem_eraseDups, List.mem_filter, hread, List.mem_singleton]
  exact fun h => absurd (congrArg List.length h.1) (by simp)

/-! ## Bare markers -/

/-- A character of the second part that the front of the first one lacks stands behind that
front. -/
theorem exists_append_of_head {s t a b : List Char} {c : Char} (hc : c ∈ b.head?) (hs : c ∉ s)
    (h : a ++ b = s ++ t) : ∃ k, a = s ++ k ∧ t = k ++ b := by
  rcases List.append_eq_append_iff.1 h with ⟨k, rfl, rfl⟩ | hsplit
  · cases k with
    | nil => exact ⟨[], by simp, rfl⟩
    | cons d k =>
      obtain rfl : d = c := Option.some.inj hc
      exact absurd (List.mem_append_right a List.mem_cons_self) hs
  · exact hsplit

/-- Where `BEGIN` stands inside of an opening marker, it is the word of the marker, in its comment,
or stands in the name. -/
theorem IsOpening.word_inside {name before a b : List Char} (h : IsOpening name before (a ++ b))
    (ha : a ≠ []) (hb : 'B' ∈ b.head?) :
    (∃ lead, allBlank lead = true ∧ a = "<!--".toList ++ lead) ∨ ∃ front, name = front ++ b := by
  have hbare {a mid : List Char} (ha : a ≠ []) (hmid : allBlank mid = true)
      (hx : a ++ b = bareText "BEGIN" mid name) : ∃ front, name = front ++ b := by
    obtain ⟨c, a, rfl⟩ := List.exists_cons_of_ne_nil ha
    have htail : a ++ b = "EGIN".toList ++ (mid ++ name) := (List.cons.inj hx).2
    obtain ⟨k, -, hk⟩ := exists_append_of_head hb (by decide) htail
    obtain ⟨front, -, hfront⟩ := exists_append_of_head hb (notMem_gap (by decide) hmid) hk.symm
    exact ⟨front, hfront⟩
  generalize hx : a ++ b = x at h
  cases h with
  | @commented lead mid hlead hmid =>
    obtain ⟨k, rfl, hk⟩ := exists_append_of_head hb (by decide) hx
    obtain ⟨k, rfl, hword⟩ := exists_append_of_head hb (notMem_gap (by decide) hlead) hk.symm
    by_cases hnil : k = []
    · exact .inl ⟨lead, hlead, by rw [hnil, List.append_nil]⟩
    · exact .inr (hbare hnil hmid hword.symm)
  | bare _ hmid => exact .inr (hbare ha hmid hx)

/-- A bare opening marker is read, or it begins with the last word in the name of another one. -/
theorem opened_of_bare {name mid u inside rest : List Char} (hname : IsName name)
    (hu : ∀ c ∈ u.reverse.head?, wordOrDash.has c = false) (hmid : allBlank mid = true)
    (hmid_ne : mid ≠ []) (hrest : ∀ c ∈ (inside ++ rest).head?, nameChar.has c = false) :
    name ∈ openedNames (u ++ (bareText "BEGIN" mid name ++ (inside ++ rest))) ∨
      Shadowed u (bareText "BEGIN" mid name ++ inside) := by
  rcases opened_or_reached hname (.bare hu hmid hmid_ne) hrest with
    hopened | ⟨u', a, b, y, name', rfl, hz, ha, hb, hname', hx', hy, hopened⟩
  · exact .inl hopened
  have hword : 'B' ∈ b.head? := by
    obtain ⟨c, b, rfl⟩ := List.exists_cons_of_ne_nil hb
    obtain rfl : 'B' = c := (List.cons.inj hz).1
    rfl
  rcases hx'.word_inside ha hword with ⟨lead, hlead, rfl⟩ | ⟨front, rfl⟩
  · -- the marker stands in a comment, so that the same name is read
    have hcommented : IsOpening name u'.reverse
        ("<!--".toList ++ (lead ++ bareText "BEGIN" mid name)) := .commented hlead hmid
    have hsame : name = name' :=
      hcommented.name_unique hname hname' hx' hrest hy (by simp [← hz])
    exact .inl (hsame ▸ hopened)
  · refine .inr ⟨⟨_, by rw [bareText, List.append_assoc]⟩, u', a, front, rfl, ?_⟩
    have hchars : ∀ c ∈ b, nameChar.has c = true := fun c hc =>
      hname'.2 c (List.mem_append_right front hc)
    have hblank : ∀ c ∈ (mid ++ (name ++ (inside ++ rest))).head?, nameChar.has c = false :=
      fun c hc => nameChar_of_isBlank (head_of_gap hmid hmid_ne _ c hc)
    have htext : "BEGIN".toList ++ (mid ++ (name ++ (inside ++ rest))) = b ++ y := by
      rw [← hz, bareText, List.append_assoc, List.append_assoc]
    have hprefix : b <+: "BEGIN".toList := prefix_of_prefix_append hchars hblank ⟨y, htext.symm⟩
    have hbegin : IsName "BEGIN".toList := by decide
    have hprefix' : "BEGIN".toList <+: b := prefix_of_prefix_append hbegin.2 hy ⟨_, htext⟩
    obtain rfl : b = "BEGIN".toList := hprefix.eq_of_length_le hprefix'.length_le
    exact hx'

/-! ## What is listed -/

/-- A section that is written in a text is opened there, or its comment ends right behind the name,
or it begins in the name of another marker. -/
theorem IsSection.opened {name u text rest : List Char} (hname : IsName name)
    (h : IsSection name u.reverse rest text) :
    name ∈ openedNames (u ++ (text ++ rest)) ∨ Glued name text ∨ Shadowed u text := by
  cases h with
  | @commented opening closing hopening hclosing body =>
    obtain ⟨lead, mid, trail⟩ := opening
    by_cases htrail : trail = []
    · exact .inr (.inl ⟨⟨lead, mid, trail⟩, hopening, htrail, List.prefix_append _ _⟩)
    · have hrest : ∀ c ∈ (trail ++ ("-->".toList ++ (body ++ (commentText "END" name closing ++
          rest)))).head?, nameChar.has c = false := fun c hc =>
        nameChar_of_isBlank (head_of_gap hopening.trail htrail _ c hc)
      have hread := opened_of_commented hname hopening.lead hopening.mid hrest u
      exact .inl (by simpa [commentText, bareText] using hread)
  | @bare mid mid' body hbefore hmid hopened hclosing hmid' hrest =>
    rw [← List.append_assoc] at hopened
    have hread := opened_of_bare hname hbefore hmid.1 hmid.2 hopened
    rw [← List.append_assoc (bareText "BEGIN" mid name)] at hread
    exact hread.imp_right .inr

/-- **Sections that are there are listed.**  A name that is listed is that of a section that is
there.  A section that is there is listed, unless of all sections with the name the opening comment
ends right behind the name or the opening marker begins in the name of another one. -/
theorem sections_listed {name : List Char} (hname : IsName name) (content : List Char) :
    (name ∈ names content → occurs name content = true) ∧
      (occurs name content = true →
        name ∈ names content ∨ ∀ u text rest, content = u ++ (text ++ rest) →
          IsSection name u.reverse rest text → Glued name text ∨ Shadowed u text) := by
  rw [names_eq, List.mem_eraseDups, List.mem_filter]
  refine ⟨fun h => h.2, fun hoccurs => ?_⟩
  by_cases hopened : name ∈ openedNames content
  · exact .inl ⟨hopened, hoccurs⟩
  · refine .inr ?_
    rintro u text rest rfl hsection
    exact (hsection.opened hname).resolve_left hopened

/-- In a letter a section is listed that is there, as a blank stands behind the name in its first
comment. -/
theorem sections_listed_letter :
    let content :=
      "Dear Ann, <!-- BEGIN terms -->30 days<!-- END terms--> BEGIN gift".toList
    occurs "terms".toList content = true ∧ "terms".toList ∈ names content := by
  intro content
  have hname : IsName "terms".toList := by decide
  have hoccurs : occurs "terms".toList content = true := by decide +kernel
  have hsection : IsSection "terms".toList "Dear Ann, ".toList.reverse " BEGIN gift".toList
      "<!-- BEGIN terms -->30 days<!-- END terms-->".toList :=
    @IsSection.commented _ _ _ ⟨[' '], [' '], [' ']⟩ ⟨[' '], [' '], []⟩ ⟨rfl, rfl, rfl⟩
      ⟨rfl, rfl, rfl⟩ "30 days".toList
  refine ⟨hoccurs, ((sections_listed hname content).2 hoccurs).resolve_right fun hall => ?_⟩
  rcases hall "Dear Ann, ".toList _ _ rfl hsection with hglued | ⟨hbegin, -⟩
  · have hdashes := opened_of_glued hname hglued "Dear Ann, ".toList " BEGIN gift".toList
    exact absurd hdashes (by decide +kernel)
  · exact absurd hbegin (by decide)

/-- The section `terms` is there, and no section is listed. -/
theorem glued_section_unlisted :
    let content := "<!-- BEGIN terms-->x<!-- END terms -->".toList
    occurs "terms".toList content = true ∧ "terms".toList ∉ names content ∧ names content = [] := by
  decide +kernel

/-- The word `BEGIN` in front of a marker is read as a marker with the name `BEGIN`. -/
example :
    let content := "BEGIN BEGIN terms x END terms".toList
    occurs "terms".toList content = true ∧ names content = [] := by
  decide +kernel

end Stencil.Section
