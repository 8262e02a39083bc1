import Stencil.Section.Authoring
import Stencil.Proofs.Pattern.Language
import Stencil.Proofs.Section.Matching

/-!
# Sections that are added to a template

A section is added at the end of a text, behind a seam.  A marker opens with a bracket or a word and
goes on without another bracket, and it ends in no blank; so no marker reaches over a seam, whatever
stands on the left of it (`prefix_of_prefix_seam`).  If the text does not open the section and the
text inside does not close it, the added section is found as it was written: hiding it gives back
the text in front of it, and showing it leaves the text inside there (`addSection_undone`).
-/

namespace Stencil.Section

open Pattern Text

/-! ## The matches of markers -/

/-- The gaps hold nothing but blanks; they may be empty. -/
structure Gaps.Blank (g : Gaps) : Prop where
  lead : allBlank g.lead = true
  mid : allBlank g.mid = true
  trail : allBlank g.trail = true

/-- A marker in a comment matches the texts that are written so, with any blanks in the gaps. -/
theorem mem_ends_commentMarker {word : String} {name before after : List Char}
    {captures : List (Nat × Capture)} {t : State} :
    t ∈ (commentMarker word name).ends ⟨⟨before, after⟩, captures⟩ ↔
      ∃ g : Gaps, g.Blank ∧ ∃ rest, after = commentText word name g ++ rest ∧
        t = ⟨⟨(commentText word name g).reverse ++ before, rest⟩, captures⟩ := by
  simp only [commentMarker, mem_ends_all_cons]
  constructor
  · rintro ⟨_, hopen, _, hlead, _, hword, _, hmid, _, hname, _, htrail, _, hclose, ht⟩
    obtain ⟨_, rfl, rfl⟩ := mem_ends_exactly.1 hopen
    obtain ⟨lead, _, rfl, hleadBlank, rfl⟩ := (reads_blanks _ _ _ _).1 hlead
    obtain ⟨_, rfl, rfl⟩ := mem_ends_exactly.1 hword
    obtain ⟨mid, _, rfl, hmidBlank, rfl⟩ := (reads_blanks _ _ _ _).1 hmid
    obtain ⟨_, rfl, rfl⟩ := mem_ends_exactly.1 hname
    obtain ⟨trail, _, rfl, htrailBlank, rfl⟩ := (reads_blanks _ _ _ _).1 htrail
    obtain ⟨rest, rfl, rfl⟩ := mem_ends_exactly.1 hclose
    rw [List.mem_singleton.1 ht]
    exact ⟨⟨lead, mid, trail⟩, ⟨hleadBlank, hmidBlank, htrailBlank⟩, rest, by simp [commentText],
      by simp [commentText]⟩
  · rintro ⟨g, ⟨hlead, hmid, htrail⟩, rest, rfl, rfl⟩
    simp only [commentText, List.append_assoc]
    refine ⟨_, mem_ends_exactly.2 ⟨_, rfl, rfl⟩,
      _, (reads_blanks _ _ _ _).2 ⟨_, _, rfl, hlead, rfl⟩, _, mem_ends_exactly.2 ⟨_, rfl, rfl⟩,
      _, (reads_blanks _ _ _ _).2 ⟨_, _, rfl, hmid, rfl⟩, _, mem_ends_exactly.2 ⟨_, rfl, rfl⟩,
      _, (reads_blanks _ _ _ _).2 ⟨_, _, rfl, htrail, rfl⟩,
      _, mem_ends_exactly.2 ⟨rest, rfl, rfl⟩, ?_⟩
    simp [all, ends]

theorem mem_ends_freshWord {s t : State} :
    t ∈ freshWord.ends s ↔ (∀ c ∈ s.cursor.before.head?, wordOrDash.has c = false) ∧ t = s := by
  obtain ⟨⟨before, after⟩, captures⟩ := s
  cases before with
  | nil => simp [freshWord, ends, Cursor.back?]
  | cons c before => cases hc : wordOrDash.has c <;> simp [freshWord, ends, Cursor.back?, hc]

theorem mem_ends_notAhead {s t : State} :
    t ∈ (Pattern.ahead true (.one nameChar)).ends s ↔
      (∀ c ∈ s.cursor.after.head?, nameChar.has c = false) ∧ t = s := by
  obtain ⟨⟨before, after⟩, captures⟩ := s
  cases after with
  | nil => simp [ends]
  | cons c after => cases hc : nameChar.has c <;> simp [ends, hc]

/-- A bare marker matches the texts that are written so, where they continue no word and no name
goes on behind them. -/
theorem mem_ends_bareMarker {word : String} {name before after : List Char}
    {captures : List (Nat × Capture)} {t : State} :
    t ∈ (bareMarker word name).ends ⟨⟨before, after⟩, captures⟩ ↔
      (∀ c ∈ before.head?, wordOrDash.has c = false) ∧
      ∃ mid, (allBlank mid = true ∧ mid ≠ []) ∧ ∃ rest, after = bareText word mid name ++ rest ∧
        (∀ c ∈ rest.head?, nameChar.has c = false) ∧
        t = ⟨⟨(bareText word mid name).reverse ++ before, rest⟩, captures⟩ := by
  simp only [bareMarker_eq, mem_ends_all_cons]
  constructor
  · rintro ⟨_, hfresh, _, hword, _, hmid, _, hname, _, hahead, ht⟩
    obtain ⟨hbefore, rfl⟩ := mem_ends_freshWord.1 hfresh
    obtain ⟨_, rfl, rfl⟩ := mem_ends_exactly.1 hword
    obtain ⟨mid, _, rfl, hmidBlank, rfl⟩ := (reads_blanks1 _ _ _ _).1 hmid
    obtain ⟨rest, rfl, rfl⟩ := mem_ends_exactly.1 hname
    obtain ⟨hrest, rfl⟩ := mem_ends_notAhead.1 hahead
    rw [List.mem_singleton.1 ht]
    exact ⟨hbefore, mid, hmidBlank, rest, by simp [bareText], hrest, by simp [bareText]⟩
  · rintro ⟨hbefore, mid, hmid, rest, rfl, hrest, rfl⟩
    simp only [bareText, List.append_assoc]
    refine ⟨_, mem_ends_freshWord.2 ⟨hbefore, rfl⟩, _, mem_ends_exactly.2 ⟨_, rfl, rfl⟩,
      _, (reads_blanks1 _ _ _ _).2 ⟨_, _, rfl, hmid, rfl⟩, _, mem_ends_exactly.2 ⟨_, rfl, rfl⟩,
      _, mem_ends_notAhead.2 ⟨hrest, rfl⟩, ?_⟩
    simp [all, ends]

/-! ## No marker reaches over a seam -/

/-- A text without a bracket behind its first character and without a blank at its end does not
reach over blanks and up to a bracket: if it begins where a part begins, it ends there too. -/
theorem prefix_of_prefix_seam {w v gap z : List Char} (hopen : '<' ∉ w.drop 1)
    (hlast : ∀ c ∈ w.getLast?, isBlank c = false) (hgap : allBlank gap = true) (hv : v ≠ [])
    (h : w <+: v ++ (gap ++ '<' :: z)) : w <+: v := by
  obtain ⟨rest, hrest⟩ := h
  rcases List.append_eq_append_iff.1 hrest with ⟨k, rfl, -⟩ | ⟨k, rfl, hk⟩
  · exact List.prefix_append w k
  -- what is left of the text on the right of the seam stops in front of the bracket
  have hfree : '<' ∉ k := by
    obtain ⟨c, v, rfl⟩ := List.exists_cons_of_ne_nil hv
    exact fun hmem => hopen (List.mem_append_right v hmem)
  have hblank : ∀ c ∈ k, isBlank c = true := by
    rcases List.append_eq_append_iff.1 hk with ⟨k', rfl, hk'⟩ | ⟨k', rfl, -⟩
    · cases k' with
      | nil => simpa using List.all_eq_true.1 hgap
      | cons d k' =>
        obtain ⟨rfl, -⟩ := List.cons.inj hk'
        exact absurd (List.mem_append_right gap List.mem_cons_self) hfree
    · exact fun c hc => List.all_eq_true.1 hgap c (List.mem_append_left k' hc)
  cases hend : k.getLast? with
  | none => rw [List.getLast?_eq_none_iff.1 hend, List.append_nil]
  | some c =>
    have hnone : isBlank c = false := hlast c (by rw [List.getLast?_append, hend]; rfl)
    rw [hblank c (List.mem_of_getLast? hend)] at hnone
    cases hnone

section

variable {name : List Char} (hname : IsName name)

include hname

/-- A marker in a comment has one bracket, the one that it opens with, and ends in no blank. -/
theorem commentText_closed {word : String} (hword : '<' ∉ word.toList) {g : Gaps} (hg : g.Blank) :
    '<' ∉ (commentText word name g).drop 1 ∧
      ∀ c ∈ (commentText word name g).getLast?, isBlank c = false := by
  have hgap {gap : List Char} (h : allBlank gap = true) : '<' ∉ gap := notMem_gap (by decide) h
  have hchars : '<' ∉ name := fun hmem => absurd (hname.2 '<' hmem) (by decide)
  constructor
  · simp [commentText, hgap hg.lead, hgap hg.mid, hgap hg.trail, hchars, hword]
  · intro c hc
    have htext : commentText word name g = "<!--".toList ++ g.lead ++ word.toList ++ g.mid ++
        name ++ g.trail ++ "--".toList ++ ['>'] := by simp [commentText]
    rw [htext, List.getLast?_append] at hc
    have hcd : '>' = c := Option.some.inj hc
    subst hcd
    decide

/-- A bare marker has no bracket and ends in no blank. -/
theorem bareText_closed {word : String} (hword : '<' ∉ word.toList) {mid : List Char}
    (hmid : allBlank mid = true) :
    '<' ∉ (bareText word mid name).drop 1 ∧
      ∀ c ∈ (bareText word mid name).getLast?, isBlank c = false := by
  have hgap : '<' ∉ mid := notMem_gap (by decide) hmid
  have hchars : '<' ∉ name := fun hmem => absurd (hname.2 '<' hmem) (by decide)
  constructor
  · intro hmem
    have hall : '<' ∈ bareText word mid name := List.mem_of_mem_drop hmem
    simp [bareText, hword, hgap, hchars] at hall
  · intro c hc
    refine isBlank_of_nameChar (hname.2 c ?_)
    obtain ⟨last, hlast⟩ := Option.isSome_iff_exists.1 (List.getLast?_isSome.2 hname.1)
    simp only [bareText, List.getLast?_append, hlast, Option.some_or] at hc
    exact Option.some.inj hc ▸ List.mem_of_getLast? hlast

variable {v gap z : List Char} (hgap : allBlank gap = true) (hv : v ≠ [])

include hgap hv

/-- A marker in a comment that does not stand in a part is not matched there either if blanks and a
bracket follow. -/
theorem ends_commentMarker_seam {word : String} (hword : '<' ∉ word.toList) {before : List Char}
    (h : (commentMarker word name).ends ⟨⟨before, v⟩, []⟩ = []) (before' : List Char)
    (captures : List (Nat × Capture)) :
    (commentMarker word name).ends ⟨⟨before', v ++ (gap ++ '<' :: z)⟩, captures⟩ = [] := by
  refine List.eq_nil_iff_forall_not_mem.2 fun t ht => ?_
  obtain ⟨g, hg, rest, hrest, -⟩ := mem_ends_commentMarker.1 ht
  obtain ⟨hopen, hlast⟩ := commentText_closed hname hword hg
  obtain ⟨k, hk⟩ := prefix_of_prefix_seam hopen hlast hgap hv ⟨rest, hrest.symm⟩
  have hmem : _ ∈ (commentMarker word name).ends ⟨⟨before, v⟩, []⟩ :=
    mem_ends_commentMarker.2 ⟨g, hg, k, hk.symm, rfl⟩
  rw [h] at hmem
  exact List.not_mem_nil hmem

theorem ends_bareMarker_seam {word : String} (hword : '<' ∉ word.toList) {before : List Char}
    (h : (bareMarker word name).ends ⟨⟨before, v⟩, []⟩ = []) (captures : List (Nat × Capture)) :
    (bareMarker word name).ends ⟨⟨before, v ++ (gap ++ '<' :: z)⟩, captures⟩ = [] := by
  refine List.eq_nil_iff_forall_not_mem.2 fun t ht => ?_
  obtain ⟨hbefore, mid, hmid, rest, hrest, hnext, -⟩ := mem_ends_bareMarker.1 ht
  obtain ⟨hopen, hlast⟩ := bareText_closed hname hword hmid.1
  obtain ⟨k, rfl⟩ := prefix_of_prefix_seam hopen hlast hgap hv ⟨rest, hrest.symm⟩
  rw [List.append_assoc, List.append_cancel_left_eq] at hrest
  -- the name ends inside the part, or the part ends with it
  have hnextInside : ∀ c ∈ k.head?, nameChar.has c = false :=
    fun c hc => hnext c (hrest ▸ List.mem_head?_append_of_mem_head? hc)
  have hmem : _ ∈ (bareMarker word name).ends ⟨⟨before, bareText word mid name ++ k⟩, []⟩ :=
    mem_ends_bareMarker.2 ⟨hbefore, mid, hmid, k, rfl, hnextInside, rfl⟩
  rw [h] at hmem
  exact List.not_mem_nil hmem

omit hv in
/-- A text that does not open a section holds no match of it, if blanks and a bracket follow. -/
theorem quiet_pattern_seam {s : List Char}
    (hcomment : (commentMarker "BEGIN" name).occursIn s = false)
    (hbare : (bareMarker "BEGIN" name).occursIn s = false) :
    Quiet (pattern name) [] s (gap ++ '<' :: z) := by
  refine quiet_iff.2 fun u v hs hv => ?_
  have hopen := quiet_iff.1 (quiet_of_occursIn hcomment) u v hs hv
  have hopenBare := quiet_iff.1 (quiet_of_occursIn hbare) u v hs hv
  simp only [List.append_nil] at hopen hopenBare ⊢
  rw [ends_pattern, ends_all_of_nil (ends_commentMarker_seam hname hgap hv (by decide) hopen _ _),
    ends_all_of_nil (ends_bareMarker_seam hname hgap hv (by decide) hopenBare _)]
  rfl

end

/-! ## The added section -/

/-- The gaps of a marker that is added: one blank each. -/
def oneBlank : Gaps := ⟨[' '], [' '], [' ']⟩

theorem valid_oneBlank : oneBlank.Valid := ⟨rfl, rfl, by decide, rfl, by decide⟩

theorem toList_block (name content : String) :
    (block name content).toList = commentText "BEGIN" name.toList oneBlank ++
      (content.toList ++ commentText "END" name.toList oneBlank) := by
  unfold block
  simp [commentText, oneBlank]

section

variable {name : List Char} (hname : IsName name) {body : List Char}
  (hclosing : (commentMarker "END" name).occursIn body = false)

include hname hclosing

/-- The section is one match, and nothing is left behind it. -/
theorem segmentsFrom_added (before : List Char) :
    ∃ m, inner m = body ∧ (pattern name).segmentsFrom 0 before
        (commentText "BEGIN" name oneBlank ++ (body ++ commentText "END" name oneBlank)) =
      [.found m] := by
  -- the text inside does not close the section, and the marker behind it begins with a bracket
  have hinside : ∀ u v, body = u ++ v → v ≠ [] → ∀ before captures,
      (commentMarker "END" name).ends
        ⟨⟨before, v ++ (commentText "END" name oneBlank ++ [])⟩, captures⟩ = [] := by
    intro u v huv hv before captures
    have hnone := quiet_iff.1 (quiet_of_occursIn hclosing) u v huv hv
    simp only [List.append_nil] at hnone ⊢
    exact ends_commentMarker_seam hname (show allBlank [] = true from rfl) hv (by decide) hnone
      before captures
  obtain ⟨t, hends, hafter, hinner⟩ := exists_end_commented hname valid_oneBlank valid_oneBlank
    hinside before (commentText "BEGIN" name oneBlank ++ (body ++ commentText "END" name oneBlank))
  have hne : commentText "BEGIN" name oneBlank ++ (body ++ commentText "END" name oneBlank) ≠ [] :=
    List.cons_ne_nil _ _
  rw [← List.append_assoc body, ← List.append_assoc] at hends
  refine ⟨_, hinner, ?_⟩
  have hscan := segmentsFrom_of_match hne hends hafter
  rwa [segmentsFrom_nil ((atOpenings_pattern name).elsewhere _ [] (by decide) (by decide)),
    List.append_nil] at hscan

/-- A text with an added section at the end is scanned up to the section, which is one match. -/
theorem segments_added {front gap : List Char}
    (hcomment : (commentMarker "BEGIN" name).occursIn front = false)
    (hbare : (bareMarker "BEGIN" name).occursIn front = false) (hgap : allBlank gap = true) :
    ∃ m, inner m = body ∧ (pattern name).segments (front ++ (gap ++
        (commentText "BEGIN" name oneBlank ++ (body ++ commentText "END" name oneBlank)))) =
      (front ++ gap).map .plain ++ [.found m] := by
  have hfront : Quiet (pattern name) [] front (gap ++
      (commentText "BEGIN" name oneBlank ++ (body ++ commentText "END" name oneBlank))) :=
    quiet_pattern_seam hname hgap hcomment hbare
  have hseam := quiet_of_silent (atOpenings_pattern name) (silent_gap hgap
    (commentText "BEGIN" name oneBlank ++ (body ++ commentText "END" name oneBlank)))
    (front.reverse ++ [])
  obtain ⟨m, hinner, hsegments⟩ :=
    segmentsFrom_added hname hclosing (gap.reverse ++ (front.reverse ++ []))
  refine ⟨m, hinner, ?_⟩
  rw [segments, segmentsFrom_of_quiet hfront, segmentsFrom_of_quiet hseam, hsegments,
    List.map_append, List.append_assoc]

end

/-- Replacing the matches of a text that is scanned up to one match at its end. -/
theorem replaceAll_of_segments {p : Pattern} {s front : List Char} {m : Match}
    (h : p.segments s = front.map .plain ++ [.found m]) (new : Match → List Char) :
    p.replaceAll new s = front ++ new m := by
  rw [Pattern.replaceAll, h]
  simp [List.flatMap_map]

end Stencil.Section

namespace Stencil.Template

open Section Text

/-- What stands in front of a section that is added. -/
def front (t : Template) : String := if t.content.isEmpty then "" else t.content ++ "\n\n"

/-- The front is the content with blanks behind it, or nothing. -/
theorem toList_front (t : Template) :
    ∃ gap, allBlank gap = true ∧ t.front.toList = t.content.toList ++ gap := by
  unfold front
  split
  case isTrue h => exact ⟨[], rfl, by simp [String.isEmpty_iff.1 h]⟩
  case isFalse => exact ⟨['\n', '\n'], rfl, by simp⟩

theorem content_appendSection (t : Template) (name content : String) (rules : List Rule) :
    (t.appendSection name content rules).content = t.front ++ Section.block name content := by
  unfold front appendSection
  split
  · exact String.empty_append.symm
  · rfl

/-- A section is added if its text is not blank and its name, without the blanks around it, is the
name of a section. -/
theorem addSection_eq_ok_iff {t t' : Template} {name content : String} {rules : List Rule} :
    t.addSection name content rules = .ok t' ↔
      IsName (strip name.toList) ∧ allBlank content.toList = false ∧
        t.appendSection (String.ofList (strip name.toList)) content rules = t' := by
  have hblank : allBlank name.toList = true ↔ strip name.toList = [] := (strip_eq_nil_iff _).symm
  unfold addSection
  simp only [IsName, ← List.all_eq_true, String.toList_ofList]
  split
  case isTrue h => simp [hblank.1 h]
  case isFalse h =>
    have hne : strip name.toList ≠ [] := fun hnil => h (hblank.2 hnil)
    split
    case isTrue hcontent => simp [hcontent]
    case isFalse hcontent =>
      split
      case isTrue hchars => simp [hne, hcontent, hchars]
      case isFalse hchars => simp [hchars]

/-- **An added section can be taken back.**  Hiding it gives back what stood in front of it, and
showing it leaves its text there, if the content in front did not open the section and the text does
not close it. -/
theorem addSection_undone {t t' : Template} {name content : String} {rules : List Rule}
    (hstripped : strip name.toList = name.toList) (h : t.addSection name content rules = .ok t')
    (hcomment : (commentMarker "BEGIN" name.toList).occursIn t.content.toList = false)
    (hbare : (bareMarker "BEGIN" name.toList).occursIn t.content.toList = false)
    (hclosing : (commentMarker "END" name.toList).occursIn content.toList = false) :
    remove name.toList t'.content.toList = t.front.toList ∧
      reveal name.toList t'.content.toList = (t.front ++ content).toList := by
  obtain ⟨hname, -, rfl⟩ := addSection_eq_ok_iff.1 h
  rw [hstripped] at hname
  obtain ⟨gap, hgap, hfront⟩ := t.toList_front
  obtain ⟨m, hinner, hsegments⟩ := segments_added hname hclosing hcomment hbare hgap
  have htext : (t.appendSection (String.ofList (strip name.toList)) content rules).content.toList =
      t.content.toList ++ (gap ++ (commentText "BEGIN" name.toList oneBlank ++
        (content.toList ++ commentText "END" name.toList oneBlank))) := by
    rw [content_appendSection, hstripped, String.ofList_toList, String.toList_append, hfront,
      toList_block, List.append_assoc]
  rw [remove, reveal, htext, replaceAll_of_segments hsegments, replaceAll_of_segments hsegments,
    hinner, String.toList_append, hfront, List.append_nil]
  exact ⟨rfl, rfl⟩

/-- A letter with markers that open nothing, and a section whose text closes it only almost. -/
theorem addSection_undone_letter :
    let t : Template := { content := "END fees <!-- END fees --> BEGIN fees.v2 <!-- BEGIN" }
    let content := "BEGIN fees 3% END fees <!-- BEGIN fees --> <!-- END fee --> <!-- END fees"
    ∃ t', t.addSection "fees" content [] = .ok t' ∧
      remove "fees".toList t'.content.toList = t.front.toList ∧
      reveal "fees".toList t'.content.toList = (t.front ++ content).toList :=
  ⟨_, rfl, addSection_undone (by decide) rfl (by decide) (by decide) (by decide)⟩

end Stencil.Template
