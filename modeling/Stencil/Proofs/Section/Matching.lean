import Stencil.Proofs.Section.WellMarked

/-!
# Matching a region

What the patterns of sections match in a text of well-marked pieces.  A section's pattern and the
pattern of opening markers match nowhere but where a region opens (`atOpenings_pattern`,
`atOpenings_openingPattern`).  There the pattern with the name of the region matches all of it and
shows its text inside (`exists_end_pattern`), the pattern with another name matches nothing
(`quiet_of_name_ne`), and the opening pattern finds the name (`exists_end_openingPattern`).
-/

namespace Stencil.Section

open Pattern Text

/-! ## Only opening markers are matched -/

theorem full_begin : Full "BEGIN".toList := ⟨'B', "EGIN".toList, rfl, by decide⟩

theorem full_end : Full "END".toList := ⟨'E', "ND".toList, rfl, by decide⟩

theorem not_isPrefix_begin_comment (rest : List Char) :
    ¬ "BEGIN".toList <+: "<!--".toList ++ rest :=
  fun h => absurd (List.cons_prefix_cons.1 h).1 (by decide)

theorem not_isPrefix_begin_end (rest : List Char) : ¬ "BEGIN".toList <+: "END".toList ++ rest :=
  fun h => absurd (List.cons_prefix_cons.1 h).1 (by decide)

theorem not_isPrefix_comment_begin (rest : List Char) :
    ¬ "<!--".toList <+: "BEGIN".toList ++ rest :=
  fun h => absurd (List.cons_prefix_cons.1 h).1 (by decide)

theorem ends_pattern (name : List Char) (s : State) :
    (pattern name).ends s =
      (all [commentMarker "BEGIN" name, .group 1 (few .any), commentMarker "END" name]).ends s ++
        (all [bareMarker "BEGIN" name, blanks, .group 2 (few .any), blanks,
          bareMarker "END" name]).ends s := rfl

theorem atOpenings_pattern (name : List Char) : AtOpenings (pattern name) where
  elsewhere before after hcomment hbegin := by
    have hopen : (commentMarker "BEGIN" name).ends ⟨⟨before, after⟩, []⟩ = [] :=
      ends_all_exactly_of_not_isPrefix hcomment _ before []
    rw [ends_pattern, ends_all_of_nil hopen,
      ends_all_of_nil (ends_bareMarker_of_not_isPrefix hbegin name before [])]
    rfl
  closing name' g hname' hg before after := by
    simp only [commentText, List.append_assoc]
    have hopen : (commentMarker "BEGIN" name).ends ⟨⟨before, "<!--".toList ++ (g.lead ++
        ("END".toList ++ (g.mid ++ (name' ++ (g.trail ++ ("-->".toList ++ after))))))⟩, []⟩ = [] :=
      ends_commentWord_of_not_isPrefix hg.lead full_begin full_end (not_isPrefix_begin_end _) _
        before []
    rw [ends_pattern, ends_all_of_nil hopen, ends_all_of_nil
      (ends_bareMarker_of_not_isPrefix (not_isPrefix_begin_comment _) name before [])]
    rfl

theorem ends_openingPattern (s : State) :
    openingPattern.ends s =
      ((all [exactly "<!--".toList, blanks, exactly "BEGIN".toList, blanks]).ends s ++
        (all [freshWord, exactly "BEGIN".toList, blanks1]).ends s).flatMap
          (Pattern.group 1 (many1 nameChar)).ends := rfl

theorem atOpenings_openingPattern : AtOpenings openingPattern where
  elsewhere before after hcomment hbegin := by
    rw [ends_openingPattern, ends_all_exactly_of_not_isPrefix hcomment,
      ends_freshWord_of_not_isPrefix hbegin]
    rfl
  closing name' g hname' hg before after := by
    simp only [commentText, List.append_assoc]
    rw [ends_openingPattern, ends_freshWord_of_not_isPrefix (not_isPrefix_begin_comment _),
      ends_commentWord_of_not_isPrefix hg.lead full_begin full_end (not_isPrefix_begin_end _)]
    rfl

/-! ## One region -/

theorem Region.WellFormed.isName {r : Region} (h : r.WellFormed) : IsName r.name := by
  cases r with
  | commented => exact h.1
  | bare => exact h.1

/-- A blank follows the name of the first marker. -/
theorem Region.WellFormed.head_remainder {r : Region} (h : r.WellFormed) (y : List Char) :
    ∀ c ∈ (r.remainder ++ y).head?, isBlank c = true := by
  cases r with
  | commented name body opening closing =>
    obtain ⟨-, -, -, hopening, -⟩ := h
    simp only [Region.remainder, List.append_assoc]
    exact head_of_gap hopening.trail hopening.trail_ne _
  | bare name body afterBegin afterName beforeEnd afterEnd =>
    obtain ⟨-, -, -, -, -, hgaps⟩ := h
    obtain ⟨-, hafterName, -⟩ : _ ∧ _ ∧ _ := by simpa using hgaps
    simp only [Region.remainder, List.append_assoc]
    exact head_of_gap hafterName.1 hafterName.2 _

section

variable {name name' : List Char} (hname : IsName name) (hname' : IsName name')
  (hne : name ≠ name')

include hname hname' hne

theorem ends_pattern_commentText_of_ne {g : Gaps} (hg : g.Valid) (before rest : List Char) :
    (pattern name).ends ⟨⟨before, commentText "BEGIN" name' g ++ rest⟩, []⟩ = [] := by
  have hopen := ends_commentMarker_of_ne hg full_begin hname hname' hne before rest []
  have hbare : (bareMarker "BEGIN" name).ends
      ⟨⟨before, commentText "BEGIN" name' g ++ rest⟩, []⟩ = [] := by
    simp only [commentText, List.append_assoc]
    exact ends_bareMarker_of_not_isPrefix (not_isPrefix_begin_comment _) name before []
  rw [ends_pattern, ends_all_of_nil hopen, ends_all_of_nil hbare]
  rfl

/-- The word and the name of a marker with another name hold no match. -/
theorem quiet_bareText_of_ne (hless : Markerless name') {mid : List Char}
    (hmid : allBlank mid = true) (hmid_ne : mid ≠ []) {y : List Char}
    (hy : ∀ c ∈ y.head?, isBlank c = true) (before : List Char) :
    Quiet (pattern name) before (bareText "BEGIN" mid name') y := by
  have hnext : ∀ c ∈ y.head?, nameChar.has c = false := fun c hc => nameChar_of_isBlank (hy c hc)
  have hbare : (bareMarker "BEGIN" name).ends
      ⟨⟨before, bareText "BEGIN" mid name' ++ y⟩, []⟩ = [] :=
    ends_bareMarker_of_ne hmid hmid_ne hname' hnext hname hne before []
  have hopen : (commentMarker "BEGIN" name).ends
      ⟨⟨before, bareText "BEGIN" mid name' ++ y⟩, []⟩ = [] := by
    simp only [bareText, List.append_assoc]
    exact ends_all_exactly_of_not_isPrefix (not_isPrefix_comment_begin _) _ before []
  have hfirst : (pattern name).ends ⟨⟨before, bareText "BEGIN" mid name' ++ y⟩, []⟩ = [] := by
    rw [ends_pattern, ends_all_of_nil hopen, ends_all_of_nil hbare]
    rfl
  have hrest : Silent ("EGIN".toList ++ (mid ++ name')) y := by
    simp only [silent_append]
    exact ⟨silent_of_not_mem (by decide) (by decide) _, silent_gap hmid _,
      silent_name hname' hless hy⟩
  exact ⟨hfirst, quiet_of_silent (atOpenings_pattern name) hrest _⟩

end

/-- A region with another name holds no match at all. -/
theorem quiet_of_name_ne {name : List Char} (hname : IsName name) {r : Region} (hr : r.WellFormed)
    (hne : name ≠ r.name) {y : List Char} (hy : ∀ c ∈ y.head?, isBlank c = true)
    (before : List Char) : Quiet (pattern name) before r.written y := by
  have hp := atOpenings_pattern name
  have hremainder := hr.head_remainder y
  unfold Region.written
  rw [quiet_append]
  refine ⟨?_, quiet_remainder hp hr hy _⟩
  cases r with
  | commented name' body opening closing =>
    obtain ⟨hname', hless, -, hopening, -⟩ := hr
    have hfirst := ends_pattern_commentText_of_ne hname hname' hne hopening before
      (body ++ (commentText "END" name' closing ++ y))
    have htext : commentText "BEGIN" name' opening ++
        (body ++ (commentText "END" name' closing ++ y)) =
        (Region.commented name' body opening closing).opening ++
          ((Region.commented name' body opening closing).remainder ++ y) := by
      simp only [commentText, Region.opening, Region.remainder, bareText, List.append_assoc]
    rw [htext] at hfirst
    have hrest : Quiet (pattern name) ('<' :: before)
        ("!--".toList ++ (opening.lead ++ bareText "BEGIN" opening.mid name'))
        ((Region.commented name' body opening closing).remainder ++ y) := by
      rw [quiet_append, quiet_append]
      exact ⟨quiet_of_silent hp (silent_of_not_mem (by decide) (by decide) _) _,
        quiet_of_silent hp (silent_gap hopening.lead _) _,
        quiet_bareText_of_ne hname hname' hne hless hopening.mid hopening.mid_ne hremainder _⟩
    exact ⟨hfirst, hrest⟩
  | bare name' body afterBegin afterName beforeEnd afterEnd =>
    obtain ⟨hname', hless, -, -, -, hgaps⟩ := hr
    obtain ⟨hafterBegin, -⟩ : _ ∧ _ := by simpa using hgaps
    exact quiet_bareText_of_ne hname hname' hne hless hafterBegin.1 hafterBegin.2 hremainder _

/-! ## A region with the name -/

section

variable {name : List Char} (hname : IsName name)

include hname

/-- Between its comments a section is matched with the text inside, if no closing marker is matched
there. -/
theorem ends_commented {body y : List Char} {opening closing : Gaps} (hopening : opening.Valid)
    (hclosing : closing.Valid)
    (hinside : ∀ u v, body = u ++ v → v ≠ [] → ∀ before captures,
      (commentMarker "END" name).ends
        ⟨⟨before, v ++ (commentText "END" name closing ++ y)⟩, captures⟩ = [])
    (before : List Char) :
    ∃ before' others,
      (all [commentMarker "BEGIN" name, .group 1 (few .any), commentMarker "END" name]).ends
          ⟨⟨before, commentText "BEGIN" name opening ++
            (body ++ (commentText "END" name closing ++ y))⟩, []⟩ =
        ⟨⟨before', y⟩, [(1, ⟨body ++ (commentText "END" name closing ++ y),
          commentText "END" name closing ++ y⟩)]⟩ :: others := by
  rw [ends_all_cons, ends_commentMarker hopening full_begin hname, List.flatMap_cons,
    List.flatMap_nil, List.append_nil]
  have hnone : ∀ u v, body = u ++ v → v ≠ [] → ∀ captures,
      (all [commentMarker "END" name]).ends
        ⟨⟨u.reverse ++ ((commentText "BEGIN" name opening).reverse ++ before),
          v ++ (commentText "END" name closing ++ y)⟩, captures⟩ = [] :=
    fun u v huv hv captures => hinside u v huv hv _ captures
  obtain ⟨others, hothers⟩ := ends_group_few hnone
  rw [hothers, show all [commentMarker "END" name] = commentMarker "END" name from rfl,
    ends_commentMarker hclosing full_end hname]
  exact ⟨_, others, rfl⟩

/-- Blanks and a bare closing marker are matched as they stand. -/
theorem ends_bareClosing {gap afterEnd y : List Char} (hgap : allBlank gap = true)
    (hafterEnd : allBlank afterEnd = true ∧ afterEnd ≠ [])
    (hy : ∀ c ∈ y.head?, isBlank c = true) {before : List Char}
    (hfresh : ∀ c ∈ (gap.reverse ++ before).head?, wordOrDash.has c = false)
    (captures : List (Nat × Capture)) :
    (all [blanks, bareMarker "END" name]).ends
        ⟨⟨before, gap ++ (bareText "END" afterEnd name ++ y)⟩, captures⟩ =
      [⟨⟨(bareText "END" afterEnd name).reverse ++ (gap.reverse ++ before), y⟩, captures⟩] := by
  have hnext : ∀ c ∈ y.head?, nameChar.has c = false := fun c hc => nameChar_of_isBlank (hy c hc)
  have hhead : ∀ c ∈ (bareText "END" afterEnd name ++ y).head?, isBlank c = false := by
    rw [bareText, List.append_assoc]
    exact full_end.head _
  rw [ends_all_cons, blanks,
    flatMap_ends_many (blank_of_gap hgap) (not_blank_of_head hhead) before captures ?_]
  · exact ends_bareMarker hafterEnd.1 hafterEnd.2 hname hnext hfresh captures
  · rintro ⟨⟨before', after⟩, captures'⟩ ⟨c, after', hafter, hc⟩
    refine ends_bareMarker_of_not_isPrefix (fun hp => ?_) name before' captures'
    rw [show after = c :: after' from hafter] at hp
    have hcE : 'E' = c := (List.cons_prefix_cons.1 hp).1
    rw [← hcE] at hc
    exact absurd hc (by decide)

omit hname in
/-- No bare closing marker is matched, be it behind blanks, in front of a text that holds none and
does not end in a blank. -/
theorem ends_bareClosing_of_noneBegins {v y : List Char} (hv : v ≠ [])
    (hlast : ∀ c ∈ v.getLast?, isBlank c = false) (h : NoneBegins "END".toList v y)
    (before : List Char) (captures : List (Nat × Capture)) :
    (all [blanks, bareMarker "END" name]).ends ⟨⟨before, v ++ y⟩, captures⟩ = [] := by
  rw [ends_all_cons, List.flatMap_eq_nil_iff]
  rintro ⟨⟨before', after⟩, captures'⟩ ht
  obtain ⟨run, hrun, hafter, -⟩ := eq_append_of_mem_ends_many ht
  obtain ⟨c, hc⟩ := Option.isSome_iff_exists.1 (List.getLast?_isSome.2 hv)
  have hcv : c ∈ v := List.mem_of_getLast? hc
  have hcrun : c ∉ run := by
    intro hin
    have hblank := hrun c hin
    rw [CharSet.has_kind, show CharKind.blank.has c = isBlank c from rfl, hlast c hc] at hblank
    cases hblank
  -- the blanks that are passed end inside `v`, whose last character is no blank
  have hinside : ∃ k, v = run ++ k ∧ after = k ++ y := by
    rcases List.append_eq_append_iff.1 hafter with ⟨k, hk, -⟩ | ⟨k, hk, hy⟩
    · exact absurd (hk ▸ List.mem_append_left k hcv) hcrun
    · exact ⟨k, hk, hy⟩
  obtain ⟨k, hk, rfl⟩ := hinside
  have hkne : k ≠ [] := by
    rintro rfl
    rw [List.append_nil] at hk
    exact hcrun (hk ▸ hcv)
  exact ends_bareMarker_of_not_isPrefix (h.not_isPrefix hk hkne) name before' captures'

/-- Behind its first marker and the blanks there a bare section is matched with the text inside. -/
theorem ends_bareBody {body gap afterEnd y : List Char} (hgap : allBlank gap = true)
    (hafterEnd : allBlank afterEnd = true ∧ afterEnd ≠ [])
    (hlast : ∀ c ∈ body.getLast?, isBlank c = false)
    (hbody : NoneBegins "END".toList body (gap ++ (bareText "END" afterEnd name ++ y)))
    (hy : ∀ c ∈ y.head?, isBlank c = true) {before : List Char}
    (hfresh : ∀ c ∈ (gap.reverse ++ (body.reverse ++ before)).head?, wordOrDash.has c = false)
    (captures : List (Nat × Capture)) :
    ∃ before' others,
      (all [.group 2 (few .any), blanks, bareMarker "END" name]).ends
          ⟨⟨before, body ++ (gap ++ (bareText "END" afterEnd name ++ y))⟩, captures⟩ =
        ⟨⟨before', y⟩, (2, ⟨body ++ (gap ++ (bareText "END" afterEnd name ++ y)),
          gap ++ (bareText "END" afterEnd name ++ y)⟩) :: captures⟩ :: others := by
  have hinside : ∀ u v, body = u ++ v → v ≠ [] → ∀ captures',
      (all [blanks, bareMarker "END" name]).ends ⟨⟨u.reverse ++ before,
        v ++ (gap ++ (bareText "END" afterEnd name ++ y))⟩, captures'⟩ = [] := by
    intro u v huv hv captures'
    refine ends_bareClosing_of_noneBegins hv (fun c hc => hlast c ?_) ?_ _ _
    · rw [huv, List.getLast?_append, hc]
      rfl
    · rw [huv] at hbody
      exact (noneBegins_append.1 hbody).2
  obtain ⟨others, hothers⟩ := ends_group_few hinside
  rw [hothers, ends_bareClosing hname hgap hafterEnd hy hfresh]
  exact ⟨_, others, rfl⟩

/-- A bare section is matched with the text inside.  The blanks behind its first marker are taken as
a whole, those of an empty section too, so that nothing may be left for the `gap`. -/
theorem ends_bare {afterBegin run body gap afterEnd y : List Char}
    (hafterBegin : allBlank afterBegin = true ∧ afterBegin ≠ [])
    (hrun : allBlank run = true ∧ run ≠ []) (hgap : allBlank gap = true)
    (hafterEnd : allBlank afterEnd = true ∧ afterEnd ≠ [])
    (hhead : ∀ c ∈ (body ++ (gap ++ (bareText "END" afterEnd name ++ y))).head?, isBlank c = false)
    (hlast : ∀ c ∈ body.getLast?, isBlank c = false) (hspace : gap ≠ [] ∨ body = [])
    (hbody : NoneBegins "END".toList body (gap ++ (bareText "END" afterEnd name ++ y)))
    (hy : ∀ c ∈ y.head?, isBlank c = true) {before : List Char}
    (hbefore : ∀ c ∈ before.head?, isBlank c = true) :
    ∃ before' others,
      (all [bareMarker "BEGIN" name, blanks, .group 2 (few .any), blanks,
        bareMarker "END" name]).ends
          ⟨⟨before, bareText "BEGIN" afterBegin name ++
            (run ++ (body ++ (gap ++ (bareText "END" afterEnd name ++ y))))⟩, []⟩ =
        ⟨⟨before', y⟩, [(2, ⟨body ++ (gap ++ (bareText "END" afterEnd name ++ y)),
          gap ++ (bareText "END" afterEnd name ++ y)⟩)]⟩ :: others := by
  have hnext : ∀ c ∈ (run ++ (body ++ (gap ++ (bareText "END" afterEnd name ++ y)))).head?,
      nameChar.has c = false :=
    fun c hc => nameChar_of_isBlank (head_of_gap hrun.1 hrun.2 _ c hc)
  have hopen : ∀ c ∈ before.head?, wordOrDash.has c = false :=
    fun c hc => wordOrDash_of_isBlank (hbefore c hc)
  -- a blank stands in front of the closing marker, out of `gap` or out of `run`
  have hfresh : ∀ c ∈ (gap.reverse ++ (body.reverse ++ (run.reverse ++
      ((bareText "BEGIN" afterBegin name).reverse ++ before)))).head?,
        wordOrDash.has c = false := by
    intro c hc
    refine wordOrDash_of_isBlank ?_
    by_cases hnil : gap = []
    · have hbodyNil : body = [] := hspace.resolve_left fun hne => hne hnil
      subst hnil hbodyNil
      exact head_of_gap_reverse hrun.1 hrun.2 _ c hc
    · exact head_of_gap_reverse hgap hnil _ c hc
  obtain ⟨before', others, hinside⟩ := ends_bareBody hname hgap hafterEnd hlast hbody hy hfresh []
  obtain ⟨shorter, hblanks, -⟩ := ends_many_run (blank_of_gap hrun.1) (not_blank_of_head hhead)
    ((bareText "BEGIN" afterBegin name).reverse ++ before) []
  rw [ends_all_cons, ends_bareMarker hafterBegin.1 hafterBegin.2 hname hnext hopen,
    List.flatMap_cons, List.flatMap_nil, List.append_nil, ends_all_cons, blanks, hblanks,
    List.flatMap_cons]
  rw [← blanks, hinside]
  exact ⟨before', _, rfl⟩

end

theorem inner_first (text : List Char) (c : Capture) :
    inner ⟨text, [(1, c)]⟩ = c.text := rfl

theorem inner_second (text : List Char) (c : Capture) :
    inner ⟨text, [(2, c)]⟩ = c.text := rfl

/-- A section between comments is matched with its name up to the first closing marker, and what the
match shows is the text inside. -/
theorem exists_end_commented {name : List Char} (hname : IsName name) {body y : List Char}
    {opening closing : Gaps} (hopening : opening.Valid) (hclosing : closing.Valid)
    (hinside : ∀ u v, body = u ++ v → v ≠ [] → ∀ before captures,
      (commentMarker "END" name).ends
        ⟨⟨before, v ++ (commentText "END" name closing ++ y)⟩, captures⟩ = [])
    (before text : List Char) :
    ∃ t, ((pattern name).ends ⟨⟨before, commentText "BEGIN" name opening ++
        (body ++ (commentText "END" name closing ++ y))⟩, []⟩).head? = some t ∧
      t.cursor.after = y ∧ inner ⟨text, t.captures⟩ = body := by
  obtain ⟨before', others, hends⟩ := ends_commented hname hopening hclosing hinside before
  rw [ends_pattern, hends]
  refine ⟨_, rfl, rfl, ?_⟩
  rw [inner_first, Capture.text_append]

/-- A region is matched with its name, and what the match shows is the text inside. -/
theorem exists_end_pattern {r : Region} (hr : r.WellFormed) {before y : List Char}
    (hbefore : ∀ c ∈ before.head?, isBlank c = true) (hy : ∀ c ∈ y.head?, isBlank c = true) :
    ∃ t, ((pattern r.name).ends ⟨⟨before, r.written ++ y⟩, []⟩).head? = some t ∧
      t.cursor.after = y ∧ inner ⟨r.written, t.captures⟩ = r.body := by
  cases r with
  | commented name body opening closing =>
    obtain ⟨hname, -, hbody, hopening, hclosing⟩ := hr
    have hinside : NoneBegins "<!--".toList body (commentText "END" name closing ++ y) := by
      refine noneBegins_of_not_isInfix hbody.noComment fun c hc => ?_
      have hcd : c = '<' := by simpa [commentText, eq_comm] using hc
      subst hcd
      decide
    have htext : (Region.commented name body opening closing).written ++ y =
        commentText "BEGIN" name opening ++ (body ++ (commentText "END" name closing ++ y)) := by
      simp only [Region.written, Region.opening, Region.remainder, bareText, commentText,
        List.append_assoc]
    rw [htext]
    exact exists_end_commented hname hopening hclosing (fun u v huv hv _ _ =>
      ends_all_exactly_of_not_isPrefix (hinside.not_isPrefix huv hv) _ _ _) before _
  | bare name body afterBegin afterName beforeEnd afterEnd =>
    obtain ⟨hname, -, hbody, hfirst, hlast, hgaps⟩ := hr
    obtain ⟨hafterBegin, hafterName, hbeforeEnd, hafterEnd⟩ : _ ∧ _ ∧ _ ∧ _ := by simpa using hgaps
    have htext : (Region.bare name body afterBegin afterName beforeEnd afterEnd).written ++ y =
        bareText "BEGIN" afterBegin name ++
          (afterName ++ (body ++ (beforeEnd ++ (bareText "END" afterEnd name ++ y)))) := by
      simp only [Region.written, Region.opening, Region.remainder, List.append_assoc]
    have hcomment : (all [commentMarker "BEGIN" name, .group 1 (few .any),
        commentMarker "END" name]).ends ⟨⟨before, bareText "BEGIN" afterBegin name ++
          (afterName ++ (body ++ (beforeEnd ++ (bareText "END" afterEnd name ++ y))))⟩, []⟩ =
        [] := by
      simp only [bareText, List.append_assoc]
      exact ends_all_of_nil
        (ends_all_exactly_of_not_isPrefix (not_isPrefix_comment_begin _) _ before []) _
    simp only [Region.name, Region.body]
    rw [htext, ends_pattern, hcomment, List.nil_append]
    cases body with
    | nil =>
      have hboth : allBlank (afterName ++ beforeEnd) = true ∧ afterName ++ beforeEnd ≠ [] := by
        simp_all [allBlank]
      have hclosing : ∀ c ∈ (bareText "END" afterEnd name ++ y).head?, isBlank c = false := by
        rw [bareText, List.append_assoc]
        exact full_end.head _
      obtain ⟨before', others, hends⟩ := ends_bare hname hafterBegin hboth
        (show allBlank [] = true from rfl) hafterEnd hclosing hlast (Or.inr rfl) trivial hy hbefore
      simp only [List.nil_append, List.append_assoc] at hends ⊢
      rw [hends]
      refine ⟨_, rfl, rfl, ?_⟩
      rw [inner_second]
      exact Capture.text_append [] _
    | cons c body =>
      have hinside : NoneBegins "END".toList (c :: body)
          (beforeEnd ++ (bareText "END" afterEnd name ++ y)) := by
        refine noneBegins_of_not_isInfix hbody.noEnd fun d hd => ?_
        exact not_mem_of_isBlank (by decide) (head_of_gap hbeforeEnd.1 hbeforeEnd.2 _ d hd)
      obtain ⟨before', others, hends⟩ := ends_bare hname hafterBegin hafterName hbeforeEnd.1
        hafterEnd hfirst hlast (Or.inl hbeforeEnd.2) hinside hy hbefore
      rw [hends]
      refine ⟨_, rfl, rfl, ?_⟩
      rw [inner_second, Capture.text_append]

/-! ## Opening markers -/

/-- The text is an opening marker up to its name, behind `before`: in a comment, or bare where it
continues no word. -/
inductive IsOpening (name before : List Char) : List Char → Prop
  | commented {lead mid : List Char} (hlead : allBlank lead = true) (hmid : allBlank mid = true) :
      IsOpening name before ("<!--".toList ++ (lead ++ bareText "BEGIN" mid name))
  | bare {mid : List Char} (hbefore : ∀ c ∈ before.head?, wordOrDash.has c = false)
      (hmid : allBlank mid = true) (hmid_ne : mid ≠ []) :
      IsOpening name before (bareText "BEGIN" mid name)

/-- The first marker of a region is one. -/
theorem Region.WellFormed.isOpening {r : Region} (hr : r.WellFormed) {before : List Char}
    (hbefore : ∀ c ∈ before.head?, isBlank c = true) : IsOpening r.name before r.opening := by
  cases r with
  | commented name body opening closing =>
    obtain ⟨-, -, -, hopening, -⟩ := hr
    exact .commented hopening.lead hopening.mid
  | bare name body afterBegin afterName beforeEnd afterEnd =>
    obtain ⟨-, -, -, -, -, hgaps⟩ := hr
    obtain ⟨hafterBegin, -⟩ : _ ∧ _ := by simpa using hgaps
    exact .bare (fun c hc => wordOrDash_of_isBlank (hbefore c hc)) hafterBegin.1 hafterBegin.2

section

variable {name : List Char} (hname : IsName name) {before x : List Char}
  (hx : IsOpening name before x)

include hname hx

/-- An opening marker is preferably read up to its name. -/
theorem ends_upToName (rest : List Char) :
    ∃ before' others,
      (all [exactly "<!--".toList, blanks, exactly "BEGIN".toList, blanks]).ends
          ⟨⟨before, x ++ rest⟩, []⟩ ++
        (all [freshWord, exactly "BEGIN".toList, blanks1]).ends ⟨⟨before, x ++ rest⟩, []⟩ =
      ⟨⟨before', name ++ rest⟩, []⟩ :: others := by
  have hfirst := not_blank_of_head (hname.head rest)
  cases hx with
  | @commented lead mid hlead hmid =>
    obtain ⟨shorter, hblanks, -⟩ := ends_many_run (blank_of_gap hmid) hfirst
      ("BEGIN".toList.reverse ++ (lead.reverse ++ ("<!--".toList.reverse ++ before))) []
    simp only [bareText, List.append_assoc] at hblanks ⊢
    rw [ends_commentWord hlead full_begin, show all [blanks] = blanks from rfl, blanks, hblanks]
    exact ⟨_, _, rfl⟩
  | @bare mid hbefore hmid hmid_ne =>
    obtain ⟨shorter, hblanks, -⟩ := ends_many1_run (blank_of_gap hmid) hfirst
      ("BEGIN".toList.reverse ++ before) [] hmid_ne
    simp only [bareText, List.append_assoc] at hblanks ⊢
    rw [ends_all_exactly_of_not_isPrefix (not_isPrefix_comment_begin _), List.nil_append,
      ends_all_cons, ends_freshWord hbefore, List.flatMap_cons, List.flatMap_nil, List.append_nil,
      ends_all_exactly, show all [blanks1] = blanks1 from rfl, blanks1, hblanks]
    exact ⟨_, _, rfl⟩

/-- An opening marker is found with its name. -/
theorem exists_end_openingPattern {rest : List Char}
    (hrest : ∀ c ∈ rest.head?, nameChar.has c = false) :
    ∃ t, (openingPattern.ends ⟨⟨before, x ++ rest⟩, []⟩).head? = some t ∧
      t.cursor.after = rest ∧ Match.group? ⟨x, t.captures⟩ 1 = some name := by
  obtain ⟨before', others, hends⟩ := ends_upToName hname hx rest
  obtain ⟨shorter, hrun, -⟩ := ends_many1_run hname.2 hrest before' [] hname.1
  rw [ends_openingPattern, hends, List.flatMap_cons, Pattern.ends, hrun]
  exact ⟨_, rfl, rfl, congrArg some (Capture.text_append name rest)⟩

end

end Stencil.Section
