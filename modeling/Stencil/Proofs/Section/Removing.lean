import Stencil.Proofs.Section.Extending

/-!
# Removing sections twice

What is left when the sections of a name are removed is the text at which the pattern does not
match, joined over the seams where sections stood (`left`).  A section may be left again, made of a
marker that has such a seam inside (`Seamed`).  A marker without a seam stood in the text before,
between what let it be a marker there (`IsMarker.kept_or_seamed`); if both markers of a section had
stood there, the pattern would have matched at the first one (`seamed_of_left`).  So removing twice
is removing once where no marker that is left has a seam (`remove_remove`).
-/

namespace Stencil.Section

open Pattern Text

/-! ## Markers -/

/-- The text is a marker as it is written between `before` and `rest`, in a comment or bare. -/
inductive IsMarker (word : String) (name before rest : List Char) : Bool → List Char → Prop
  | commented {g : Gaps} (hg : g.Blank) :
      IsMarker word name before rest true (commentText word name g)
  | bare {mid : List Char} (hbefore : ∀ c ∈ before.head?, wordOrDash.has c = false)
      (hmid : allBlank mid = true ∧ mid ≠ []) (hrest : ∀ c ∈ rest.head?, nameChar.has c = false) :
      IsMarker word name before rest false (bareText word mid name)

/-- A section is an opening marker, any text and a closing marker of the same form. -/
theorem isSection_iff {name before rest text : List Char} :
    IsSection name before rest text ↔ ∃ form o body c, text = o ++ (body ++ c) ∧
      IsMarker "BEGIN" name before (body ++ (c ++ rest)) form o ∧
        IsMarker "END" name (body.reverse ++ (o.reverse ++ before)) rest form c := by
  constructor
  · rintro (⟨hopening, hclosing, body⟩ | ⟨hbefore, hmid, hopened, hclosing, hmid', hrest⟩)
    · exact ⟨true, _, body, _, rfl, .commented hopening, .commented hclosing⟩
    · exact ⟨false, _, _, _, rfl, .bare hbefore hmid hopened, .bare hclosing hmid' hrest⟩
  · rintro ⟨_, _, body, _, rfl, ⟨hopening⟩ | ⟨hbefore, hmid, hopened⟩, hclose⟩
    · cases hclose with
      | commented hclosing => exact .commented hopening hclosing body
    · cases hclose with
      | bare hclosing hmid' hrest => exact .bare hbefore hmid hopened hclosing hmid' hrest

/-! ## What is left -/

/-- What is left of a segment when sections are removed. -/
def leftOf : Segment → List Char
  | .plain c => [c]
  | .found _ => []

def left (segs : List Segment) : List Char := segs.flatMap leftOf

theorem remove_eq (name content : List Char) :
    remove name content = left ((pattern name).segments content) := by
  refine congrArg (((pattern name).segments content).flatMap ·) (funext fun seg => ?_)
  cases seg <;> rfl

theorem left_append (segs segs' : List Segment) : left (segs ++ segs') = left segs ++ left segs' :=
  List.flatMap_append

theorem left_plain (m : List Char) : left (m.map .plain) = m := by
  induction m with
  | nil => rfl
  | cons c m ih => exact congrArg (c :: ·) ih

theorem length_left_le (segs : List Segment) :
    (left segs).length ≤ (segs.flatMap Segment.text).length := by
  induction segs with
  | nil => exact Nat.le_refl _
  | cons seg segs ih =>
    rw [List.flatMap_cons, List.length_append]
    cases seg with
    | plain c =>
      show (left segs).length + 1 ≤ 1 + _
      omega
    | found m =>
      show (left segs).length ≤ _
      omega

/-- Removing changes nothing exactly where there is no section. -/
theorem remove_eq_self_iff {name s : List Char} : remove name s = s ↔ occurs name s = false := by
  have htext := flatMap_text_segments (pattern name) s
  rw [remove_eq]
  constructor
  · intro h
    rw [← Bool.not_eq_true]
    intro hoccurs
    obtain ⟨seg, hseg, hsome⟩ := List.any_eq_true.1 hoccurs
    cases seg with
    | plain c => cases hsome
    | found m =>
      -- what is left is shorter by the text of the match
      obtain ⟨x, y, -, hmatch⟩ :=
        exists_place_of_mem_findAll (consuming_pattern name) (mem_findAll_iff.2 hseg)
      have hpos : 0 < m.text.length :=
        List.length_pos_iff.2 (consuming_pattern name _ _ hmatch)
      obtain ⟨earlier, later, hsegs⟩ := List.append_of_mem hseg
      have hlength := congrArg List.length (h.trans htext.symm)
      rw [hsegs, left_append, List.flatMap_append, List.flatMap_cons, List.length_append,
        List.length_append, List.length_append] at hlength
      have hearlier := length_left_le earlier
      have hlater := length_left_le later
      have hfound : (left (.found m :: later)).length = (left later).length := rfl
      have hword : (Segment.found m).text.length = m.text.length := rfl
      omega
  · intro h
    have hplain : ∀ seg ∈ (pattern name).segments s, leftOf seg = seg.text := by
      intro seg hseg
      cases seg with
      | plain c => rfl
      | found m => exact absurd rfl (List.any_eq_false.1 h _ hseg)
    rw [left, List.flatMap_def, List.map_congr_left hplain, ← List.flatMap_def, htext]

/-! ## Seams -/

/-- Where a character is left, it is a segment of its own. -/
theorem exists_plain_of_left {segs : List Segment} {x z : List Char} {c : Char}
    (h : left segs = x ++ c :: z) :
    ∃ earlier later, segs = earlier ++ .plain c :: later ∧ left earlier = x ∧ left later = z := by
  induction segs generalizing x with
  | nil => simp [left] at h
  | cons seg segs ih =>
    cases seg with
    | plain d =>
      have hcons : d :: left segs = x ++ c :: z := h
      cases x with
      | nil =>
        obtain ⟨rfl, hz⟩ := List.cons.inj hcons
        exact ⟨[], segs, rfl, rfl, hz⟩
      | cons d' x =>
        obtain ⟨rfl, hrest⟩ := List.cons.inj hcons
        obtain ⟨earlier, later, rfl, rfl, hz⟩ := ih hrest
        exact ⟨.plain d :: earlier, later, rfl, rfl, hz⟩
    | found m =>
      obtain ⟨earlier, later, rfl, rfl, hz⟩ := ih h
      exact ⟨.found m :: earlier, later, rfl, rfl, hz⟩

/-- What is left at the beginning stood there, or a section has been removed inside of it. -/
theorem whole_or_seam {segs : List Segment} {m y : List Char} (h : left segs = m ++ y) :
    (∃ later, segs = m.map .plain ++ later ∧ left later = y) ∨
      ∃ m₁ r later m₂, segs = m₁.map .plain ++ .found r :: later ∧ m = m₁ ++ m₂ ∧ m₂ ≠ [] ∧
        left later = m₂ ++ y := by
  induction m generalizing segs with
  | nil => exact .inl ⟨segs, rfl, h⟩
  | cons c m ih =>
    cases segs with
    | nil => cases h
    | cons seg segs =>
      cases seg with
      | plain d =>
        obtain ⟨rfl, hrest⟩ := List.cons.inj (show d :: left segs = c :: (m ++ y) from h)
        rcases ih hrest with ⟨later, rfl, hy⟩ | ⟨m₁, r, later, m₂, rfl, rfl, hne, hy⟩
        · exact .inl ⟨later, rfl, hy⟩
        · exact .inr ⟨d :: m₁, r, later, m₂, rfl, rfl, hne, hy⟩
      | found r => exact .inr ⟨[], r, segs, c :: m, rfl, rfl, List.cons_ne_nil c m, h⟩

/-- In the part `m` of what is left of the segments, between `x` and `y`, stood a section that has
been removed; or it stood right behind that part, and the name of the section ends in a dot. -/
def Seamed (name : List Char) (segs : List Segment) (x m y : List Char) : Prop :=
  ∃ earlier r later m₁ m₂, segs = earlier ++ .found r :: later ∧ left earlier = x ++ m₁ ∧
    left later = m₂ ++ y ∧ m = m₁ ++ m₂ ∧ m₁ ≠ [] ∧ (m₂ ≠ [] ∨ name.getLast? = some '.')

theorem Seamed.append_left {name : List Char} {segs : List Segment} {x m y : List Char}
    (h : Seamed name segs x m y) (front : List Segment) :
    Seamed name (front ++ segs) (left front ++ x) m y := by
  obtain ⟨earlier, r, later, m₁, m₂, rfl, hearlier, hlater, hm, hne, hseam⟩ := h
  refine ⟨front ++ earlier, r, later, m₁, m₂, by simp, ?_, hlater, hm, hne, hseam⟩
  rw [left_append, hearlier, List.append_assoc]

/-! ## Sections at the border of a marker -/

theorem isSection_of_matchAt {name before s : List Char} {r : Match}
    (h : (pattern name).matchAt false ⟨before, r.text ++ s⟩ = some r) :
    IsSection name before s r.text := by
  obtain ⟨t, ht, hafter, -⟩ := exists_end_of_matchAt h
  obtain ⟨text, htext, hsection⟩ := isSection_of_mem_ends (List.mem_of_mem_head? ht)
  obtain rfl := List.append_cancel_left hafter
  rw [List.append_cancel_right htext]
  exact hsection

/-- A section ends with a bracket, or no name goes on behind it. -/
theorem IsSection.last {name before rest text : List Char}
    (h : IsSection name before rest text) :
    text.getLast? = some '>' ∨ ∀ c ∈ rest.head?, nameChar.has c = false := by
  cases h with
  | @commented opening closing hopening hclosing body =>
    left
    have htext : commentText "BEGIN" name opening ++ (body ++ commentText "END" name closing) =
        commentText "BEGIN" name opening ++ body ++ "<!--".toList ++ closing.lead ++
          "END".toList ++ closing.mid ++ name ++ closing.trail ++ "--".toList ++ ['>'] := by
      simp [commentText]
    rw [htext, List.getLast?_append]
    rfl
  | bare hbefore hmid hopened hclosing hmid' hrest => exact .inr hrest

/-- A section begins with a bracket, or it continues no word. -/
theorem IsSection.first {name before rest text : List Char}
    (h : IsSection name before rest text) :
    text.head? = some '<' ∨ ∀ c ∈ before.head?, wordOrDash.has c = false := by
  cases h with
  | commented => exact .inl rfl
  | bare hbefore => exact .inr hbefore

section

variable {name : List Char} {before before' s : List Char} {earlier later : List Segment}

/-- A section that ends right in front of a character of names ends with a bracket. -/
theorem last_of_found {r : Match} (hscan : Scanned (pattern name) before s (.found r :: later))
    {c : Char} {z : List Char} (hs : s = r.text ++ c :: z) (hc : nameChar.has c = true) :
    r.text.getLast? = some '>' := by
  cases hscan with
  | found hne hmatch hlater =>
    obtain rfl := List.append_cancel_left hs
    refine (isSection_of_matchAt hmatch).last.resolve_right fun hnext => ?_
    rw [hnext c rfl] at hc
    cases hc

/-- Behind what is left in front no word goes on in the text either. -/
theorem fresh_of_left (hscan : Scanned (pattern name) before s (earlier ++ later))
    (hhead : before'.head? = before.head?) {c : Char} {z : List Char}
    (hs : s = earlier.flatMap Segment.text ++ c :: z) (hc : nameChar.has c = true)
    (hleft : ∀ d ∈ ((left earlier).reverse ++ before').head?, wordOrDash.has d = false) :
    ∀ d ∈ ((earlier.flatMap Segment.text).reverse ++ before).head?, wordOrDash.has d = false := by
  rcases List.eq_nil_or_concat earlier with rfl | ⟨front, seg, rfl⟩
  · rw [left, List.flatMap_nil, List.reverse_nil, List.nil_append, hhead] at hleft
    exact hleft
  · rw [List.concat_eq_append] at *
    cases seg with
    | plain d => simpa [left, leftOf, Segment.text] using hleft
    | found r =>
      -- a section was removed in front, and what stands there is its bracket
      rw [List.append_assoc] at hscan
      obtain ⟨s', rfl, hrest⟩ := hscan.of_append
      have hplace : s' = r.text ++ c :: z := by
        simpa [Segment.text] using hs
      have hlast : r.text.getLast? = some '>' := last_of_found hrest hplace hc
      rw [List.flatMap_append, List.reverse_append, List.append_assoc, List.head?_append,
        List.head?_reverse, List.flatMap_singleton, Segment.text, hlast]
      rintro d ⟨⟩
      decide

/-- In front of what is left behind a name the name does not go on, unless a section begins there
and the name ends in a dot. -/
theorem ends_of_left (hname : IsName name) (hscan : Scanned (pattern name) before s later)
    (hlast : before.head? = name.getLast?)
    (hleft : ∀ c ∈ (left later).head?, nameChar.has c = false) :
    (∀ c ∈ s.head?, nameChar.has c = false) ∨
      ∃ r rest, later = .found r :: rest ∧ name.getLast? = some '.' := by
  cases hscan with
  | nil => exact .inl (by simp)
  | plain hnone hs => exact .inl hleft
  | @found _ rest r segs hne hmatch hs =>
    rcases (isSection_of_matchAt hmatch).first with hfirst | hbefore
    · left
      rw [List.head?_append, hfirst]
      rintro c ⟨⟩
      decide
    · -- the last character of the name can only be a dot
      right
      refine ⟨r, segs, rfl, ?_⟩
      obtain ⟨c, hc⟩ := Option.isSome_iff_exists.1 (List.getLast?_isSome.2 hname.1)
      have hfresh := hbefore c (hlast.trans hc)
      have hchar := hname.2 c (List.mem_of_getLast? hc)
      rw [wordOrDash_has, Bool.or_eq_false_iff] at hfresh
      rw [nameChar_has, hfresh.1, hfresh.2, Bool.false_or, Bool.or_false, beq_iff_eq] at hchar
      rw [hc, hchar]

end

theorem text_plain (m : List Char) : (m.map Segment.plain).flatMap Segment.text = m := by
  induction m with
  | nil => rfl
  | cons c m ih => exact congrArg (c :: ·) ih

/-- The word begins with a character of names, as those of markers do. -/
def IsMarkerWord (word : String) : Prop := ∃ c w, word.toList = c :: w ∧ nameChar.has c = true

theorem isMarkerWord_begin : IsMarkerWord "BEGIN" := ⟨'B', _, rfl, by decide⟩

theorem isMarkerWord_end : IsMarkerWord "END" := ⟨'E', _, rfl, by decide⟩

theorem IsMarker.exists_cons {word : String} (hword : IsMarkerWord word)
    {name before rest m : List Char} {form : Bool} (h : IsMarker word name before rest form m) :
    ∃ c z, m = c :: z := by
  obtain ⟨c, w, hcons, -⟩ := hword
  cases h with
  | commented => exact ⟨_, _, rfl⟩
  | bare => exact ⟨c, _, by rw [bareText, hcons]; rfl⟩

/-- What stands behind a bare marker stands behind the last character of its name. -/
theorem head?_behind_bareText {name : List Char} (hname : IsName name) (word : String)
    (mid before : List Char) :
    ((bareText word mid name).reverse ++ before).head? = name.getLast? := by
  obtain ⟨c, hc⟩ := Option.isSome_iff_exists.1 (List.getLast?_isSome.2 hname.1)
  simp only [List.head?_append, List.head?_reverse, bareText, List.getLast?_append, hc,
    Option.some_or]

/-- A marker that is left stood in the text before, or it has a seam. -/
theorem IsMarker.kept_or_seamed {word : String} (hword : IsMarkerWord word) {name : List Char}
    (hname : IsName name) {before before' s : List Char} {segs : List Segment}
    (hscan : Scanned (pattern name) before s segs) (hhead : before'.head? = before.head?)
    {x m y : List Char} {form : Bool} (hm : IsMarker word name (x.reverse ++ before') y form m)
    (hleft : left segs = x ++ (m ++ y)) :
    Seamed name segs x m y ∨
      ∃ earlier later z, segs = earlier ++ (m.map .plain ++ later) ∧ left earlier = x ∧
        left later = y ∧ s = earlier.flatMap Segment.text ++ (m ++ z) ∧
          IsMarker word name ((earlier.flatMap Segment.text).reverse ++ before) z form m := by
  obtain ⟨c, m', hcons⟩ := hm.exists_cons hword
  obtain ⟨earlier, segs', rfl, rfl, hleft'⟩ := exists_plain_of_left
    (show left segs = x ++ c :: (m' ++ y) by rw [hleft, hcons]; rfl)
  rcases whole_or_seam hleft' with ⟨later, rfl, rfl⟩ | ⟨m₁, r, later, m₂, rfl, rfl, hne, hy⟩
  · have hsplit : Segment.plain c :: (m'.map .plain ++ later) = m.map .plain ++ later := by
      rw [hcons]
      rfl
    rw [hsplit] at hscan ⊢
    obtain ⟨s', rfl, hplace⟩ := hscan.of_append
    obtain ⟨z, rfl, hlater⟩ := hplace.of_append
    rw [text_plain] at hlater hscan ⊢
    cases hm with
    | commented hg => exact .inr ⟨earlier, later, z, rfl, rfl, rfl, rfl, .commented hg⟩
    | @bare mid hbefore hmid hrest =>
      have hfirst : nameChar.has c = true := by
        obtain ⟨d, w, hd, hchar⟩ := hword
        rw [bareText, hd] at hcons
        rwa [← (List.cons.inj hcons).1]
      have hfresh := fresh_of_left hscan hhead (c := c) (z := m' ++ z) (by rw [hcons]; rfl) hfirst
        hbefore
      rcases ends_of_left hname hlater (head?_behind_bareText hname ..) hrest with
        hends | ⟨r, rest, rfl, hdot⟩
      · exact .inr ⟨earlier, later, z, rfl, rfl, rfl, rfl, .bare hfresh hmid hends⟩
      · refine .inl ⟨earlier ++ (bareText word mid name).map .plain, r, rest,
          bareText word mid name, [], by simp, ?_, rfl, (List.append_nil _).symm, ?_, .inr hdot⟩
        · rw [left_append, left_plain]
        · rw [hcons]
          exact List.cons_ne_nil c m'
  · refine .inl ⟨earlier ++ .plain c :: m₁.map .plain, r, later, c :: m₁, m₂, by simp, ?_, hy,
      hcons, List.cons_ne_nil c m₁, .inl hne⟩
    rw [left_append]
    exact congrArg (left earlier ++ c :: ·) (left_plain m₁)

/-- A section that is left has a seam in one of its markers. -/
theorem seamed_of_left {name : List Char} (hname : IsName name) {content x o body c y : List Char}
    {form : Bool} (hleft : remove name content = x ++ (o ++ (body ++ (c ++ y))))
    (ho : IsMarker "BEGIN" name x.reverse (body ++ (c ++ y)) form o)
    (hc : IsMarker "END" name (body.reverse ++ (o.reverse ++ x.reverse)) y form c) :
    Seamed name ((pattern name).segments content) x o (body ++ (c ++ y)) ∨
      Seamed name ((pattern name).segments content) (x ++ (o ++ body)) c y := by
  have hscan := scanned_segments (consuming_pattern name) content
  rw [remove_eq] at hleft
  generalize (pattern name).segments content = segs at hscan hleft ⊢
  obtain ⟨d, o', ho'⟩ := ho.exists_cons isMarkerWord_begin
  rw [← List.append_nil x.reverse] at ho
  rcases ho.kept_or_seamed isMarkerWord_begin hname hscan rfl hleft with
    hseam | ⟨earlier, later, z, rfl, rfl, hrest, rfl, hopen⟩
  · exact .inl hseam
  obtain ⟨s, hs, hplace⟩ := hscan.of_append
  obtain rfl := List.append_cancel_left hs
  obtain ⟨z', hz, hlater⟩ := hplace.of_append
  rw [text_plain] at hz hlater
  obtain rfl := List.append_cancel_left hz
  have hhead : (o.reverse ++ (left earlier).reverse).head? =
      (o.reverse ++ ((earlier.flatMap Segment.text).reverse ++ [])).head? := by
    rw [List.head?_append_of_ne_nil, List.head?_append_of_ne_nil]
    all_goals simp [ho']
  rcases hc.kept_or_seamed isMarkerWord_end hname hlater hhead hrest with
    hseam | ⟨inside, last, z', rfl, rfl, rfl, rfl, hclose⟩
  · right
    have hlater := hseam.append_left (earlier ++ o.map .plain)
    rwa [left_append, left_plain, List.append_assoc, List.append_assoc] at hlater
  · -- both markers stood in the text, so a section stood at the first one and was matched there
    have hsection : IsSection name ((earlier.flatMap Segment.text).reverse ++ []) z'
        (o ++ (inside.flatMap Segment.text ++ c)) :=
      isSection_iff.2 ⟨form, o, _, c, rfl, by simpa using hopen, hclose⟩
    obtain ⟨t, ht⟩ := hsection.exists_end
    obtain ⟨m, hm⟩ := exists_matchAt_of_mem_ends ht
    rw [List.append_assoc, List.append_assoc] at hm
    subst ho'
    have hnone := hplace.matchAt_eq_none
    rw [hm] at hnone
    cases hnone

theorem IsMarker.mem {word : String} {name before rest m : List Char} {form : Bool}
    (h : IsMarker word name before rest form m) : ∀ c ∈ name, c ∈ m := by
  intro c hc
  cases h with
  | commented => simp [commentText, hc]
  | bare => simp [bareText, hc]

/-- **Hiding twice is hiding once unless a seam makes a marker.** The second time nothing changes
exactly if no section is left.  A section that is left has a marker inside of which a section stood
that the first time removed, or right behind which one stood if the name ends in a dot.  So where no
marker that is left has such a seam, hiding twice is hiding once. -/
theorem remove_remove {name : List Char} (hname : IsName name) (content : List Char) :
    (remove name (remove name content) = remove name content ↔
      occurs name (remove name content) = false) ∧
    (∀ x o body c y form, remove name content = x ++ (o ++ (body ++ (c ++ y))) →
      IsMarker "BEGIN" name x.reverse (body ++ (c ++ y)) form o →
      IsMarker "END" name (body.reverse ++ (o.reverse ++ x.reverse)) y form c →
        Seamed name ((pattern name).segments content) x o (body ++ (c ++ y)) ∨
          Seamed name ((pattern name).segments content) (x ++ (o ++ body)) c y) ∧
    ((∀ word ∈ ["BEGIN", "END"], ∀ form x m y, remove name content = x ++ (m ++ y) →
        IsMarker word name x.reverse y form m →
          ¬ Seamed name ((pattern name).segments content) x m y) →
      remove name (remove name content) = remove name content) := by
  refine ⟨remove_eq_self_iff, fun x o body c y form hleft ho hc => seamed_of_left hname hleft ho hc,
    fun hseamless => remove_eq_self_iff.2 ?_⟩
  rw [← Bool.not_eq_true]
  intro hoccurs
  obtain ⟨x, text, y, hleft, hsection⟩ := occurs_iff.1 hoccurs
  obtain ⟨form, o, body, c, rfl, ho, hc⟩ := isSection_iff.1 hsection
  have hopening : remove name content = x ++ (o ++ (body ++ (c ++ y))) := by simpa using hleft
  have hclosing : remove name content = (x ++ (o ++ body)) ++ (c ++ y) := by simpa using hleft
  rcases seamed_of_left hname hopening ho hc with hseam | hseam
  · exact hseamless "BEGIN" (by simp) form x o _ hopening ho hseam
  · exact hseamless "END" (by simp) form _ c y hclosing (by simpa using hc) hseam

/-- What is left of a section inside an opening marker has a seam; what is left of a section on its
own stays as it is. -/
theorem remove_remove_letter :
    (Seamed ['a'] ((pattern ['a']).segments "BEGIN BEGIN a x END a a y END a".toList) []
        "BEGIN  a".toList " y END a".toList ∨
      Seamed ['a'] ((pattern ['a']).segments "BEGIN BEGIN a x END a a y END a".toList)
        "BEGIN  a y ".toList "END a".toList []) ∧
      remove ['a'] (remove ['a'] "A BEGIN a x END a B".toList) = "A  B".toList := by
  have hname : IsName ['a'] := by decide +kernel
  obtain ⟨-, hseam, -⟩ := remove_remove hname "BEGIN BEGIN a x END a a y END a".toList
  obtain ⟨-, -, hstays⟩ := remove_remove hname "A BEGIN a x END a B".toList
  have hleft : remove ['a'] "A BEGIN a x END a B".toList = "A  B".toList := by decide +kernel
  constructor
  · have hopening : IsMarker "BEGIN" ['a'] [] " y END a".toList false
        (bareText "BEGIN" [' ', ' '] ['a']) := by
      refine .bare (by simp) (by decide) ?_
      rintro c ⟨⟩
      decide
    have hclosing : IsMarker "END" ['a'] " y a  NIGEB".toList [] false
        (bareText "END" [' '] ['a']) := by
      refine .bare ?_ (by decide) (by simp)
      rintro c ⟨⟩
      decide
    exact hseam [] (bareText "BEGIN" [' ', ' '] ['a']) " y ".toList (bareText "END" [' '] ['a']) []
      false (by decide +kernel) hopening hclosing
  · refine (hstays fun word hword form x m y hout hm _ => ?_).trans hleft
    -- the name stands in every marker, but not in what is left
    rw [hleft] at hout
    have hmem : 'a' ∈ "A  B".toList := by
      rw [hout]
      simp [hm.mem 'a' (by simp)]
    exact absurd hmem (by decide +kernel)

/-- Hiding a section inside an opening marker leaves a section, which hiding once more removes. -/
theorem remove_remove_inside_marker :
    IsName ['a'] ∧
      remove ['a'] "BEGIN BEGIN a x END a a y END a".toList = "BEGIN  a y END a".toList ∧
      remove ['a'] (remove ['a'] "BEGIN BEGIN a x END a a y END a".toList) = [] := by
  decide +kernel

end Stencil.Section
