import Stencil.Section.Marker
import Stencil.Proofs.Pattern.Scanning

/-!
# What a marker of a section matches

A marker in a comment matches the comment with its name and nothing else (`ends_commentMarker`,
`ends_commentMarker_of_ne`), whatever blanks stand inside it; a bare marker matches its word, blanks
and its name, unless it continues a word or the name goes on (`ends_bareMarker`).  No choice is left
in either: there is one match or none.
-/

namespace Stencil.Section

open Pattern Text

/-! ## Characters -/

theorem isWord_of_mem_range {low high : Nat}
    (h : ∀ k < high + 1 - low, isWord (Char.ofNat (low + k)) = false) {c : Char}
    (hc : low ≤ c.toNat ∧ c.toNat ≤ high) : isWord c = false := by
  have hk := h (c.toNat - low) (by omega)
  rwa [Nat.add_sub_cancel' hc.1, Char.ofNat_toNat] at hk

theorem isWord_of_toNat_eq {n : Nat} (h : isWord (Char.ofNat n) = false) {c : Char}
    (hc : c.toNat = n) : isWord c = false := by
  rwa [← hc, Char.ofNat_toNat] at h

/-- No blank is a character of a word. -/
theorem isWord_of_isBlank {c : Char} (h : isBlank c = true) : isWord c = false := by
  simp only [isBlank, Bool.or_eq_true, Bool.and_eq_true, decide_eq_true_eq, beq_iff_eq] at h
  rcases h with (((((((((h | h) | h) | h) | h) | h) | h) | h) | h) | h) | h
  · exact isWord_of_mem_range (by decide +kernel) h
  · exact isWord_of_mem_range (by decide +kernel) h
  · exact isWord_of_toNat_eq (by decide +kernel) h
  · exact isWord_of_toNat_eq (by decide +kernel) h
  · exact isWord_of_toNat_eq (by decide +kernel) h
  · exact isWord_of_mem_range (by decide +kernel) h
  · exact isWord_of_toNat_eq (by decide +kernel) h
  · exact isWord_of_toNat_eq (by decide +kernel) h
  · exact isWord_of_toNat_eq (by decide +kernel) h
  · exact isWord_of_toNat_eq (by decide +kernel) h
  · exact isWord_of_toNat_eq (by decide +kernel) h

theorem range_has_self (d c : Char) : (CharItem.range d.toNat d.toNat).has c = (c == d) := by
  have := CharSet.has_single d c
  simpa [CharSet.single, CharSet.has] using this

theorem nameChar_has (c : Char) : nameChar.has c = (isWord c || (c == '.' || c == '-')) := by
  have hdot : (CharItem.range 46 46).has c = (c == '.') := range_has_self '.' c
  have hdash : (CharItem.range 45 45).has c = (c == '-') := range_has_self '-' c
  simp only [nameChar, CharSet.has, Casing.variants_exact, List.any_cons, List.any_nil,
    Bool.or_false, Bool.bne_false, hdot, hdash]
  rfl

theorem wordOrDash_has (c : Char) : wordOrDash.has c = (isWord c || c == '-') := by
  have hdash : (CharItem.range 45 45).has c = (c == '-') := range_has_self '-' c
  simp only [wordOrDash, CharSet.has, Casing.variants_exact, List.any_cons, List.any_nil,
    Bool.or_false, Bool.bne_false, hdash]
  rfl

theorem nameChar_of_isBlank {c : Char} (h : isBlank c = true) : nameChar.has c = false := by
  have hdot : (c == '.') = false := by
    rw [beq_eq_false_iff_ne]
    rintro rfl
    exact absurd h (by decide)
  have hdash : (c == '-') = false := by
    rw [beq_eq_false_iff_ne]
    rintro rfl
    exact absurd h (by decide)
  rw [nameChar_has, isWord_of_isBlank h, hdot, hdash]
  rfl

theorem isBlank_of_nameChar {c : Char} (h : nameChar.has c = true) : isBlank c = false := by
  cases hc : isBlank c with
  | false => rfl
  | true => rw [nameChar_of_isBlank hc] at h; cases h

theorem wordOrDash_of_isBlank {c : Char} (h : isBlank c = true) : wordOrDash.has c = false := by
  have hname := nameChar_of_isBlank h
  rw [nameChar_has, Bool.or_eq_false_iff, Bool.or_eq_false_iff] at hname
  rw [wordOrDash_has, hname.1, hname.2.2]
  rfl

/-- A name of a section: characters of names, at least one. -/
def IsName (name : List Char) : Prop := name ≠ [] ∧ ∀ c ∈ name, nameChar.has c = true

instance (name : List Char) : Decidable (IsName name) :=
  decidable_of_iff (name ≠ [] ∧ name.all nameChar.has = true) (by rw [IsName, List.all_eq_true])

theorem IsName.head {name : List Char} (h : IsName name) (rest : List Char) :
    ∀ c ∈ (name ++ rest).head?, isBlank c = false := by
  obtain ⟨hne, hchars⟩ := h
  cases name with
  | nil => exact absurd rfl hne
  | cons d name =>
    intro c hc
    have hcd : c = d := by simpa [eq_comm] using hc
    exact hcd ▸ isBlank_of_nameChar (hchars d List.mem_cons_self)

/-- What begins with blanks begins with a blank. -/
theorem head_of_gap {gap : List Char} (h : allBlank gap = true) (hne : gap ≠ [])
    (rest : List Char) : ∀ c ∈ (gap ++ rest).head?, isBlank c = true := by
  cases gap with
  | nil => exact absurd rfl hne
  | cons d gap =>
    intro c hc
    have hcd : c = d := by simpa [eq_comm] using hc
    exact hcd ▸ List.all_eq_true.1 h d List.mem_cons_self

/-- The same for a text given in reverse. -/
theorem head_of_gap_reverse {gap : List Char} (h : allBlank gap = true) (hne : gap ≠ [])
    (rest : List Char) : ∀ c ∈ (gap.reverse ++ rest).head?, isBlank c = true := by
  have hrev : allBlank gap.reverse = true := by
    rw [allBlank, List.all_reverse]
    exact h
  exact head_of_gap hrev (by simpa using hne) rest

/-- Nothing but blanks is in a gap. -/
theorem notMem_gap {c : Char} (hc : isBlank c = false) {gap : List Char}
    (h : allBlank gap = true) : c ∉ gap := by
  intro hmem
  have hblank := List.all_eq_true.1 h c hmem
  rw [hc] at hblank
  cases hblank

/-- No blank is in a word without blanks. -/
theorem not_mem_of_isBlank {w : List Char} (hw : (w.all fun c => !isBlank c) = true) {c : Char}
    (h : isBlank c = true) : c ∉ w := by
  intro hc
  have hnone := List.all_eq_true.1 hw c hc
  rw [h] at hnone
  cases hnone

/-- A name in front of a text that begins with another name ends before that name does. -/
theorem prefix_of_prefix_append {set : CharSet} {name name' after : List Char}
    (hname : ∀ c ∈ name, set.has c = true) (hafter : ∀ c ∈ after.head?, set.has c = false)
    (h : name <+: name' ++ after) : name <+: name' := by
  obtain ⟨z, hz⟩ := h
  rcases List.append_eq_append_iff.1 hz with ⟨k, hk, -⟩ | ⟨k, hk, hky⟩
  · exact ⟨k, hk.symm⟩
  · cases k with
    | nil => exact ⟨[], by rw [hk]; simp⟩
    | cons e k =>
      have h1 := hafter e (by rw [hky]; rfl)
      have h2 := hname e (by rw [hk]; simp)
      rw [h1] at h2
      cases h2

/-- A word is not the beginning of a text that lacks one of its characters, unless it goes on behind
that text. -/
theorem not_prefix_append {w x after : List Char} {c : Char} (hc : c ∈ w) (hx : c ∉ x)
    (hafter : ∀ d ∈ after.head?, d ∉ w) : ¬ w <+: x ++ after := by
  rintro ⟨z, hz⟩
  rcases List.append_eq_append_iff.1 hz with ⟨k, hk, -⟩ | ⟨k, hk, hky⟩
  · exact hx (by rw [hk]; exact List.mem_append_left k hc)
  · cases k with
    | nil => exact hx (by rwa [hk, List.append_nil] at hc)
    | cons e k => exact hafter e (by rw [hky]; rfl) (by rw [hk]; simp)

/-! ## Blanks between words -/

/-- A word that begins with something else than a blank. -/
def Full (w : List Char) : Prop := ∃ c w', w = c :: w' ∧ isBlank c = false

theorem IsName.full {name : List Char} (h : IsName name) : Full name := by
  obtain ⟨hne, hchars⟩ := h
  cases name with
  | nil => exact absurd rfl hne
  | cons c name => exact ⟨c, name, rfl, isBlank_of_nameChar (hchars c List.mem_cons_self)⟩

theorem ends_all_exactly (w : List Char) (ps : List Pattern) (before rest : List Char)
    (captures : List (Nat × Capture)) :
    (all (exactly w :: ps)).ends ⟨⟨before, w ++ rest⟩, captures⟩ =
      (all ps).ends ⟨⟨w.reverse ++ before, rest⟩, captures⟩ := by
  rw [ends_all_cons, ends_exactly_append, List.flatMap_cons, List.flatMap_nil, List.append_nil]

theorem ends_all_exactly_of_not_isPrefix {w after : List Char} (h : ¬ w <+: after)
    (ps : List Pattern) (before : List Char) (captures : List (Nat × Capture)) :
    (all (exactly w :: ps)).ends ⟨⟨before, after⟩, captures⟩ = [] :=
  ends_all_of_nil (ends_exactly_of_not_isPrefix h before captures) ps

/-- A word that begins with something else than a blank is not matched where a blank stands. -/
theorem ends_all_exactly_of_blank {w : List Char} (hw : Full w) (ps : List Pattern) (s : State)
    (h : ∃ c after, s.cursor.after = c :: after ∧ (CharSet.kind .blank).has c = true) :
    (all (exactly w :: ps)).ends s = [] := by
  obtain ⟨⟨before, after⟩, captures⟩ := s
  obtain ⟨c, rest, hafter, hc⟩ := h
  obtain ⟨d, w, rfl, hd⟩ := hw
  refine ends_all_exactly_of_not_isPrefix (fun hp => ?_) ps before captures
  rw [show after = c :: rest from hafter] at hp
  have hdc : d = c := (List.cons_prefix_cons.1 hp).1
  rw [CharSet.has_kind] at hc
  rw [hdc] at hd
  exact absurd (show isBlank c = true from hc) (by simp [hd])

/-- A gap is a run of blanks as patterns know them. -/
theorem blank_of_gap {gap : List Char} (h : allBlank gap = true) :
    ∀ c ∈ gap, (CharSet.kind .blank).has c = true := by
  intro c hc
  rw [CharSet.has_kind]
  exact List.all_eq_true.1 h c hc

theorem not_blank_of_head {after : List Char} (h : ∀ c ∈ after.head?, isBlank c = false) :
    ∀ c ∈ after.head?, (CharSet.kind .blank).has c = false := by
  intro c hc
  rw [CharSet.has_kind]
  exact h c hc

section

variable {gap after w : List Char} (hgap : allBlank gap = true)
  (hafter : ∀ c ∈ after.head?, isBlank c = false) (hw : Full w) (ps : List Pattern)
  (before : List Char) (captures : List (Nat × Capture))

include hgap hafter hw

/-- Blanks in front of a word are taken as a whole. -/
theorem ends_blanks_exactly :
    (all (blanks :: exactly w :: ps)).ends ⟨⟨before, gap ++ after⟩, captures⟩ =
      (all (exactly w :: ps)).ends ⟨⟨gap.reverse ++ before, after⟩, captures⟩ := by
  rw [ends_all_cons]
  exact flatMap_ends_many (blank_of_gap hgap) (not_blank_of_head hafter) before captures
    (ends_all_exactly_of_blank hw ps)

omit hgap in
/-- Without blanks the word has to stand right here. -/
theorem ends_blanks_exactly_here :
    (all (blanks :: exactly w :: ps)).ends ⟨⟨before, after⟩, captures⟩ =
      (all (exactly w :: ps)).ends ⟨⟨before, after⟩, captures⟩ :=
  ends_blanks_exactly (show allBlank [] = true from rfl) hafter hw ps before captures

theorem ends_blanks1_exactly (hne : gap ≠ []) :
    (all (blanks1 :: exactly w :: ps)).ends ⟨⟨before, gap ++ after⟩, captures⟩ =
      (all (exactly w :: ps)).ends ⟨⟨gap.reverse ++ before, after⟩, captures⟩ := by
  rw [ends_all_cons]
  exact flatMap_ends_many1 (blank_of_gap hgap) (not_blank_of_head hafter) before captures
    (ends_all_exactly_of_blank hw ps) hne

end

/-! ## Markers in comments -/

/-- The blanks inside a marker: before its word, between its word and its name, and behind the
name. -/
structure Gaps where
  lead : List Char
  mid : List Char
  trail : List Char
  deriving DecidableEq

/-- The gaps hold blanks only, and there are some on both sides of the name. -/
structure Gaps.Valid (g : Gaps) : Prop where
  lead : allBlank g.lead = true
  mid : allBlank g.mid = true
  mid_ne : g.mid ≠ []
  trail : allBlank g.trail = true
  trail_ne : g.trail ≠ []

def commentText (word : String) (name : List Char) (g : Gaps) : List Char :=
  "<!--".toList ++ (g.lead ++ (word.toList ++ (g.mid ++ (name ++ (g.trail ++ "-->".toList)))))

theorem Full.head {w : List Char} (h : Full w) (rest : List Char) :
    ∀ c ∈ (w ++ rest).head?, isBlank c = false := by
  obtain ⟨d, w, rfl, hd⟩ := h
  intro c hc
  have hcd : c = d := by simpa [eq_comm] using hc
  exact hcd ▸ hd

/-- The beginning of a comment with a word is matched as it stands. -/
theorem ends_commentWord {word : List Char} {lead : List Char} (hlead : allBlank lead = true)
    (hword : Full word) (ps : List Pattern) (before after : List Char)
    (captures : List (Nat × Capture)) :
    (all (exactly "<!--".toList :: blanks :: exactly word :: ps)).ends
        ⟨⟨before, "<!--".toList ++ (lead ++ (word ++ after))⟩, captures⟩ =
      (all ps).ends
        ⟨⟨word.reverse ++ (lead.reverse ++ ("<!--".toList.reverse ++ before)), after⟩,
          captures⟩ := by
  rw [ends_all_exactly, ends_blanks_exactly hlead (hword.head after) hword, ends_all_exactly]

/-- The beginning of a comment is not matched where the comment has another word. -/
theorem ends_commentWord_of_not_isPrefix {word word' : List Char} {lead : List Char}
    (hlead : allBlank lead = true) (hword : Full word) (hword' : Full word') {after : List Char}
    (h : ¬ word <+: word' ++ after) (ps : List Pattern) (before : List Char)
    (captures : List (Nat × Capture)) :
    (all (exactly "<!--".toList :: blanks :: exactly word :: ps)).ends
        ⟨⟨before, "<!--".toList ++ (lead ++ (word' ++ after))⟩, captures⟩ = [] := by
  rw [ends_all_exactly, ends_blanks_exactly hlead (hword'.head after) hword,
    ends_all_exactly_of_not_isPrefix h]

section

variable {word : String} {g : Gaps} (hg : g.Valid) (hword : Full word.toList)

include hg hword

/-- A marker in a comment is matched up to its name. -/
theorem ends_commentMarker_upToName {name after : List Char} (hname : IsName name)
    (hafter : ∀ c ∈ after.head?, isBlank c = false) (before : List Char)
    (captures : List (Nat × Capture)) :
    (commentMarker word name).ends
        ⟨⟨before, "<!--".toList ++ (g.lead ++ (word.toList ++ (g.mid ++ after)))⟩, captures⟩ =
      (all [exactly name, blanks, exactly "-->".toList]).ends
        ⟨⟨g.mid.reverse ++ (word.toList.reverse ++ (g.lead.reverse ++
          ("<!--".toList.reverse ++ before))), after⟩, captures⟩ := by
  unfold commentMarker
  rw [ends_commentWord hg.lead hword, ends_blanks_exactly hg.mid hafter hname.full]

/-- A marker in a comment matches the comment with its name. -/
theorem ends_commentMarker {name : List Char} (hname : IsName name) (before rest : List Char)
    (captures : List (Nat × Capture)) :
    (commentMarker word name).ends ⟨⟨before, commentText word name g ++ rest⟩, captures⟩ =
      [⟨⟨(commentText word name g).reverse ++ before, rest⟩, captures⟩] := by
  have hclose : ∀ c ∈ ("-->".toList ++ rest).head?, isBlank c = false := by
    intro c hc
    have hcd : c = '-' := by simpa [eq_comm] using hc
    exact hcd ▸ rfl
  have hfull : Full "-->".toList := ⟨'-', ['-', '>'], rfl, rfl⟩
  simp only [commentText, List.append_assoc]
  rw [ends_commentMarker_upToName hg hword hname (hname.head _), ends_all_exactly,
    ends_blanks_exactly hg.trail hclose hfull, ends_all_exactly]
  simp [all, ends]

/-- It does not match a comment with another name. -/
theorem ends_commentMarker_of_ne {name name' : List Char} (hname : IsName name)
    (hname' : IsName name') (hne : name ≠ name') (before rest : List Char)
    (captures : List (Nat × Capture)) :
    (commentMarker word name).ends ⟨⟨before, commentText word name' g ++ rest⟩, captures⟩ = [] := by
  simp only [commentText, List.append_assoc]
  rw [ends_commentMarker_upToName hg hword hname (hname'.head _)]
  have htrail := head_of_gap hg.trail hg.trail_ne ("-->".toList ++ rest)
  by_cases hstart : name <+: name' ++ (g.trail ++ ("-->".toList ++ rest))
  · -- the name in the comment goes on where `name` ends, and no comment ends there
    have hshorter := prefix_of_prefix_append hname.2
      (fun c hc => nameChar_of_isBlank (htrail c hc)) hstart
    obtain ⟨z, rfl⟩ := hshorter
    have hz : ∀ c ∈ z, nameChar.has c = true := fun c hc => hname'.2 c (List.mem_append_right _ hc)
    have hzne : z ≠ [] := by
      rintro rfl
      exact hne (List.append_nil name).symm
    have hopen : ¬ "-->".toList <+: z ++ (g.trail ++ ("-->".toList ++ rest)) := by
      refine not_prefix_append (c := '>') (by decide) (fun h => ?_) fun d hd => ?_
      · exact absurd (hz '>' h) (by decide)
      · exact not_mem_of_isBlank (by decide) (htrail d hd)
    have hfull : Full "-->".toList := ⟨'-', ['-', '>'], rfl, rfl⟩
    rw [List.append_assoc, ends_all_exactly,
      ends_blanks_exactly_here (IsName.head ⟨hzne, hz⟩ _) hfull]
    exact ends_all_exactly_of_not_isPrefix hopen _ _ _
  · exact ends_all_exactly_of_not_isPrefix hstart _ _ _

end

/-! ## Bare markers -/

def bareText (word : String) (mid name : List Char) : List Char :=
  word.toList ++ (mid ++ name)

theorem bareMarker_eq (word : String) (name : List Char) :
    bareMarker word name =
      all [freshWord, exactly word.toList, blanks1, exactly name, .ahead true (.one nameChar)] :=
  rfl

/-- The place is right after neither a word nor a dash, or nothing is matched. -/
theorem ends_freshWord_cases (s : State) : freshWord.ends s = [s] ∨ freshWord.ends s = [] := by
  simp only [freshWord, ends, lookEnds]
  split
  · exact Or.inr rfl
  · exact Or.inl rfl

theorem ends_freshWord {before : List Char} (h : ∀ c ∈ before.head?, wordOrDash.has c = false)
    (after : List Char) (captures : List (Nat × Capture)) :
    freshWord.ends ⟨⟨before, after⟩, captures⟩ = [⟨⟨before, after⟩, captures⟩] := by
  cases before with
  | nil => rfl
  | cons c before =>
    have hc := h c rfl
    simp [freshWord, ends, Cursor.back?, hc]

theorem ends_notAhead {after : List Char} (h : ∀ c ∈ after.head?, nameChar.has c = false)
    (before : List Char) (captures : List (Nat × Capture)) :
    (Pattern.ahead true (.one nameChar)).ends ⟨⟨before, after⟩, captures⟩ =
      [⟨⟨before, after⟩, captures⟩] := by
  cases after with
  | nil => rfl
  | cons c after =>
    have hc := h c rfl
    simp [ends, hc]

theorem ends_notAhead_of_has {c : Char} (h : nameChar.has c = true) (before after : List Char)
    (captures : List (Nat × Capture)) :
    (Pattern.ahead true (.one nameChar)).ends ⟨⟨before, c :: after⟩, captures⟩ = [] := by
  simp [ends, h]

/-- What stands behind a fresh word is not matched where the word does not begin. -/
theorem ends_freshWord_of_not_isPrefix {w after : List Char} (h : ¬ w <+: after)
    (ps : List Pattern) (before : List Char) (captures : List (Nat × Capture)) :
    (all (freshWord :: exactly w :: ps)).ends ⟨⟨before, after⟩, captures⟩ = [] := by
  rw [ends_all_cons]
  rcases ends_freshWord_cases ⟨⟨before, after⟩, captures⟩ with hfresh | hfresh
  · rw [hfresh, List.flatMap_cons, List.flatMap_nil, ends_all_exactly_of_not_isPrefix h]
    rfl
  · rw [hfresh, List.flatMap_nil]

/-- A bare marker matches where its word begins or not at all. -/
theorem ends_bareMarker_of_not_isPrefix {word : String} {after : List Char}
    (h : ¬ word.toList <+: after) (name before : List Char) (captures : List (Nat × Capture)) :
    (bareMarker word name).ends ⟨⟨before, after⟩, captures⟩ = [] := by
  exact ends_freshWord_of_not_isPrefix h _ before captures

section

variable {word : String} {mid name : List Char} (hmid : allBlank mid = true) (hmid_ne : mid ≠ [])
  (hname : IsName name) {rest : List Char} (hrest : ∀ c ∈ rest.head?, nameChar.has c = false)

include hmid hmid_ne hname hrest

/-- A bare marker that continues no word matches its word, the blanks and its name. -/
theorem ends_bareMarker {before : List Char}
    (hbefore : ∀ c ∈ before.head?, wordOrDash.has c = false)
    (captures : List (Nat × Capture)) :
    (bareMarker word name).ends ⟨⟨before, bareText word mid name ++ rest⟩, captures⟩ =
      [⟨⟨(bareText word mid name).reverse ++ before, rest⟩, captures⟩] := by
  simp only [bareText, List.append_assoc]
  rw [bareMarker_eq, ends_all_cons, ends_freshWord hbefore, List.flatMap_cons, List.flatMap_nil,
    List.append_nil, ends_all_exactly, ends_blanks1_exactly hmid (hname.head _) hname.full _ _ _
    hmid_ne, ends_all_exactly]
  rw [show all [Pattern.ahead true (.one nameChar)] = .ahead true (.one nameChar) from rfl,
    ends_notAhead hrest]
  simp

/-- It does not match a marker with another name. -/
theorem ends_bareMarker_of_ne {name' : List Char} (hname' : IsName name') (hne : name' ≠ name)
    (before : List Char) (captures : List (Nat × Capture)) :
    (bareMarker word name').ends ⟨⟨before, bareText word mid name ++ rest⟩, captures⟩ = [] := by
  simp only [bareText, List.append_assoc]
  rw [bareMarker_eq, ends_all_cons]
  rcases ends_freshWord_cases ⟨⟨before, word.toList ++ (mid ++ (name ++ rest))⟩, captures⟩ with
    hfresh | hfresh
  · rw [hfresh, List.flatMap_cons, List.flatMap_nil, List.append_nil, ends_all_exactly,
      ends_blanks1_exactly hmid (hname.head _) hname'.full _ _ _ hmid_ne]
    by_cases hstart : name' <+: name ++ rest
    · -- the name in the text goes on where `name'` ends
      obtain ⟨z, rfl⟩ := prefix_of_prefix_append hname'.2 hrest hstart
      cases z with
      | nil => exact absurd (List.append_nil name').symm hne
      | cons c z =>
        have hc := hname.2 c (by simp)
        rw [List.append_assoc, ends_all_exactly]
        exact ends_notAhead_of_has hc _ _ _
    · exact ends_all_exactly_of_not_isPrefix hstart _ _ _
  · rw [hfresh, List.flatMap_nil]

end

end Stencil.Section
