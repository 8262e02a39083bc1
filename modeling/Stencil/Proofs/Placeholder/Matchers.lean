import Stencil.Placeholder.Catalog
import Stencil.Proofs.Placeholder.Tokens

/-!
# What the matchers find

The first three matchers look for tokens that the joining of lines knows as well: a name with blanks
around it, between the words of an enclosure (`Matcher.Seeks`).  Whatever such a matcher finds is a
token of the text (`Seeks.of_mem_find`), and since these tokens are `Sealed`, it finds every token
with a name that has a key (`Seeks.mem_find`).  Keys depend on characters that are no blanks only,
so a name has the key of the text inside its token (`Framed.key_eq`).
-/

namespace Stencil.Placeholder

open Text Pattern

/-! ## Keys -/

theorem isAlphanum_iff {c : Char} : c.isAlphanum = true ↔
    (65 ≤ c.toNat ∧ c.toNat ≤ 90) ∨ (97 ≤ c.toNat ∧ c.toNat ≤ 122) ∨
      (48 ≤ c.toNat ∧ c.toNat ≤ 57) := by
  have halphanum : c.isAlphanum = ((decide (65 ≤ c.val ∧ c.val ≤ 90) ||
      (decide (97 ≤ c.val) && decide (c.val ≤ 122))) ||
      (decide (48 ≤ c.val) && decide (c.val ≤ 57))) := rfl
  rw [halphanum]
  simp only [Bool.or_eq_true, Bool.and_eq_true, decide_eq_true_eq, UInt32.le_iff_toNat_le]
  exact or_assoc

theorem isAlphanum_of_isBlank {c : Char} (h : isBlank c = true) : c.isAlphanum = false := by
  have hn : c.toNat ≤ 32 ∨ 133 ≤ c.toNat := by
    simp only [isBlank, Bool.or_eq_true, Bool.and_eq_true, decide_eq_true_eq, beq_iff_eq] at h
    omega
  rw [← Bool.not_eq_true, isAlphanum_iff]
  omega

theorem key_append (s s' : List Char) : key (s ++ s') = key s ++ key s' := by
  rw [key, List.filter_append, List.map_append]
  rfl

/-- A key depends on the characters that are no blanks. -/
theorem key_solid (s : List Char) : key (solid s) = key s := by
  rw [key, solid, List.filter_filter]
  refine congrArg (List.map Char.toLower) (List.filter_congr fun c _ => ?_)
  cases hc : isBlank c with
  | true => simp [isAlphanum_of_isBlank hc]
  | false => simp

theorem key_of_allBlank {s : List Char} (h : allBlank s = true) : key s = [] := by
  rw [← key_solid, solid_of_allBlank h]
  rfl

theorem key_eq_of_respaced {R : List Char → List Char → Prop} {s s' : List Char}
    (h : Respaced R s s') : key s' = key s := by
  rw [← key_solid s', ← h.solid_eq, key_solid]

theorem solid_dropWhile (s : List Char) : solid (s.dropWhile isBlank) = solid s := by
  induction s with
  | nil => rfl
  | cons c s ih =>
    cases hc : isBlank c with
    | true =>
      rw [List.dropWhile_cons_of_pos hc, ih, solid, solid, List.filter_cons_of_neg (by simp [hc])]
    | false => rw [List.dropWhile_cons_of_neg (by simp [hc])]

theorem solid_strip (s : List Char) : solid (strip s) = solid s := by
  have hreverse (s : List Char) : solid s.reverse = (solid s).reverse := List.filter_reverse ..
  rw [strip, stripRight, hreverse, solid_dropWhile, hreverse, List.reverse_reverse, stripLeft,
    solid_dropWhile]

theorem key_collapse (s : List Char) : key (collapse '_' s) = key s := by
  have hcons (c : Char) (s : List Char) : key (c :: s) = key [c] ++ key s := key_append [c] s
  have hjoint : key ['_'] = [] := by decide
  have hblank {c : Char} (hc : isBlank c = true) : key [c] = [] :=
    key_of_allBlank (by simpa [allBlank] using hc)
  have hwalk (inRun : Bool) : key (collapseFrom '_' inRun s) = key s := by
    fun_induction collapseFrom '_' inRun s with
    | case1 => rfl
    | case2 c rest hc ih => rw [hcons c, hblank hc, ih, List.nil_append]
    | case3 inRun c rest hc hr ih => rw [hcons '_', hcons c, hblank hc, hjoint, ih]
    | case4 inRun c rest hc ih => rw [hcons c, ih, ← hcons c]
  exact hwalk false

/-- A name has the key of the text that it is read from. -/
theorem key_cleanName (s : List Char) : key (cleanName s) = key s := by
  rw [cleanName, key_collapse, ← key_solid, solid_strip, key_solid]

/-! ## Names with blanks around them -/

/-- The text is a name that the pattern gives, with blanks around it. -/
def Framed (p : Pattern) (inner name : List Char) : Prop :=
  ∃ lead trail, inner = lead ++ (name ++ trail) ∧ allBlank lead = true ∧ Spells p name ∧
    allBlank trail = true

theorem Framed.key_eq {p : Pattern} {inner name : List Char} (h : Framed p inner name) :
    key inner = key name := by
  obtain ⟨lead, trail, rfl, hlead, -, htrail⟩ := h
  rw [key_append, key_append, key_of_allBlank hlead, key_of_allBlank htrail, List.append_nil,
    List.nil_append]

theorem Framed.of_spells {p : Pattern} {s : List Char} (h : Spells p s) : Framed p s s :=
  ⟨[], [], by simp, rfl, h, rfl⟩

namespace Matcher

/-- The matcher looks for tokens of the enclosure: a name that a plain pattern gives, with blanks
around it. -/
structure Seeks (m : Matcher) (e : Enclosure) (p : Pattern) : Prop where
  pattern_eq : m.pattern = padded e.opening p e.closing
  plain : p.isPlain = true
  spells : ∀ inner name, Framed p inner name → Spells e.inner inner

/-- A candidate is a match that is found. -/
theorem exists_match_of_mem_find {m : Matcher} {s : List Char} {c : Candidate}
    (hc : c ∈ m.find s) : ∃ found ∈ m.pattern.findAll s, c.rawPattern = found.text ∧
      c.name = cleanName ((found.group? 1).getD []) ∧ c.matcher = m.name := by
  obtain ⟨found, hfound, hsome⟩ := List.mem_filterMap.1 hc
  simp only [candidate?] at hsome
  split at hsome
  · cases hsome
  · cases hsome
    exact ⟨found, hfound, rfl, rfl, rfl⟩

namespace Seeks

variable {m : Matcher} {e : Enclosure} {p : Pattern} (hm : m.Seeks e p)

include hm

/-- A match is a token with its name. -/
theorem of_matchAt {c : Cursor} {found : Match} (h : m.pattern.matchAt false c = some found) :
    ∃ inner name, Framed p inner name ∧ found.text = e.token inner ∧
      found.group? 1 = some name := by
  obtain ⟨t, ht, hafter, hcaptures⟩ := exists_end_of_matchAt h
  rw [hm.pattern_eq] at ht
  obtain ⟨lead, name, trail, rest, hrest, hlead, hname, htrail, rfl⟩ :=
    (mem_ends_padded hm.plain).1 (List.mem_of_mem_head? ht)
  refine ⟨lead ++ (name ++ trail), name, ⟨lead, trail, rfl, hlead, hname, htrail⟩, ?_, ?_⟩
  · have htoken : c.after = e.token (lead ++ (name ++ trail)) ++ rest := by
      rw [hrest]
      simp only [Enclosure.token, List.append_assoc]
    rw [htoken] at hafter
    exact (List.append_cancel_right hafter).symm
  · rw [Match.group?, hcaptures]
    exact congrArg some (Capture.text_append name _)

theorem matchedBy : e.MatchedBy m.pattern := by
  intro c found hfound
  obtain ⟨inner, name, hframed, htext, -⟩ := hm.of_matchAt hfound
  exact ⟨inner, hm.spells inner name hframed, htext⟩

variable (he : e.Sealed)

include he

/-- Every candidate is a token of the text. -/
theorem of_mem_find {s : List Char} {c : Candidate} (hc : c ∈ m.find s) :
    ∃ x inner y, s = x ++ (e.token inner ++ y) ∧ c.rawPattern = e.token inner ∧
      key c.name = key inner ∧ ∃ name, Framed p inner name := by
  obtain ⟨found, hfound, hraw, hname, -⟩ := exists_match_of_mem_find hc
  obtain ⟨x, y, rfl, hmatch⟩ := exists_place_of_mem_findAll (he.consuming hm.matchedBy) hfound
  obtain ⟨inner, name, hframed, htext, hgroup⟩ := hm.of_matchAt hmatch
  rw [hgroup, Option.getD_some] at hname
  refine ⟨x, inner, y, by rw [htext], hraw.trans htext, ?_, name, hframed⟩
  rw [hname, key_cleanName, hframed.key_eq]

/-- Where the word that opens tokens does not stand, there are no candidates. -/
theorem find_eq_nil {s : List Char} (h : ¬ e.opening <:+: s) : m.find s = [] := by
  refine List.eq_nil_iff_forall_not_mem.2 fun c hc => ?_
  obtain ⟨x, inner, y, rfl, -⟩ := hm.of_mem_find he hc
  rw [e.token_append] at h
  exact h ⟨x, inner ++ (e.closing ++ y), List.append_assoc ..⟩

/-- Every token with a key is found. -/
theorem mem_find {x inner y name : List Char} (hframed : Framed p inner name)
    (hkey : key inner ≠ []) :
    ∃ c ∈ m.find (x ++ (e.token inner ++ y)), key c.name = key inner := by
  have hspells := hm.spells inner name hframed
  obtain ⟨lead, trail, hinner, hlead, hname, htrail⟩ := hframed
  have hplace : e.token inner ++ y =
      e.opening ++ (lead ++ (name ++ (trail ++ (e.closing ++ y)))) := by
    rw [e.token_append, hinner]
    simp only [List.append_assoc]
  obtain ⟨found, hfound⟩ :
      ∃ found, m.pattern.matchAt false ⟨x.reverse, e.token inner ++ y⟩ = some found := by
    rw [hm.pattern_eq]
    exact exists_matchAt_of_mem_ends ((mem_ends_padded hm.plain).2
      ⟨lead, name, trail, y, hplace, hlead, hname, htrail, rfl⟩)
  obtain ⟨inner', name', hframed', htext, hgroup⟩ := hm.of_matchAt hfound
  obtain rfl : inner' = inner := Enclosure.token_injective
    (htext.symm.trans (he.text_of_matchAt hm.matchedBy hspells hfound))
  obtain ⟨earlier, later, hsegs, -⟩ := he.split_segments hm.matchedBy hfound
  have hmem : found ∈ m.pattern.findAll (x ++ (e.token inner' ++ y)) := by
    rw [mem_findAll_iff, hsegs]
    exact List.mem_append_right _ List.mem_cons_self
  have hcandidate : key (cleanName name') = key inner' := by
    rw [key_cleanName, ← hframed'.key_eq]
  refine ⟨⟨cleanName name', found.text, m.name⟩, List.mem_filterMap.2 ⟨found, hmem, ?_⟩,
    hcandidate⟩
  have hne : (cleanName name').isEmpty = false := by
    rw [List.isEmpty_eq_false_iff]
    intro hnil
    rw [hnil] at hcandidate
    exact hkey hcandidate.symm
  simp only [candidate?, hgroup, Option.getD_some, hne, Bool.false_eq_true, if_false]

end Seeks

end Matcher

/-! ## The matchers that are always known -/

theorem mem_findAll_standard {s : List Char} {c : Candidate} :
    c ∈ Catalog.standard.findAll s ↔
      c ∈ doubleBraceMatcher.find s ∨ c ∈ tagMatcher.find s ∨ c ∈ capsBracketMatcher.find s ∨
        c ∈ doubleUnderscoreMatcher.find s := by
  simp only [Catalog.findAll, Catalog.standard, List.flatMap_cons, List.flatMap_nil,
    List.mem_append, List.not_mem_nil, or_false]

/-- Words of capitals, each behind spaces. -/
def capsWords : Pattern := .loop (.seq (many1 (.single ' ')) (many1 capitals)) 0 none true

/-- Words of capitals with spaces between them, the first one without a digit in front. -/
def capsName : Pattern := all [.one capitalStarts, many capitals, capsWords]

/-- A word of capitals, digits and underscores. -/
def IsCapsWord (w : List Char) : Prop := w ≠ [] ∧ ∀ c ∈ w, capitals.has c = true

/-- Such a word without a digit in front. -/
def IsFirstWord (w : List Char) : Prop :=
  IsCapsWord w ∧ ∀ c ∈ w.head?, capitalStarts.has c = true

/-- At least one space, and nothing else. -/
def IsSpaces (s : List Char) : Prop := s ≠ [] ∧ ∀ c ∈ s, c = ' '

/-- Any number of words, each behind a gap. -/
inductive GapWords (gap : List Char → Prop) : List Char → Prop
  | nil : GapWords gap []
  | cons {g w s : List Char} (hgap : gap g) (hword : IsCapsWord w) (hmore : GapWords gap s) :
      GapWords gap (g ++ (w ++ s))

theorem GapWords.mono {gap gap' : List Char → Prop} {s : List Char} (h : GapWords gap s)
    (hgap : ∀ g, gap g → gap' g) : GapWords gap' s := by
  induction h with
  | nil => exact .nil
  | cons hg hword hmore ih => exact .cons (hgap _ hg) hword ih

theorem IsSpaces.allBlank {s : List Char} (h : IsSpaces s) : allBlank s = true :=
  allBlank_iff.2 fun c hc => by rw [h.2 c hc]; decide

/-- Such words may stand in square brackets, whatever blanks stand around and between them. -/
theorem spells_capsBracket_of_words {gap : List Char → Prop}
    (hgap : ∀ g, gap g → allBlank g = true) {lead first more trail : List Char}
    (hlead : allBlank lead = true) (hfirst : IsFirstWord first) (hmore : GapWords gap more)
    (htrail : allBlank trail = true) :
    Spells capsBracket.inner (lead ++ (first ++ (more ++ trail))) := by
  have hblank {s : List Char} (hs : allBlank s = true) (c : Char) (hc : c ∈ s) :
      capitals.has c = true ∨ isBlank c = true := .inr (allBlank_iff.1 hs c hc)
  have hwords : ∀ c ∈ more, capitals.has c = true ∨ isBlank c = true := by
    induction hmore with
    | nil => exact fun c hc => absurd hc List.not_mem_nil
    | cons hg hword hmore ih =>
      simp only [List.forall_mem_append]
      exact ⟨hblank (hgap _ hg), fun c hc => .inl (hword.2 c hc), ih⟩
  obtain ⟨⟨hne, hall⟩, hhead⟩ := hfirst
  obtain ⟨c, w, rfl⟩ := List.exists_cons_of_ne_nil hne
  rw [spells_capsBracket_iff]
  refine ⟨?_, c, by simp, hhead c rfl⟩
  simp only [List.forall_mem_append]
  exact ⟨hblank hlead, fun c hc => .inl (hall c hc), hwords, hblank htrail⟩

theorem spells_few1_noneOf_iff {cs s : List Char} :
    Spells (few1 (.noneOf cs)) s ↔ s ≠ [] ∧ ∀ c ∈ s, c ∉ cs := by
  rw [few1, spells_span_one_iff]
  simp

theorem spells_capsWords_iff {s : List Char} : Spells capsWords s ↔ GapWords IsSpaces s := by
  have hspaces {g : List Char} : Spells (many1 (.single ' ')) g ↔ IsSpaces g := by
    simp only [many1, spells_span_one_iff, CharSet.has_single, beq_iff_eq, IsSpaces]
  have hword {w : List Char} : Spells (many1 capitals) w ↔ IsCapsWord w := spells_span_one_iff
  rw [capsWords, spells_loop_iff]
  simp only [spells_seq_iff, hspaces, hword]
  constructor
  · rintro ⟨words, -, hwords, rfl⟩
    induction words with
    | nil => exact .nil
    | cons word words ih =>
      rw [List.forall_mem_cons] at hwords
      obtain ⟨⟨g, w, rfl, hg, hw⟩, hwords⟩ := hwords
      rw [List.flatten_cons, List.append_assoc]
      exact .cons hg hw (ih hwords)
  · intro h
    induction h with
    | nil => exact ⟨[], Nat.zero_le _, by simp, rfl⟩
    | @cons g w s hg hw hmore ih =>
      obtain ⟨words, -, hwords, rfl⟩ := ih
      refine ⟨(g ++ w) :: words, Nat.zero_le _, ?_, by simp⟩
      exact List.forall_mem_cons.2 ⟨⟨g, w, rfl, hg, hw⟩, hwords⟩

theorem spells_capsName_iff {s : List Char} :
    Spells capsName s ↔ ∃ first more, s = first ++ more ∧ IsFirstWord first ∧
      GapWords IsSpaces more := by
  simp only [capsName, all, spells_seq_iff, spells_one_iff, spells_capsWords_iff, spells_many_iff]
  constructor
  · rintro ⟨_, _, rfl, ⟨c, hc, rfl⟩, w, more, rfl, hw, hmore⟩
    refine ⟨c :: w, more, rfl, ⟨⟨List.cons_ne_nil c w, ?_⟩, by simpa using hc⟩, hmore⟩
    exact List.forall_mem_cons.2 ⟨has_capitals_of_capitalStarts hc, hw⟩
  · rintro ⟨first, more, rfl, ⟨⟨hne, hall⟩, hhead⟩, hmore⟩
    obtain ⟨c, w, rfl⟩ := List.exists_cons_of_ne_nil hne
    rw [List.forall_mem_cons] at hall
    exact ⟨[c], w ++ more, rfl, ⟨c, hhead c rfl, rfl⟩, w, more, rfl, hall.2, hmore⟩

theorem spells_of_framed_noneOf {cs inner name : List Char} (hcs : ∀ c ∈ cs, isBlank c = false)
    (h : Framed (few1 (.noneOf cs)) inner name) : Spells (many (.noneOf cs)) inner := by
  obtain ⟨lead, trail, rfl, hlead, hname, htrail⟩ := h
  have hblank {s : List Char} (hs : allBlank s = true) : ∀ c ∈ s, c ∉ cs := by
    intro c hc hmem
    have hcontra := allBlank_iff.1 hs c hc
    rw [hcs c hmem] at hcontra
    cases hcontra
  rw [spells_many_noneOf_iff]
  simp only [List.forall_mem_append]
  exact ⟨hblank hlead, (spells_few1_noneOf_iff.1 hname).2, hblank htrail⟩

theorem seeks_doubleBrace :
    doubleBraceMatcher.Seeks doubleBrace (few1 (.noneOf ['\x7b', '\x7d'])) where
  pattern_eq := rfl
  plain := rfl
  spells _ _ h := spells_of_framed_noneOf (notBlank_of_all (by decide)) h

theorem seeks_variableTag :
    tagMatcher.Seeks variableTag (few1 (.noneOf ['<', '>'])) where
  pattern_eq := rfl
  plain := rfl
  spells _ _ h := spells_of_framed_noneOf (notBlank_of_all (by decide)) h

theorem seeks_capsBracket : capsBracketMatcher.Seeks capsBracket capsName where
  pattern_eq := rfl
  plain := by decide
  spells := by
    rintro inner name ⟨lead, trail, rfl, hlead, hname, htrail⟩
    obtain ⟨first, more, rfl, hfirst, hmore⟩ := spells_capsName_iff.1 hname
    rw [List.append_assoc]
    exact spells_capsBracket_of_words (fun _ => IsSpaces.allBlank) hlead hfirst hmore htrail

/-- Letters and digits in runs joined by single underscores or spaces, between underscores. -/
def underscored : Enclosure :=
  ⟨['_', '_'], .seq (many1 .asciiAlnum)
    (.loop (.either (.seq (.one (.single '_')) (many1 .asciiAlnum))
      (.seq (.one (.single ' ')) (many1 .asciiAlnum))) 0 none true), ['_', '_']⟩

theorem delimited_underscored : underscored.Delimited where
  plain := by decide
  opening_ne := by decide
  opening_solid := notBlank_of_all (by decide)
  closing_ne := by decide
  closing_solid := notBlank_of_all (by decide)

/-- Every candidate of the last matcher is a token, too. -/
theorem exists_token_of_mem_find_doubleUnderscore {s : List Char} {c : Candidate}
    (hc : c ∈ doubleUnderscoreMatcher.find s) :
    ∃ inner, c.rawPattern = underscored.token inner := by
  have hmatched : underscored.MatchedBy doubleUnderscoreMatcher.pattern :=
    delimited_underscored.matchedBy_pattern
  obtain ⟨found, hfound, hraw, -⟩ := Matcher.exists_match_of_mem_find hc
  obtain ⟨x, y, -, hmatch⟩ :=
    exists_place_of_mem_findAll (delimited_underscored.consuming hmatched) hfound
  obtain ⟨inner, -, htext⟩ := hmatched _ _ hmatch
  exact ⟨inner, hraw.trans htext⟩

end Stencil.Placeholder
