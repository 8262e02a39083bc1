import Stencil.Proofs.Placeholder.Underscores
import Stencil.Proofs.Template.Extraction

/-!
# Names that a line break runs through

A text that is one token between double underscores gives one variable, with the name inside it
(`matchPatterns_token`).  If the name is broken at one of its spaces, the same variable is found as
long as this is the only space of the name; a name of three or more words that are not joined by
underscores is lost (`matchPatterns_broken`).
-/

namespace Stencil

open Text Pattern Placeholder

/-! ## Candidates -/

/-- Of the matchers that are always known, only the last one looks at such a token. -/
theorem Placeholder.findAll_standard_token {w : List Char} (hw : OfNameChars w) :
    Catalog.standard.findAll (underscored.token w) =
      doubleUnderscoreMatcher.find (underscored.token w) := by
  have hbrace : doubleBraceMatcher.find (underscored.token w) = [] :=
    seeks_doubleBrace.find_eq_nil sealed_doubleBrace (hw.token.not_isInfix (by decide))
  have htag : tagMatcher.find (underscored.token w) = [] := by
    refine seeks_variableTag.find_eq_nil sealed_variableTag ?_
    rw [opening_variableTag]
    exact hw.token.not_isInfix (by decide)
  have hcaps : capsBracketMatcher.find (underscored.token w) = [] :=
    seeks_capsBracket.find_eq_nil sealed_capsBracket (hw.token.not_isInfix (by decide))
  simp only [Catalog.findAll, Catalog.standard, List.flatMap_cons, List.flatMap_nil, hbrace, htag,
    hcaps, List.nil_append, List.append_nil]

/-- A name between double underscores has a key. -/
theorem Placeholder.Runs.key_ne_nil {joint : Char → Prop} {w : List Char} (h : Runs joint w) :
    Placeholder.key w ≠ [] := by
  obtain ⟨c, rest, rfl, hc⟩ := h.exists_cons
  rw [Placeholder.key, List.filter_cons_of_pos (isAlphanum_iff.2 (has_asciiAlnum_iff.1 hc))]
  exact List.cons_ne_nil _ _

/-- The candidate that a token with a name is. -/
theorem Placeholder.find_token {w : List Char} (h : Runs IsJoint w) :
    doubleUnderscoreMatcher.find (underscored.token w) =
      [⟨cleanName w, underscored.token w, "double_underscore"⟩] := by
  have hpattern : doubleUnderscoreMatcher.pattern = underscored.pattern := rfl
  obtain ⟨m, hsegs, htext, hgroup⟩ :=
    h.lone.segments_eq delimited_underscored rfl rfl (spells_underscored_iff.2 h)
  have hname : cleanName w ≠ [] := by
    intro hnil
    have hkey := h.key_ne_nil
    rw [← key_cleanName, hnil] at hkey
    exact hkey rfl
  have hcandidate : doubleUnderscoreMatcher.candidate? m =
      some ⟨cleanName w, underscored.token w, "double_underscore"⟩ := by
    simp [Matcher.candidate?, hgroup, htext, hname, doubleUnderscoreMatcher]
  rw [Matcher.find, hpattern, findAll, hsegs]
  simp only [List.filterMap_cons, List.filterMap_nil, Segment.match?, hcandidate]

/-- A token that holds a line feed is no candidate. -/
theorem Placeholder.find_eq_nil_of_lineFeed {w : List Char} (hw : Lone w) (hfeed : '\n' ∈ w) :
    doubleUnderscoreMatcher.find (underscored.token w) = [] := by
  have hpattern : doubleUnderscoreMatcher.pattern = underscored.pattern := rfl
  have hnot : ¬ Spells underscored.inner w := fun hspells =>
    (spells_underscored_iff.1 hspells).lineFeed_notMem hfeed
  rw [Matcher.find, hpattern, hw.findAll_eq_nil delimited_underscored rfl rfl hnot,
    List.filterMap_nil]

/-! ## Variables -/

namespace Extractor

variable {e : Extractor} (he : e.catalog = .standard)

theorem allBlank_token (w : List Char) : allBlank (underscored.token w) = false := rfl

include he

/-- The variable of a token with a name. -/
theorem matchPatterns_token {w : List Char} (h : Runs IsJoint w) :
    e.matchPatterns (underscored.token w) =
      [Variable.ofCandidate ⟨cleanName w, underscored.token w, "double_underscore"⟩] := by
  have hkey : key (cleanName w) ≠ [] := by
    rw [key_cleanName]
    exact h.key_ne_nil
  rw [matchPatterns_eq e (allBlank_token w), candidates, normalize_token h, he,
    findAll_standard_token (.of_runs h), find_token h]
  simp [Variable.firstClaims, Variable.claim, hkey]

/-- **A broken name is found unless it has more spaces than the broken one.** On one line the token
gives one variable with its name.  With a line break for one of the spaces it gives the same
variable if there is no other space in the name, and none at all otherwise. -/
theorem matchPatterns_broken {u b v : List Char}
    (hname : Spells underscored.inner (u ++ ' ' :: v)) (hb : IsBreak b) :
    (e.matchPatterns (underscored.token (u ++ ' ' :: v))).map (·.name) =
        [String.ofList (cleanName (u ++ ' ' :: v))] ∧
      e.matchPatterns (underscored.token (u ++ (b ++ v))) =
        if ' ' ∈ u ++ v then [] else e.matchPatterns (underscored.token (u ++ ' ' :: v)) := by
  have hruns := spells_underscored_iff.1 hname
  obtain ⟨hu, hv⟩ := hruns.split (by decide)
  obtain ⟨r, hr, hnormal⟩ := normalize_broken hu hb hv
  refine ⟨by rw [matchPatterns_token he hruns]; rfl, ?_⟩
  rw [matchPatterns_eq e (allBlank_token _), candidates, hnormal, he]
  split
  · have hfeed : '\n' ∈ u ++ (r ++ v) := by
      simp [hr.lineFeed_mem]
    rw [findAll_standard_token (.of_broken hu hr hv),
      find_eq_nil_of_lineFeed (lone_broken hu hr hv) hfeed]
    rfl
  · rw [matchPatterns_eq e (allBlank_token _), candidates, normalize_token hruns, he]

omit he

/-- The name `a b`, broken over two lines of a text with carriage returns, and the name `a_b c`. -/
theorem matchPatterns_broken_letters :
    (({} : Extractor).matchPatterns ['_', '_', 'a', '\t', '\r', '\n', ' ', 'b', '_', '_']).map
        (·.name) = ["a_b"] ∧
      ({} : Extractor).matchPatterns ['_', '_', 'a', '_', 'b', '\r', 'c', '_', '_'] =
        ({} : Extractor).matchPatterns ['_', '_', 'a', '_', 'b', ' ', 'c', '_', '_'] := by
  have hshort : Runs IsJoint (['a'] ++ ' ' :: ['b']) :=
    .next (isRun_singleton (by decide)) (.inr rfl) (.last (isRun_singleton (by decide)))
  have hlong : Runs IsJoint (['a'] ++ '_' :: (['b'] ++ ' ' :: ['c'])) :=
    .next (isRun_singleton (by decide)) (.inl rfl)
      (.next (isRun_singleton (by decide)) (.inr rfl) (.last (isRun_singleton (by decide))))
  have htab : IsBreak ['\t', '\r', '\n', ' '] :=
    ⟨['\t'], ['\r', '\n'], [' '], rfl, by decide, by simp [IsIndent], by simp [IsIndent]⟩
  have hreturn : IsBreak ['\r'] :=
    ⟨[], ['\r'], [], rfl, by decide, by simp [IsIndent], by simp [IsIndent]⟩
  obtain ⟨hnames, hsame⟩ := matchPatterns_broken (e := {}) (u := ['a']) (v := ['b']) rfl
    (spells_underscored_iff.2 hshort) htab
  obtain ⟨-, hsame'⟩ := matchPatterns_broken (e := {}) (u := ['a', '_', 'b']) (v := ['c']) rfl
    (spells_underscored_iff.2 hlong) hreturn
  rw [if_neg (by decide)] at hsame hsame'
  refine ⟨?_, hsame'⟩
  have hbroken : (({} : Extractor).matchPatterns (underscored.token
      (['a'] ++ (['\t', '\r', '\n', ' '] ++ ['b'])))).map (·.name) = ["a_b"] := by
    rw [hsame, hnames]
    decide
  exact hbroken

/-- A name of three words is found on one line, but not if a line ends behind its first word. -/
theorem matchPatterns_three_words :
    Spells underscored.inner ['a', ' ', 'b', ' ', 'c'] ∧ IsBreak ['\n'] ∧
      (({} : Extractor).matchPatterns ['_', '_', 'a', ' ', 'b', ' ', 'c', '_', '_']).map (·.name) =
        ["a_b_c"] ∧
      ({} : Extractor).matchPatterns ['_', '_', 'a', '\n', 'b', ' ', 'c', '_', '_'] = [] := by
  refine ⟨spells_underscored_iff.2 ?_, ?_, by decide +kernel, by decide +kernel⟩
  · exact .next (w := ['a']) (isRun_singleton (by decide)) (.inr rfl)
      (.next (w := ['b']) (isRun_singleton (by decide)) (.inr rfl)
        (.last (isRun_singleton (by decide))))
  · exact ⟨[], ['\n'], [], rfl, by decide, by simp [IsIndent], by simp [IsIndent]⟩

end Extractor

end Stencil
