import Stencil.Proofs.Placeholder.Joining

/-!
# The four kinds of tokens

Tokens in braces, tags and brackets are `Sealed` (`sealed_doubleBrace`, `sealed_variableTag`,
`sealed_capsBracket`); names between underscores are not, for the underscores that close one may
open the next (`delimited_brokenUnderscores`).  So after `normalize`, which rewrites runs of blanks
only (`respaced_normalize`), no token of the first three kinds holds a line feed
(`unbroken_normalize`), and normalizing once more can only join names between underscores
(`normalize_normalize`).
-/

namespace Stencil.Placeholder

open Text Pattern

/-! ## Characters -/

theorem spells_many_noneOf_iff {cs s : List Char} :
    Spells (many (.noneOf cs)) s ↔ ∀ c ∈ s, c ∉ cs := by
  rw [spells_many_iff]
  simp

theorem has_capitals_iff {c : Char} :
    capitals.has c = true ↔
      (65 ≤ c.toNat ∧ c.toNat ≤ 90) ∨ (48 ≤ c.toNat ∧ c.toNat ≤ 57) ∨ c.toNat = 95 := by
  simp [capitals, CharSet.has, CharItem.has]
  omega

theorem has_capitalStarts_iff {c : Char} :
    capitalStarts.has c = true ↔ (65 ≤ c.toNat ∧ c.toNat ≤ 90) ∨ c.toNat = 95 := by
  simp [capitalStarts, CharSet.has, CharItem.has]
  omega

theorem has_capitals_of_capitalStarts {c : Char} (h : capitalStarts.has c = true) :
    capitals.has c = true := by
  rw [has_capitalStarts_iff] at h
  rw [has_capitals_iff]
  omega

theorem isBlank_of_capitals {c : Char} (h : capitals.has c = true) : isBlank c = false := by
  rw [has_capitals_iff] at h
  simp only [isBlank, Bool.or_eq_false_iff, Bool.and_eq_false_iff, decide_eq_false_iff_not,
    beq_eq_false_iff_ne]
  omega

/-- The characters that may stand between square brackets. -/
theorem has_filler (c : Char) :
    (capitals.union (.kind .blank)).has c = (capitals.has c || isBlank c) := by
  simp [capitals, CharSet.union, CharSet.kind, CharSet.has, CharItem.has, CharKind.has,
    Bool.or_assoc]

theorem spells_capsBracket_iff {s : List Char} :
    Spells capsBracket.inner s ↔ (∀ c ∈ s, capitals.has c = true ∨ isBlank c = true) ∧
      ∃ c ∈ s, capitalStarts.has c = true := by
  have hfiller {u : List Char} : Spells (many (capitals.union (.kind .blank))) u ↔
      ∀ c ∈ u, capitals.has c = true ∨ isBlank c = true := by
    simp only [spells_many_iff, has_filler, Bool.or_eq_true]
  simp only [capsBracket, all, spells_seq_iff, spells_one_iff, hfiller]
  constructor
  · rintro ⟨u, _, rfl, hu, _, v, rfl, ⟨c, hc, rfl⟩, hv⟩
    refine ⟨?_, c, by simp, hc⟩
    simp only [List.forall_mem_append, List.forall_mem_singleton]
    exact ⟨hu, .inl (has_capitals_of_capitalStarts hc), hv⟩
  · rintro ⟨hall, c, hmem, hc⟩
    obtain ⟨u, v, rfl⟩ := List.append_of_mem hmem
    rw [List.forall_mem_append, List.forall_mem_cons] at hall
    exact ⟨u, c :: v, rfl, hall.1, [c], v, rfl, ⟨c, hc, rfl⟩, hall.2.2⟩

/-! ## Sealed tokens -/

theorem respaced_noneOf {cs : List Char} (hcs : ∀ c ∈ cs, isBlank c = false)
    {R : List Char → List Char → Prop} {u v : List Char} (h : Respaced R u v)
    (hu : Spells (many (.noneOf cs)) u) : Spells (many (.noneOf cs)) v := by
  rw [spells_many_noneOf_iff] at hu ⊢
  exact fun c hc hmem => hu c ((h.mem_iff (hcs c hmem)).2 hc) hmem

theorem sealed_doubleBrace : doubleBrace.Sealed where
  plain := rfl
  opening_ne := by decide
  opening_solid := notBlank_of_all (by decide)
  closing_ne := by decide
  closing_solid := notBlank_of_all (by decide)
  apart := by
    intro inner rest h
    have hbrace : '\x7b' ∉ inner ++ ['\x7d', '\x7d'] := by
      simpa using fun hmem => spells_many_noneOf_iff.1 h _ hmem (by decide)
    -- the second brace that opens is followed by no third one
    refine ⟨fun hp => ?_, noneBegins_of_not_mem hbrace rest⟩
    have hthird : ['\x7b'] <+: (inner ++ ['\x7d', '\x7d']) ++ rest :=
      (List.cons_prefix_cons.1 hp).2
    exact (noneBegins_of_not_mem hbrace rest).not_isPrefix (List.nil_append _).symm (by simp) hthird
  closing_notMem := by
    intro inner h c hc
    obtain rfl : '\x7d' = c := by simpa [doubleBrace] using hc
    exact fun hmem => spells_many_noneOf_iff.1 h _ hmem (by decide)
  respaced _ _ _ h hu := respaced_noneOf (notBlank_of_all (by decide)) h hu

theorem opening_variableTag :
    variableTag.opening = '<' :: ['v', 'a', 'r', 'i', 'a', 'b', 'l', 'e', '>'] := rfl

theorem closing_variableTag :
    variableTag.closing = '<' :: '/' :: ['v', 'a', 'r', 'i', 'a', 'b', 'l', 'e', '>'] := rfl

theorem sealed_variableTag : variableTag.Sealed where
  plain := rfl
  opening_ne := by decide
  opening_solid := notBlank_of_all (by decide)
  closing_ne := by decide
  closing_solid := notBlank_of_all (by decide)
  apart := by
    intro inner rest h
    have hopen : '<' ∉ ['v', 'a', 'r', 'i', 'a', 'b', 'l', 'e', '>'] ++ inner := by
      simpa using fun hmem => spells_many_noneOf_iff.1 h _ hmem (by decide)
    have hparts : (variableTag.token inner).drop 1 =
        (['v', 'a', 'r', 'i', 'a', 'b', 'l', 'e', '>'] ++ inner) ++ variableTag.closing := by
      rw [Enclosure.token, opening_variableTag, List.append_assoc]
      rfl
    rw [hparts, noneBegins_append, closing_variableTag, opening_variableTag]
    refine ⟨noneBegins_of_not_mem hopen _, fun hp => ?_, noneBegins_of_not_mem (by decide) rest⟩
    -- the tag that closes goes on with a slash
    have hslash := (List.cons_prefix_cons.1 (List.cons_prefix_cons.1 hp).2).1
    exact absurd hslash (by decide)
  closing_notMem := by
    intro inner h c hc
    rw [closing_variableTag, List.head?_cons, Option.mem_some] at hc
    subst hc
    exact fun hmem => spells_many_noneOf_iff.1 h _ hmem (by decide)
  respaced _ _ _ h hu := respaced_noneOf (notBlank_of_all (by decide)) h hu

theorem sealed_capsBracket : capsBracket.Sealed where
  plain := by decide
  opening_ne := by decide
  opening_solid := notBlank_of_all (by decide)
  closing_ne := by decide
  closing_solid := notBlank_of_all (by decide)
  apart := by
    intro inner rest h
    refine noneBegins_of_not_mem (w := []) ?_ rest
    have hopen : '[' ∉ inner := fun hmem =>
      absurd ((spells_capsBracket_iff.1 h).1 _ hmem) (by decide)
    simpa [Enclosure.token, capsBracket] using hopen
  closing_notMem := by
    intro inner h c hc
    obtain rfl : ']' = c := by simpa [capsBracket] using hc
    exact fun hmem => absurd ((spells_capsBracket_iff.1 h).1 _ hmem) (by decide)
  respaced := by
    intro R u v h hu
    rw [spells_capsBracket_iff] at hu ⊢
    obtain ⟨hall, c, hmem, hc⟩ := hu
    refine ⟨fun d hd => ?_, c, ?_, hc⟩
    · cases hblank : isBlank d with
      | true => exact .inr rfl
      | false =>
        have hin := hall d ((h.mem_iff hblank).2 hd)
        rwa [hblank] at hin
    · exact (h.mem_iff (isBlank_of_capitals (has_capitals_of_capitalStarts hc))).1 hmem

theorem delimited_brokenUnderscores : brokenUnderscores.Delimited where
  plain := by decide
  opening_ne := by decide
  opening_solid := notBlank_of_all (by decide)
  closing_ne := by decide
  closing_solid := notBlank_of_all (by decide)

/-! ## The whole text -/

/-- How a run of blanks is rewritten: its line ends as line feeds, and then as one space at most. -/
def Rewrites (r r' : List Char) : Prop := Joins (lineFeeds r) r'

theorem tight_rewrites : Tight Rewrites where
  nil := .inl rfl
  eq_nil_of_left r h := tight_joins.eq_nil_of_left r h
  eq_nil_of_right r h := by
    have hnil : lineFeeds r = [] := tight_joins.eq_nil_of_right _ h
    exact tight_lineFeeds.eq_nil_of_right r hnil.symm

theorem normalize_eq (s : List Char) :
    normalize s = brokenUnderscores.join (capsBracket.join (variableTag.join (doubleBrace.join
      (lineFeeds s)))) := by
  simp only [normalize, enclosures, List.foldl_cons, List.foldl_nil]

theorem respaced_joins_normalize (s : List Char) : Respaced Joins (lineFeeds s) (normalize s) := by
  rw [normalize_eq]
  exact respaced_joins_trans (sealed_doubleBrace.respaced_join _)
    (respaced_joins_trans (sealed_variableTag.respaced_join _)
      (respaced_joins_trans (sealed_capsBracket.respaced_join _)
        (delimited_brokenUnderscores.respaced_join _)))

/-- Normalizing rewrites runs of blanks and nothing else. -/
theorem respaced_normalize (s : List Char) : Respaced Rewrites s (normalize s) := by
  refine ((respaced_lineFeeds s).comp (respaced_joins_normalize s)).mono ?_
  rintro r r' - ⟨_, rfl, hjoins⟩
  exact hjoins

/-- Once a text is normalized, no token in braces, tags or brackets holds a line feed. -/
theorem unbroken_normalize (s : List Char) :
    doubleBrace.Unbroken (normalize s) ∧ variableTag.Unbroken (normalize s) ∧
      capsBracket.Unbroken (normalize s) := by
  rw [normalize_eq]
  generalize lineFeeds s = s
  have hlast (s : List Char) := delimited_brokenUnderscores.respaced_join s
  have hcaps (s : List Char) := respaced_joins_trans (sealed_capsBracket.respaced_join s) (hlast _)
  have htags (s : List Char) := respaced_joins_trans (sealed_variableTag.respaced_join s) (hcaps _)
  exact ⟨sealed_doubleBrace.unbroken_of_respaced (sealed_doubleBrace.unbroken_join s) (htags _),
    sealed_variableTag.unbroken_of_respaced (sealed_variableTag.unbroken_join _) (hcaps _),
    sealed_capsBracket.unbroken_of_respaced (sealed_capsBracket.unbroken_join _) (hlast _)⟩

theorem carriageReturn_notMem_lineFeeds (s : List Char) : '\r' ∉ lineFeeds s := by
  fun_induction lineFeeds s with
  | case1 => exact List.not_mem_nil
  | case2 rest ih | case3 rest _ ih => simpa using ih
  | case4 c rest _ hc ih => simpa using ⟨fun h => hc h.symm, ih⟩

theorem lineFeeds_eq_self {s : List Char} (h : '\r' ∉ s) : lineFeeds s = s := by
  fun_induction lineFeeds s with
  | case1 => rfl
  | case2 | case3 => simp at h
  | case4 c rest _ _ ih => rw [ih fun hmem => h (List.mem_cons_of_mem c hmem)]

/-- A text that is normalized has line feeds for line ends. -/
theorem lineFeeds_normalize (s : List Char) : lineFeeds (normalize s) = normalize s :=
  lineFeeds_eq_self fun hmem => carriageReturn_notMem_lineFeeds s
    (mem_of_respaced_joins (respaced_joins_normalize s) (by decide) hmem)

/-- Normalizing once more can only join names between underscores. -/
theorem normalize_normalize (s : List Char) :
    normalize (normalize s) = brokenUnderscores.join (normalize s) := by
  obtain ⟨hbraces, htags, hcaps⟩ := unbroken_normalize s
  rw [normalize_eq (normalize s), lineFeeds_normalize, sealed_doubleBrace.join_eq_self hbraces,
    sealed_variableTag.join_eq_self htags, sealed_capsBracket.join_eq_self hcaps]

end Stencil.Placeholder
