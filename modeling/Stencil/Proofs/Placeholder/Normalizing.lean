import Stencil.Proofs.Placeholder.Matchers

/-!
# Only line breaks inside tokens are touched

Joining the lines inside tokens of one kind may bring tokens of another kind into being, for it
changes the text that the next kinds are looked for in.  Yet every pass is a respacing of the text
that it is given, so the four of them together are one (`respaced_joins_normalize`), and what a pass
has done is not undone by a later one (`unbroken_normalize`).  Where none of the words that open
tokens stands, no pass finds anything to join (`normalize_eq_lineFeeds`).
-/

namespace Stencil.Placeholder

open Text Pattern

/-- The patterns of tokens in braces, tags and brackets: those whose lines are joined, and those
that names are read from. -/
def linedPatterns : List Pattern :=
  [doubleBrace.pattern, variableTag.pattern, capsBracket.pattern, doubleBraceMatcher.pattern,
    tagMatcher.pattern, capsBracketMatcher.pattern]

def openings : List (List Char) := enclosures.map (·.opening)

theorem carriageReturn_notMem_normalize (s : List Char) : '\r' ∉ normalize s := fun hmem =>
  carriageReturn_notMem_lineFeeds s
    (mem_of_respaced_joins (respaced_joins_normalize s) (by decide) hmem)

/-- In a text that is normalized no pattern of the first three kinds matches a line feed. -/
theorem lineFeed_notMem_match_normalize {s x y : List Char} (hs : normalize s = x ++ y)
    {p : Pattern} (hp : p ∈ linedPatterns) {m : Match}
    (hm : p.matchAt false ⟨x.reverse, y⟩ = some m) : '\n' ∉ m.text := by
  obtain ⟨hbraces, htags, hcaps⟩ := unbroken_normalize s
  rw [hs] at hbraces htags hcaps
  simp only [linedPatterns, List.mem_cons, List.not_mem_nil, or_false] at hp
  rcases hp with rfl | rfl | rfl | rfl | rfl | rfl
  · exact sealed_doubleBrace.lineFeed_notMem_match sealed_doubleBrace.matchedBy_pattern hbraces hm
  · exact sealed_variableTag.lineFeed_notMem_match sealed_variableTag.matchedBy_pattern htags hm
  · exact sealed_capsBracket.lineFeed_notMem_match sealed_capsBracket.matchedBy_pattern hcaps hm
  · exact sealed_doubleBrace.lineFeed_notMem_match seeks_doubleBrace.matchedBy hbraces hm
  · exact sealed_variableTag.lineFeed_notMem_match seeks_variableTag.matchedBy htags hm
  · exact sealed_capsBracket.lineFeed_notMem_match seeks_capsBracket.matchedBy hcaps hm

theorem delimited_of_mem_enclosures {e : Enclosure} (he : e ∈ enclosures) : e.Delimited := by
  simp only [enclosures, List.mem_cons, List.not_mem_nil, or_false] at he
  rcases he with rfl | rfl | rfl | rfl
  · exact sealed_doubleBrace.toDelimited
  · exact sealed_variableTag.toDelimited
  · exact sealed_capsBracket.toDelimited
  · exact delimited_brokenUnderscores

/-- Where no token opens, only the line ends are rewritten. -/
theorem normalize_eq_lineFeeds {s : List Char} (h : ∀ w ∈ openings, ¬ w <:+: s) :
    normalize s = lineFeeds s := by
  have hjoin : ∀ e ∈ enclosures, e.join (lineFeeds s) = lineFeeds s := by
    intro e he
    have hdelimited := delimited_of_mem_enclosures he
    refine hdelimited.join_eq_self_of_not_isInfix fun hstands => ?_
    -- writing line ends as line feeds makes no opening word, either
    have hopening : e.opening <:+: s := ((respaced_lineFeeds s).isInfix_iff tight_lineFeeds
      hdelimited.opening_solid hdelimited.opening_ne).2 hstands
    exact h e.opening (List.mem_map_of_mem he) hopening
  have hpasses : ∀ es : List Enclosure, (∀ e ∈ es, e ∈ enclosures) →
      es.foldl (fun s e => e.join s) (lineFeeds s) = lineFeeds s := by
    intro es hes
    induction es with
    | nil => rfl
    | cons e es ih =>
      rw [List.forall_mem_cons] at hes
      rw [List.foldl_cons, hjoin e hes.1]
      exact ih hes.2
  exact hpasses enclosures fun _ he => he

/-- **Normalizing touches only line breaks inside tokens.** For every text: no carriage return is
left, the characters that are no blanks stay, there are no more line feeds than line ends, no
pattern of a token in braces, tags or brackets matches a line feed, and a text in which no token
opens has its line ends rewritten only. -/
theorem normalize_touches_only_tokens (s : List Char) :
    '\r' ∉ normalize s ∧
    solid (normalize s) = solid s ∧
    (normalize s).count '\n' ≤ (lineFeeds s).count '\n' ∧
    (∀ p ∈ linedPatterns, ∀ x y m, normalize s = x ++ y →
      p.matchAt false ⟨x.reverse, y⟩ = some m → '\n' ∉ m.text) ∧
    ((∀ w ∈ [['\x7b', '\x7b'], "<variable>".toList, ['['], ['_', '_']], ¬ w <:+: s) →
      normalize s = lineFeeds s) := by
  refine ⟨carriageReturn_notMem_normalize s, ?_, ?_, ?_, ?_⟩
  · exact (respaced_normalize s).solid_eq.symm
  · exact count_lineFeed_le (respaced_joins_normalize s)
  · intro p hp x y m hs hm
    exact lineFeed_notMem_match_normalize hs hp hm
  · intro hnone
    exact normalize_eq_lineFeeds hnone

/-- The lines of a name in braces are joined, so its match holds no line feed; in a text without
tokens the line ends are rewritten. -/
theorem normalize_touches_only_tokens_crlf :
    (∃ m, doubleBrace.pattern.matchAt false
      ⟨[], normalize ['\x7b', '\x7b', 'a', '\r', '\n', 'b', '\x7d', '\x7d']⟩ = some m ∧
        '\n' ∉ m.text) ∧
    normalize ['a', '_', '\r', '\n', 'b', '\r'] = ['a', '_', '\n', 'b', '\n'] := by
  obtain ⟨-, -, -, hmatches, -⟩ := normalize_touches_only_tokens
    ['\x7b', '\x7b', 'a', '\r', '\n', 'b', '\x7d', '\x7d']
  obtain ⟨-, -, -, -, hplain⟩ :=
    normalize_touches_only_tokens ['a', '_', '\r', '\n', 'b', '\r']
  refine ⟨?_, ?_⟩
  · obtain ⟨m, hm⟩ : ∃ m, doubleBrace.pattern.matchAt false
        ⟨[], normalize ['\x7b', '\x7b', 'a', '\r', '\n', 'b', '\x7d', '\x7d']⟩ = some m :=
      Option.ne_none_iff_exists'.1 (by decide +kernel)
    exact ⟨m, hm, hmatches _ (by simp [linedPatterns]) [] _ m rfl hm⟩
  · refine (hplain ?_).trans rfl
    decide +kernel

end Stencil.Placeholder
