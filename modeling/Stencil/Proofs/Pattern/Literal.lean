import Stencil.Pattern.Escape
import Stencil.Pattern.Reader
import Stencil.Text.Literal
import Stencil.Proofs.Pattern.Ends

/-!
# Patterns that stand for one text

Reading what is written for a text gives back the pattern that matches exactly that text
(`parse_escape`): a character that is escaped and one that stands for itself are both read as the
set of that character.  This pattern finds the occurrences of the text that a search letter by
letter finds (`segmentsFrom_exactly`): replacing its matches is replacing the text, and its matches
are as many as the occurrences (`replaceAll_exactly`, `length_findAll_exactly`).
-/

namespace Stencil.Text

/-! ## Occurrences of a text -/

/-- The parts of a text, occurrences of `part` as `none`; `skip` characters in front belong to the
last one. -/
def cutFrom (part : List Char) : Nat → List Char → List (Option Char)
  | _, [] => []
  | skip + 1, _ :: rest => cutFrom part skip rest
  | 0, c :: rest =>
    if part.isPrefixOf (c :: rest) then none :: cutFrom part (part.length - 1) rest
    else some c :: cutFrom part 0 rest

/-- The number of occurrences of a text that is not empty, from left to right and without those that
overlap the one before. -/
def count (part s : List Char) : Nat := (cutFrom part 0 s).count none

theorem replaceFrom_eq_flatMap (part new : List Char) (skip : Nat) (s : List Char) :
    replaceFrom part new skip s = (cutFrom part skip s).flatMap fun c => c.elim new ([·]) := by
  induction s generalizing skip with
  | nil => cases skip <;> rfl
  | cons c rest ih =>
    cases skip with
    | succ skip => rw [replaceFrom, cutFrom, ih]
    | zero =>
      rw [replaceFrom, cutFrom]
      split <;> simp [ih]

end Stencil.Text

namespace Stencil.Pattern

/-! ## Reading what is written for a text -/

def literalToken (c : Char) : Token := if specials.contains c then .escaped c else .plain c

theorem tokens_escape (s : List Char) : tokens (escape s) = s.map literalToken := by
  induction s with
  | nil => rfl
  | cons c s ih =>
    have hcons : escape (c :: s) =
        (if specials.contains c then ['\\', c] else [c]) ++ escape s := rfl
    rw [hcons, List.map_cons, literalToken, ← ih]
    by_cases h : specials.contains c = true
    · rw [if_pos h, if_pos h]
      simp only [List.cons_append, List.nil_append, tokens]
    · rw [if_neg h, if_neg h]
      have hc : c ≠ '\\' := by
        rintro rfl
        exact h (by decide)
      simp only [List.cons_append, List.nil_append]
      rw [tokens]
      · exact fun e _ => hc e
      · exact fun _ _ e _ => hc e

theorem literalToken_ne_loneEscape (c : Char) : literalToken c ≠ .loneEscape := by
  unfold literalToken
  split <;> exact fun h => nomatch h

/-- A token is taken when the next one is written for a character. -/
theorem advance_literal (t : Token) (s : List Char) :
    advance (t :: s.map literalToken) = .ok (s.map literalToken) := by
  cases s with
  | nil => rfl
  | cons c s =>
    rw [List.map_cons]
    rw [advance]
    intro h
    exact literalToken_ne_loneEscape c (List.cons.inj h).1

/-- No special character means anything after a backslash. -/
theorem outerEscape_of_mem_specials {c : Char} (h : c ∈ specials) (d : Draft) (rest : List Token) :
    outerEscape d c rest = .ok (.code c.toNat, rest) := by
  simp only [specials, List.mem_cons, List.not_mem_nil, or_false] at h
  rcases h with rfl | rfl | rfl | rfl | rfl | rfl | rfl | rfl | rfl | rfl | rfl | rfl | rfl | rfl |
    rfl | rfl | rfl | rfl | rfl | rfl | rfl | rfl | rfl | rfl <;> rfl

/-- A draft that takes characters as they are written: case counts, and blanks do too. -/
structure Draft.IsPlain (d : Draft) : Prop where
  flags : d.flags.ignoreCase = false
  mode : d.mode = {}

def literalItem (c : Char) : Item := { pattern := .one (.single c), widths := .exactly 1 }

theorem Draft.IsPlain.pushChar {d : Draft} (hd : d.IsPlain) (c : Char) :
    d.pushChar c = { d with items := literalItem c :: d.items } := by
  simp [Draft.pushChar, Draft.pushCode, Draft.pushOne, Draft.push, Draft.casing, hd.flags,
    literalItem, CharSet.single]

/-- Where blanks count, every token but a bar and a closing parenthesis begins an item. -/
theorem step_eq_readItem {d : Draft} (hd : d.mode = {}) {t : Token} (hclosing : t ≠ .plain ')')
    (hbar : t ≠ .plain '|') (ts : List Token) :
    step d t ts = advance (t :: ts) >>= readItem d (sizeOfTokens (t :: ts)) t := by
  simp [step, hclosing, hbar, hd]

/-- The token that is written for a character adds the set of the character. -/
theorem step_literal {d : Draft} (hd : d.IsPlain) (c : Char) (s : List Char) :
    step d (literalToken c) (s.map literalToken) =
      .ok ({ d with items := literalItem c :: d.items }, s.map literalToken) := by
  rw [← hd.pushChar]
  by_cases h : specials.contains c = true
  · have htoken : literalToken c = .escaped c := if_pos h
    have hmem : c ∈ specials := by simpa using h
    rw [htoken, step_eq_readItem hd.mode (t := .escaped c) nofun nofun, advance_literal]
    simp only [bind, Except.bind, readItem, outerEscape_of_mem_specials hmem]
    rfl
  · have htoken : literalToken c = .plain c := if_neg h
    -- every character that is treated in a way of its own is special
    have hspecial (x : Char) (hx : specials.contains x = true) : Token.plain c ≠ .plain x := by
      intro hcx
      exact h (Token.plain.inj hcx ▸ hx)
    rw [htoken, step_eq_readItem hd.mode (hspecial ')' (by decide)) (hspecial '|' (by decide)),
      advance_literal]
    simp only [bind, Except.bind, readItem]
    split
    case h_10 heq => rw [Token.plain.inj heq]
    case h_11 heq => cases heq
    case h_12 heq => cases heq
    all_goals exact absurd ‹Token.plain c = _› (hspecial _ (by decide))

/-- What is read for a text are the sets of its characters, one after the other. -/
theorem readItems_literal {d : Draft} (hd : d.IsPlain) (s : List Char) {fuel : Nat}
    (hfuel : s.length ≤ fuel) :
    readItems fuel d (s.map literalToken) =
      .ok { d with items := (s.map literalItem).reverse ++ d.items } := by
  induction s generalizing d fuel with
  | nil => cases fuel <;> rfl
  | cons c s ih =>
    cases fuel with
    | zero => exact absurd hfuel (by simp)
    | succ fuel =>
      have hrest : s.length ≤ fuel := by
        rw [List.length_cons] at hfuel
        omega
      have hstep := step_literal hd c s
      have hnext : Draft.IsPlain { d with items := literalItem c :: d.items } :=
        ⟨hd.flags, hd.mode⟩
      simp only [List.map_cons, readItems, hstep, bind, Except.bind, ih hnext hrest]
      simp

/-- What is written for a text is read as the pattern that matches exactly that text. -/
theorem parse_escape {flags : Flags} (h : flags.ignoreCase = false) (s : List Char) :
    Expression.parse flags (escape s) = .ok ⟨exactly s, 0, flags⟩ := by
  have hnot : s.map literalToken ≠ [.loneEscape] := by
    intro hs
    obtain ⟨c, -, hc⟩ := List.mem_map.1 (hs ▸ List.mem_singleton_self Token.loneEscape)
    exact literalToken_ne_loneEscape c hc
  have hlength : s.length ≤ (s.map literalToken).length :=
    List.length_map literalToken ▸ Nat.le_refl _
  have hplain : Draft.IsPlain { flags := flags } := ⟨h, rfl⟩
  have hitems := readItems_literal hplain s hlength
  have hparts : (s.map literalItem).map (·.toPart) =
      s.map fun c => ⟨.one (.single c), .exactly 1, none⟩ := by simp [literalItem]
  have hfit : (s.map fun c => (⟨.one (.single c), .exactly 1, none⟩ : Part)).findSome?
      (·.unfit) = none := by simp [List.findSome?_eq_none_iff]
  simp only [Expression.parse, tokens_escape, if_neg hnot, hitems, bind, Except.bind]
  simp only [Draft.finish, Draft.mixesTypes, Draft.allBranches, Draft.sequence, List.append_nil,
    List.reverse_reverse, hparts, List.reverse_cons, List.reverse_nil, List.nil_append,
    Part.firstOf, Part.all, hfit]
  simp [exactly, Function.comp_def]

/-! ## Replacing a text -/

/-- A text matches where it stands, and the match is the text. -/
theorem matchAt_exactly (w before rest : List Char) :
    (exactly w).matchAt false ⟨before, w ++ rest⟩ = some ⟨w, []⟩ := by
  rw [matchAt_eq_head?, ends_exactly_append]
  simp

theorem matchAt_exactly_of_not_isPrefix {w after : List Char} (h : ¬ w <+: after)
    (before : List Char) : (exactly w).matchAt false ⟨before, after⟩ = none := by
  rw [matchAt_eq_head?, ends_exactly_of_not_isPrefix h]
  rfl

/-- The segments of a text are its parts. -/
def segmentOf (w : List Char) : Option Char → Segment
  | some c => .plain c
  | none => .found ⟨w, []⟩

/-- The pattern of a text finds the occurrences that a letter by letter search finds. -/
theorem segmentsFrom_exactly {w : List Char} (hw : w ≠ []) (skip : Nat) (before s : List Char) :
    segmentsFrom (exactly w) skip before s = (Text.cutFrom w skip s).map (segmentOf w) := by
  induction s generalizing skip before with
  | nil =>
    have hnone := matchAt_exactly_of_not_isPrefix (fun h => hw (List.prefix_nil.1 h)) before
    cases skip <;> simp [segmentsFrom, hnone, Text.cutFrom]
  | cons c rest ih =>
    cases skip with
    | succ skip => simpa only [segmentsFrom, Text.cutFrom] using ih skip (c :: before)
    | zero =>
      rw [Text.cutFrom]
      by_cases hprefix : w <+: c :: rest
      · have hfound : (exactly w).matchAt false ⟨before, c :: rest⟩ = some ⟨w, []⟩ := by
          obtain ⟨y, hy⟩ := hprefix
          rw [← hy]
          exact matchAt_exactly w before y
        have hempty : w.isEmpty = false := by simpa using hw
        rw [if_pos (List.isPrefixOf_iff_prefix.2 hprefix), List.map_cons,
          ← ih (w.length - 1) (c :: before)]
        simp only [segmentsFrom, hfound, hempty, Bool.false_eq_true, if_false, segmentOf]
      · have hnone := matchAt_exactly_of_not_isPrefix hprefix before
        rw [if_neg fun h => hprefix (List.isPrefixOf_iff_prefix.1 h), List.map_cons,
          ← ih 0 (c :: before)]
        simp only [segmentsFrom, hnone, segmentOf]

/-- Replacing the matches of the pattern of a text is replacing the text letter by letter. -/
theorem replaceAll_exactly {w : List Char} (hw : w ≠ []) (new s : List Char) :
    (exactly w).replaceAll (fun _ => new) s = Text.replaceAll w new s := by
  rw [replaceAll, segments, segmentsFrom_exactly hw, List.flatMap_map, Text.replaceAll,
    Text.replaceFrom_eq_flatMap]
  congr 1
  funext part
  cases part <;> rfl

/-- The matches of the pattern of a text are as many as the occurrences of the text. -/
theorem length_findAll_exactly {w : List Char} (hw : w ≠ []) (s : List Char) :
    ((exactly w).findAll s).length = Text.count w s := by
  have hmatch : ∀ part, (segmentOf w part).match?.isSome = (part == none) := by
    intro part
    cases part <;> rfl
  rw [findAll, segments, segmentsFrom_exactly hw, List.filterMap_map, Text.count,
    List.length_filterMap_eq_countP, List.count]
  exact congrArg (List.countP · _) (funext hmatch)

end Stencil.Pattern
