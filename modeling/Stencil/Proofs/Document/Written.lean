import Stencil.Document.Replacement
import Stencil.Proofs.Pattern.Literal
import Stencil.Proofs.Pattern.Outline

/-!
# Written patterns are read as they are meant

A text without a slash in front stands for itself, and so does a text that is written with
`ofLiteral`: what is asked to be replaced are its occurrences (`IsLiteral`).  An expression between
slashes is read as a whole, whatever slashes it holds, and under the flags whose letters stand
behind, and this by any reader of expressions (`readWith?_slashes`).  Together these say what every
written pattern asks for, up to letters that are no flags (`read_written`).
-/

namespace Stencil.Replacement

open Pattern

/-! ## Texts that stand for themselves -/

/-- The occurrences of the text are replaced and counted. -/
def IsLiteral (r : Replacement) (w : List Char) : Prop :=
  ∀ new s, r.apply new s = Text.replaceAll w new s ∧ r.count s = Text.count w s

theorem isLiteral_of_exactly {r : Replacement} {w : List Char} (hw : w ≠ [])
    (h : r.expression.pattern = exactly w) : r.IsLiteral w := by
  intro new s
  rw [apply, count, h]
  exact ⟨replaceAll_exactly hw new s, length_findAll_exactly hw s⟩

/-- A text that is not empty, taken apart, is read as its expression under its flags. -/
theorem readWith?_of_delimited? {ε α : Type} (compile : Flags → List Char → Except ε α)
    {w source letters : List Char} (hw : w ≠ [])
    (h : (delimited? w).getD (escape w, []) = (source, letters)) :
    readWith? compile w =
      (compile (readFlags letters) source).toOption.map fun x => (source, x) := by
  have hwritten : w.isEmpty = false := by simpa using hw
  simp only [readWith?, hwritten, Bool.false_eq_true, if_false, h]

theorem read?_of_delimited? {w source : List Char} (hw : w ≠ []) {letters : List Char}
    (h : (delimited? w).getD (escape w, []) = (source, letters)) {e : Expression}
    (he : Expression.parse (readFlags letters) source = .ok e) : read? w = some ⟨source, e⟩ := by
  rw [read?, readWith?_of_delimited? _ hw h, he]
  rfl

/-- What is written for a text asks for exactly that text. -/
theorem read?_ofLiteral {w : List Char} (hw : w ≠ []) :
    read? (ofLiteral w) = some ⟨escape w, exactly w, 0, ⟨false, false, false⟩⟩ := by
  have hcut : (delimited? (ofLiteral w)).getD (escape (ofLiteral w), []) = (escape w, ['g']) := by
    rw [delimited?_ofLiteral hw]
    rfl
  exact read?_of_delimited? (List.cons_ne_nil _ _) hcut (parse_escape rfl w)

theorem applyWritten_ofLiteral {w : List Char} (hw : w ≠ []) (new s : List Char) :
    applyWritten (ofLiteral w) new s = Text.replaceAll w new s := by
  rw [applyWritten, read?_ofLiteral hw]
  exact Pattern.replaceAll_exactly hw new s

theorem delimited?_of_head? {w : List Char} (h : w.head? ≠ some '/') : delimited? w = none := by
  unfold delimited?
  split
  · exact absurd rfl h
  · rfl

/-- A text without a slash in front asks for exactly that text. -/
theorem read?_of_head? {w : List Char} (hw : w ≠ []) (hhead : w.head? ≠ some '/') :
    read? w = some ⟨escape w, exactly w, 0, ⟨false, false, false⟩⟩ := by
  have hcut : (delimited? w).getD (escape w, []) = (escape w, []) := by
    rw [delimited?_of_head? hhead]
    rfl
  exact read?_of_delimited? hw hcut (parse_escape rfl w)

/-! ## Expressions between slashes -/

/-- A small letter, as flags are written with. -/
def IsFlagLetter (c : Char) : Prop := 'a' ≤ c ∧ c ≤ 'z'

theorem areFlags_of_forall {letters : List Char} (h : ∀ c ∈ letters, IsFlagLetter c) :
    areFlags letters = true := by
  have hall : letters.all (fun c => 'a' ≤ c && c ≤ 'z') = true := by
    simpa [IsFlagLetter] using h
  unfold areFlags
  split
  case h_1 flags => simp at hall
  case h_2 => exact hall

/-- An expression is cut out at the last slash, whatever slashes it holds. -/
theorem delimited?_slashes {e letters : List Char} (he : e ≠ [])
    (hletters : ∀ c ∈ letters, IsFlagLetter c) :
    delimited? ('/' :: e ++ '/' :: letters) = some (e, letters) := by
  have hslash : '/' ∉ letters := fun hmem => absurd (hletters '/' hmem).1 (by decide)
  have hflags : areFlags letters.reverse = true :=
    areFlags_of_forall fun c hc => hletters c (List.mem_reverse.1 hc)
  simp [delimited?, atLastSlash_append hslash, he, hflags]

/-- The flags that a letter stands for, none if it is no flag. -/
theorem ofLetter?_getD (c : Char) :
    (Flags.ofLetter? c).getD ⟨false, false, false⟩ = ⟨c = 'i', c = 'm', c = 's'⟩ := by
  unfold Flags.ofLetter?
  split
  · rfl
  · rfl
  · rfl
  · simp_all

/-- The flags are those whose letters occur. -/
theorem readFlags_eq (letters : List Char) :
    readFlags letters = ⟨'i' ∈ letters, 'm' ∈ letters, 's' ∈ letters⟩ := by
  have hfold (f : Flags) : letters.foldl
      (fun f c => f.union ((Flags.ofLetter? c).getD ⟨false, false, false⟩)) f =
        f.union ⟨'i' ∈ letters, 'm' ∈ letters, 's' ∈ letters⟩ := by
    induction letters generalizing f with
    | nil => simp [Flags.union]
    | cons c letters ih =>
      rw [List.foldl_cons, ih, ofLetter?_getD]
      simp [Flags.union, Bool.or_assoc, eq_comm]
  rw [readFlags, hfold]
  simp [Flags.union]

section

variable {e letters : List Char} (he : e ≠ []) (hletters : ∀ c ∈ letters, IsFlagLetter c)

include he hletters

/-- Whatever reads expressions gets exactly what stands between the slashes, under the flags whose
letters stand behind it. -/
theorem readWith?_slashes {ε α : Type} (compile : Flags → List Char → Except ε α) :
    readWith? compile ('/' :: e ++ '/' :: letters) =
      (compile ⟨'i' ∈ letters, 'm' ∈ letters, 's' ∈ letters⟩ e).toOption.map fun x => (e, x) := by
  have hcut : (delimited? ('/' :: e ++ '/' :: letters)).getD
      (escape ('/' :: e ++ '/' :: letters), []) = (e, letters) := by
    rw [delimited?_slashes he hletters]
    rfl
  rw [readWith?_of_delimited? compile (by simp) hcut, readFlags_eq]

/-- An expression that can be read under any flags is read under those whose letters stand behind
it. -/
theorem read?_slashes {flags : Flags} {x : Expression} (hx : Expression.parse flags e = .ok x) :
    ∃ x', Expression.parse ⟨'i' ∈ letters, 'm' ∈ letters, 's' ∈ letters⟩ e = .ok x' ∧
      read? ('/' :: e ++ '/' :: letters) = some ⟨e, x'⟩ := by
  obtain ⟨x', hx', -⟩ := exists_parse hx ⟨'i' ∈ letters, 'm' ∈ letters, 's' ∈ letters⟩
  refine ⟨x', hx', ?_⟩
  rw [read?, readWith?_slashes he hletters, hx']
  rfl

end

/-- **What written patterns ask for.**  The pattern written for a text and a text without a slash in
front ask for the occurrences of the text.  What stands between slashes is handed as it is to
whatever reads expressions, under exactly the flags whose letters stand behind; and an expression
that `Expression.parse` reads under any flags it reads under these. -/
theorem read_written :
    (∀ raw : List Char, raw ≠ [] → ∃ r, read? (ofLiteral raw) = some r ∧ r.IsLiteral raw) ∧
      (∀ (ε α : Type) (compile : Flags → List Char → Except ε α) (e letters : List Char), e ≠ [] →
        (∀ c ∈ letters, IsFlagLetter c) →
          readWith? compile ('/' :: e ++ '/' :: letters) =
            (compile ⟨'i' ∈ letters, 'm' ∈ letters, 's' ∈ letters⟩ e).toOption.map
              fun x => (e, x)) ∧
      (∀ (e letters : List Char) (flags : Flags) (x : Expression), e ≠ [] →
        (∀ c ∈ letters, IsFlagLetter c) → Expression.parse flags e = .ok x →
          ∃ x', Expression.parse ⟨'i' ∈ letters, 'm' ∈ letters, 's' ∈ letters⟩ e = .ok x' ∧
            read? ('/' :: e ++ '/' :: letters) = some ⟨e, x'⟩) ∧
      ∀ w : List Char, w ≠ [] → w.head? ≠ some '/' → ∃ r, read? w = some r ∧ r.IsLiteral w := by
  refine ⟨fun raw hraw => ?_, fun ε α compile e letters he hletters => ?_,
    fun e letters flags x he hletters hx => ?_, fun w hw hhead => ?_⟩
  · exact ⟨_, read?_ofLiteral hraw, isLiteral_of_exactly hraw rfl⟩
  · exact readWith?_slashes he hletters compile
  · exact read?_slashes he hletters hx
  · exact ⟨_, read?_of_head? hw hhead, isLiteral_of_exactly hw rfl⟩

/-- Texts, and an expression with slashes, line feeds, a comment and a condition in it. -/
theorem read_written_slashes :
    (∃ r, read? (ofLiteral "[a/g]\n".toList) = some r ∧
        r.apply "*".toList "g[a/g]\n[a/g]".toList = "g*[a/g]".toList ∧
        r.count "g[a/g]\n[a/g]".toList = 1) ∧
      (∃ x, Expression.parse ⟨true, false, true⟩ "(a/i|\n.)?(?(1)b|c)(?#/g)".toList = .ok x ∧
        readWith? Expression.parse "/(a/i|\n.)?(?(1)b|c)(?#/g)/sgi".toList =
          some ("(a/i|\n.)?(?(1)b|c)(?#/g)".toList, x) ∧
        read? "/(a/i|\n.)?(?(1)b|c)(?#/g)/sgi".toList =
          some ⟨"(a/i|\n.)?(?(1)b|c)(?#/g)".toList, x⟩) ∧
      ∃ r, read? "a+/i".toList = some r ∧ r.count "a+/ia+/i aa/i".toList = 2 := by
  obtain ⟨hraw, hany, hslashes, hplain⟩ := read_written
  obtain ⟨r, hr, hliteral⟩ := hraw "[a/g]\n".toList (by decide)
  obtain ⟨r', hr', hliteral'⟩ := hplain "a+/i".toList (by decide) (by decide)
  have hletters : ∀ c ∈ "sgi".toList, IsFlagLetter c := by simp [IsFlagLetter]
  obtain ⟨x, hx, hread⟩ := hslashes "(a/i|\n.)?(?(1)b|c)(?#/g)".toList "sgi".toList {} _ (by decide)
    hletters rfl
  have hcompiled := hany Fault Expression Expression.parse "(a/i|\n.)?(?(1)b|c)(?#/g)".toList
    "sgi".toList (by decide) hletters
  refine ⟨⟨r, hr, (hliteral _ _).1.trans (by decide), (hliteral [] _).2.trans (by decide)⟩, ?_,
    r', hr', (hliteral' [] _).2.trans (by decide)⟩
  exact ⟨x, hx, hcompiled.trans (by rw [hx]; rfl), hread⟩

end Stencil.Replacement
