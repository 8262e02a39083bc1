import Stencil.Text.Blank
import Stencil.Text.Letter
import Stencil.Text.Case

/-!
Sets of characters that a pattern can ask for at one place.

A set is a list of ranges of code points and of kinds of characters, or the complement of one.  Case
can count, count only beyond ASCII, or not count at all (`Casing`); a character belongs to a set if
any character that is the same letter is in one of its parts.
-/

namespace Stencil.Pattern

open Stencil.Text

/-- The kinds of characters that patterns name: of every script, or of ASCII alone. -/
inductive CharKind
  | digit
  | blank
  | word
  | asciiDigit
  | asciiBlank
  | asciiWord
  deriving DecidableEq

def CharKind.has : CharKind → Char → Bool
  | .digit, c => isDecimal c
  | .blank, c => isBlank c
  | .word, c => isWord c
  | .asciiDigit, c => c.isDigit
  | .asciiBlank, c => c == ' ' || (9 ≤ c.toNat && c.toNat ≤ 13)
  | .asciiWord, c => c == '_' || c.isAlphanum

def CharKind.inAscii : CharKind → CharKind
  | .digit | .asciiDigit => .asciiDigit
  | .blank | .asciiBlank => .asciiBlank
  | .word | .asciiWord => .asciiWord

/-- Which characters are the same letter: each only itself, the two cases of an ASCII letter, or the
cases of the letters of every script. -/
inductive Casing
  | exact
  | ascii
  | full
  deriving DecidableEq

/-- The characters that are the same letter as `c`. -/
def Casing.variants : Casing → Char → List Char
  | .exact, c => [c]
  | .ascii, c => [c.toLower, c.toUpper]
  | .full, c => caseVariants c

@[simp] theorem Casing.variants_exact (c : Char) : Casing.exact.variants c = [c] := rfl

/-- Are the characters the same, or the same in lower case? -/
def Casing.same : Casing → Char → Char → Bool
  | .exact, x, y => x == y
  | .ascii, x, y => x.toLower == y.toLower
  | .full, x, y => simpleLower x == simpleLower y

/-- One part of a set: the code points from `low` to `high`, or the characters of a kind, or those
of another kind. -/
inductive CharItem
  | range (low high : Nat)
  | kind (k : CharKind)
  | otherThan (k : CharKind)
  deriving DecidableEq

def CharItem.has : CharItem → Char → Bool
  | .range low high, c => low ≤ c.toNat && c.toNat ≤ high
  | .kind k, c => k.has c
  | .otherThan k, c => !k.has c

/-- The part with the kinds of ASCII in place of those of every script. -/
def CharItem.inAscii : CharItem → CharItem
  | .range low high => .range low high
  | .kind k => .kind k.inAscii
  | .otherThan k => .otherThan k.inAscii

structure CharSet where
  items : List CharItem
  negated : Bool := false
  casing : Casing := .exact
  deriving DecidableEq

namespace CharSet

def has (s : CharSet) (c : Char) : Bool :=
  ((s.casing.variants c).any fun v => s.items.any (·.has v)) != s.negated

def single (c : Char) : CharSet := ⟨[.range c.toNat c.toNat], false, .exact⟩

def kind (k : CharKind) : CharSet := ⟨[.kind k], false, .exact⟩

def otherThan (k : CharKind) : CharSet := ⟨[.otherThan k], false, .exact⟩

def oneOf (cs : List Char) : CharSet := ⟨cs.map fun c => .range c.toNat c.toNat, false, .exact⟩

def noneOf (cs : List Char) : CharSet := ⟨cs.map fun c => .range c.toNat c.toNat, true, .exact⟩

def any : CharSet := ⟨[], true, .exact⟩

/-- The characters of either set, both taken as they are written. -/
def union (s t : CharSet) : CharSet := ⟨s.items ++ t.items, false, .exact⟩

def asciiAlnum : CharSet := ⟨[.range 65 90, .range 97 122, .range 48 57], false, .exact⟩

/-! ## Lemmas -/

@[simp] theorem has_single (a c : Char) : (single a).has c = (c == a) := by
  have h : (c == a) = decide (a.toNat ≤ c.toNat ∧ c.toNat ≤ a.toNat) := by
    by_cases hca : c = a
    · subst hca; simp
    · have : c.toNat ≠ a.toNat := fun e => hca (Char.toNat_inj.1 e)
      have hb : (c == a) = false := by simpa using hca
      rw [hb, eq_comm, decide_eq_false_iff_not]
      omega
  simp [single, has, CharItem.has, h]

@[simp] theorem has_kind (k : CharKind) (c : Char) : (kind k).has c = k.has c := by
  simp [kind, has, CharItem.has]

@[simp] theorem has_noneOf (cs : List Char) (c : Char) : (noneOf cs).has c = !cs.contains c := by
  have h (d : Char) : (CharItem.range d.toNat d.toNat).has c = (c == d) := by
    simpa [single, has] using has_single d c
  rw [List.contains_eq_any_beq]
  simp only [noneOf, has, Casing.variants_exact, List.any_cons, List.any_nil, List.any_map,
    Function.comp_def, h, Bool.or_false, Bool.bne_true]

@[simp] theorem has_any (c : Char) : any.has c = true := by
  simp [any, has]

end CharSet

end Stencil.Pattern
