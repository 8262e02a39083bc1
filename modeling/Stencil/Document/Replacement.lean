import Stencil.Pattern.Reader
import Stencil.Pattern.Scan
import Stencil.Pattern.Escape

/-!
Written patterns: how a binding says which text its value stands for.

A written pattern is an expression between slashes with flags behind, or else a text that stands for
itself.  `ofLiteral` writes a text as an expression between slashes.  Main statement: what it writes
is taken apart again into the expression and the flag (`delimited?_ofLiteral`).
-/

namespace Stencil

open Pattern

/-- What a written pattern asks to be replaced: an expression and how it is written. -/
structure Replacement where
  source : List Char
  expression : Expression

namespace Replacement

/-- A written pattern that matches exactly the text. -/
def ofLiteral (s : List Char) : List Char := '/' :: escape s ++ ['/', 'g']

/-- A text cut at its last slash, in reverse: what follows the slash and what precedes it, which is
nothing if there is no slash. -/
def atLastSlash (written : List Char) : List Char × List Char :=
  (written.reverse.takeWhile (· != '/'), (written.reverse.dropWhile (· != '/')).drop 1)

/-- May the text, in reverse, stand behind the last slash? Flags are small letters; one line feed
may follow them. -/
def areFlags : List Char → Bool
  | '\n' :: flags => flags.all fun c => 'a' ≤ c && c ≤ 'z'
  | flags => flags.all fun c => 'a' ≤ c && c ≤ 'z'

/-- The expression and the flags of a pattern that is written between slashes. -/
def delimited? : List Char → Option (List Char × List Char)
  | '/' :: rest =>
    let (flags, expression) := atLastSlash rest
    if !expression.isEmpty && areFlags flags then
      some (expression.reverse, flags.reverse)
    else none
  | _ => none

/-- The flags that letters stand for; letters without a meaning are passed over. -/
def readFlags (letters : List Char) : Flags :=
  letters.foldl (fun f c => f.union ((Flags.ofLetter? c).getD ⟨false, false, false⟩))
    ⟨false, false, false⟩

/-- What a written pattern is for a reader of expressions, `compile`: the expression and what is
made of it under its flags. A text that is not written between slashes is escaped and has no flags.
The empty text asks for nothing, and neither does an expression that is refused. -/
def readWith? {ε α : Type} (compile : Flags → List Char → Except ε α) (written : List Char) :
    Option (List Char × α) :=
  if written.isEmpty then none
  else
    let (source, letters) := (delimited? written).getD (escape written, [])
    (compile (readFlags letters) source).toOption.map fun x => (source, x)

/-- What a written pattern asks for. -/
def read? (written : List Char) : Option Replacement :=
  (readWith? Expression.parse written).map fun (source, e) => ⟨source, e⟩

def apply (r : Replacement) (new s : List Char) : List Char :=
  r.expression.pattern.replaceAll (fun _ => new) s

def count (r : Replacement) (s : List Char) : Nat := (r.expression.pattern.findAll s).length

/-- Replaces what a written pattern asks for, if it asks for anything. -/
def applyWritten (written new s : List Char) : List Char :=
  match read? written with
  | some r => r.apply new s
  | none => s

/-- The letters of the flags under which the expression was read. -/
def flagLetters (r : Replacement) : List Char :=
  let f := r.expression.flags
  (if f.ignoreCase then ['i'] else []) ++ (if f.multiLine then ['m'] else []) ++
    (if f.dotAll then ['s'] else [])

/-! ## Lemmas -/

/-- A text is cut at its last slash, whatever stands before it. -/
theorem atLastSlash_append {flags : List Char} (h : '/' ∉ flags) (expression : List Char) :
    atLastSlash (expression ++ '/' :: flags) = (flags.reverse, expression.reverse) := by
  have hne : ∀ c ∈ flags.reverse, (c != '/') = true := by
    intro c hc
    simpa using fun e : c = '/' => h (e ▸ List.mem_reverse.mp hc)
  simp [atLastSlash, List.takeWhile_append_of_pos hne, List.dropWhile_append_of_pos hne]

/-- What is written for a text is read as its expression and the letter behind it. -/
theorem delimited?_ofLiteral {s : List Char} (h : s ≠ []) :
    delimited? (ofLiteral s) = some (escape s, ['g']) := by
  have hs : escape s ≠ [] := fun e => h (escape_eq_nil_iff.mp e)
  have hcut := atLastSlash_append (show '/' ∉ ['g'] by decide) (escape s)
  simp [ofLiteral, delimited?, hcut, hs, areFlags]

end Replacement

end Stencil
