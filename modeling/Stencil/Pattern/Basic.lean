import Stencil.Pattern.CharSet

/-!
Patterns: the expressions that find placeholders, sections and bound text.

A `Pattern` is built from sets of characters, sequence, choice, repetition, capturing groups,
back-references, conditions on groups and on the place, and looks at the text around it.  This
module holds the type and short names for the common shapes; `Stencil.Pattern.Match` says what a
pattern matches.
-/

namespace Stencil

/-- A condition on a place in the text. The edges of words are told by the kind of character that
words are made of. -/
inductive Anchor
  | textStart
  | lineStart
  | textEnd
  | lineEnd
  | lastLineEnd
  | wordEdge (k : Pattern.CharKind)
  | noWordEdge (k : Pattern.CharKind)
  deriving DecidableEq

/-- An expression that matches parts of a text. Where several matches begin at one place, the order
of the alternatives and the greed of the repetitions say which is preferred. -/
inductive Pattern
  /-- Matches the empty text. -/
  | empty
  /-- Matches one character of the set. -/
  | one (set : Pattern.CharSet)
  /-- Matches between `least` and `most` characters of the set. -/
  | span (set : Pattern.CharSet) (least : Nat) (most : Option Nat) (greedy : Bool)
  /-- Matches `first`, then `second`. -/
  | seq (first second : Pattern)
  /-- Matches `first` or, failing that, `second`. -/
  | either (first second : Pattern)
  /-- Matches `body` between `least` and `most` times. -/
  | loop (body : Pattern) (least : Nat) (most : Option Nat) (greedy : Bool)
  /-- Matches `body`, and only as `body` prefers to match. -/
  | atomic (body : Pattern)
  /-- Matches `body` and remembers the text under a number. -/
  | group (index : Nat) (body : Pattern)
  /-- Matches the text that the group remembers. -/
  | again (index : Nat) (casing : Pattern.Casing)
  /-- Matches `yes` if the group remembers a text, and `no` if it does not. -/
  | given (index : Nat) (yes no : Pattern)
  /-- Matches the empty text where the condition holds. -/
  | anchor (at_ : Anchor)
  /-- Matches the empty text where `body` matches, or where it does not. -/
  | ahead (negated : Bool) (body : Pattern)
  /-- Matches the empty text where `body` matches the `width` characters before, or where it does
  not. -/
  | behind (negated : Bool) (width : Nat) (body : Pattern)
  deriving DecidableEq

namespace Pattern

def all : List Pattern → Pattern
  | [] => .empty
  | [p] => p
  | p :: rest => .seq p (all rest)

def firstOf : List Pattern → Pattern
  | [] => .empty
  | [p] => p
  | p :: rest => .either p (firstOf rest)

def exactly (s : List Char) : Pattern := all (s.map fun c => .one (.single c))

/-- As many characters of the set as possible, none included. -/
def many (set : CharSet) : Pattern := .span set 0 none true

/-- As many characters of the set as possible, at least one. -/
def many1 (set : CharSet) : Pattern := .span set 1 none true

/-- As few characters of the set as possible, none included. -/
def few (set : CharSet) : Pattern := .span set 0 none false

/-- As few characters of the set as possible, at least one. -/
def few1 (set : CharSet) : Pattern := .span set 1 none false

def blanks : Pattern := many (.kind .blank)

def blanks1 : Pattern := many1 (.kind .blank)

/-- Repeats a pattern; a repeated set of characters is a span. -/
def repeated (body : Pattern) (least : Nat) (most : Option Nat) (greedy : Bool) : Pattern :=
  match body with
  | .one set => .span set least most greedy
  | p => .loop p least most greedy

end Pattern

end Stencil
