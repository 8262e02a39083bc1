import Stencil.Pattern.Basic

/-!
What a pattern matches.

A `Cursor` is a place in a text.  `Pattern.run p k s` tries the matches of `p` at the state `s` in
the order of preference and gives the first final state that the continuation `k` accepts; so
`(p.seq q).run k = p.run (q.run k)` and `(p.either q).run k s` falls back on `q`.
-/

namespace Stencil

/-- A place in a text: what lies before it, nearest character first, and what follows. -/
structure Cursor where
  before : List Char
  after : List Char
  deriving DecidableEq

namespace Cursor

def start (s : List Char) : Cursor := ⟨[], s⟩

/-- The places from here on that are reached through characters of the set, at most `most` of them;
the first is this place. -/
def reach (set : Pattern.CharSet) (most : Option Nat) (before : List Char) : List Char → List Cursor
  | [] => [⟨before, []⟩]
  | c :: rest =>
    ⟨before, c :: rest⟩ ::
      if most != some 0 && set.has c then reach set (most.map (· - 1)) (c :: before) rest else []

/-- The place `n` characters back. -/
def back? : Nat → Cursor → Option Cursor
  | 0, c => some c
  | n + 1, ⟨x :: before, after⟩ => back? n ⟨before, x :: after⟩
  | _ + 1, ⟨[], _⟩ => none

/-- Is there a character of the kind on exactly one side? -/
def atEdge (k : Pattern.CharKind) (c : Cursor) : Bool :=
  (c.before.head?.any k.has) != (c.after.head?.any k.has)

def inEmptyText (c : Cursor) : Bool := c.before.isEmpty && c.after.isEmpty

end Cursor

/-- Does the condition hold at the place? The end of the last line is the end of the text, or in
front of a line feed that ends it. -/
def Anchor.holds : Anchor → Cursor → Bool
  | .textStart, c => c.before.isEmpty
  | .lineStart, c => c.before.isEmpty || c.before.head? == some '\n'
  | .textEnd, c => c.after.isEmpty
  | .lineEnd, c => c.after.isEmpty || c.after.head? == some '\n'
  | .lastLineEnd, c => c.after.isEmpty || c.after == ['\n']
  | .wordEdge k, c => !c.inEmptyText && c.atEdge k
  | .noWordEdge k, c => !c.inEmptyText && !c.atEdge k

namespace Pattern

/-- A remembered part of the text: all that follows its beginning, and all that follows its end. -/
structure Capture where
  fromHere : List Char
  upToHere : List Char
  deriving DecidableEq

def Capture.text (c : Capture) : List Char :=
  c.fromHere.take (c.fromHere.length - c.upToHere.length)

/-- A place in the text and what the groups remember, the latest first. -/
structure State where
  cursor : Cursor
  captures : List (Nat × Capture)
  deriving DecidableEq

/-- What is tried after a match. -/
abbrev Continuation := State → Option State

/-- Removes a given text in front of another; `same` compares characters. -/
def dropText? (same : Char → Char → Bool) : List Char → Cursor → Option Cursor
  | [], c => some c
  | x :: xs, ⟨before, y :: after⟩ =>
    if same x y then dropText? same xs ⟨y :: before, after⟩ else none
  | _ :: _, ⟨_, []⟩ => none

def times (body : Continuation → Continuation) : Nat → Continuation → Continuation
  | 0, k => k
  | n + 1, k => body (times body n k)

/-- `body` up to `most` times, as often as possible or as seldom. A repetition that has matched the
empty text is the last one. `fuel` bounds the number of repetitions and is never short of it when it
exceeds the length of the text that is left. -/
def iterate (body : Continuation → Continuation) (greedy : Bool) (k : Continuation) :
    (fuel : Nat) → (most : Option Nat) → Continuation
  | 0, _, s => k s
  | fuel + 1, most, s =>
    if most = some 0 then k s
    else
      let next : Continuation := fun t =>
        if t.cursor.after.length = s.cursor.after.length then k t
        else iterate body greedy k fuel (most.map (· - 1)) t
      if greedy then
        match body next s with
        | some t => some t
        | none => k s
      else
        match k s with
        | some t => some t
        | none => body next s

/-- Goes on from where it is if a look at the text around has `found` something, or if it has found
nothing and that is asked for. -/
def look (negated : Bool) (found : Option State) (k : Continuation) (s : State) : Option State :=
  match found with
  | some t => if negated then none else k { t with cursor := s.cursor }
  | none => if negated then k s else none

/-- The first state, in the order of preference of the matches of the pattern, that the continuation
accepts. -/
def run : Pattern → Continuation → Continuation
  | .empty, k, s => k s
  | .one set, k, s =>
    match s.cursor with
    | ⟨before, c :: after⟩ =>
      if set.has c then k { s with cursor := ⟨c :: before, after⟩ } else none
    | ⟨_, []⟩ => none
  | .span set least most greedy, k, s =>
    let places := (Cursor.reach set most s.cursor.before s.cursor.after).drop least
    (if greedy then places.reverse else places).findSome? fun c => k { s with cursor := c }
  | .seq p q, k, s => p.run (q.run k) s
  | .either p q, k, s =>
    match p.run k s with
    | some t => some t
    | none => q.run k s
  | .loop p least most greedy, k, s =>
    times p.run least
      (fun t => iterate p.run greedy k (t.cursor.after.length + 1) (most.map (· - least)) t) s
  | .atomic p, k, s =>
    match p.run some s with
    | some t => k t
    | none => none
  | .group index p, k, s =>
    p.run
      (fun t => k { t with captures := (index, ⟨s.cursor.after, t.cursor.after⟩) :: t.captures }) s
  | .again index casing, k, s =>
    match s.captures.lookup index with
    | none => none
    | some c =>
      match dropText? casing.same c.text s.cursor with
      | some cursor => k { s with cursor := cursor }
      | none => none
  | .given index yes no, k, s =>
    if (s.captures.lookup index).isSome then yes.run k s else no.run k s
  | .anchor a, k, s => if a.holds s.cursor then k s else none
  | .ahead negated p, k, s => look negated (p.run some s) k s
  | .behind negated width p, k, s =>
    look negated ((s.cursor.back? width).bind fun c => p.run some { s with cursor := c }) k s

end Pattern

end Stencil
