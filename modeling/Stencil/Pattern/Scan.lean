import Stencil.Pattern.Match

/-!
All matches of a pattern in a text, from left to right.

`Pattern.segments` cuts a text into matches and the single characters between them; the texts of the
segments joined are the text again (`flatMap_text_segments`).  A match of the empty text may
directly follow a match that is not empty, and at one place a match that is not empty may follow an
empty one. Searching, listing and replacing are read off the segments.
-/

namespace Stencil.Pattern

/-- A match: its text and what its groups remember. -/
structure Match where
  text : List Char
  captures : List (Nat × Capture)
  deriving DecidableEq

def Match.group? (m : Match) (index : Nat) : Option (List Char) :=
  (m.captures.lookup index).map (·.text)

/-- The match at a place that is preferred, empty ones left out on demand. -/
def matchAt (p : Pattern) (notEmpty : Bool) (c : Cursor) : Option Match :=
  let accept : Continuation := fun t =>
    if notEmpty && t.cursor.after.length == c.after.length then none else some t
  (p.run accept ⟨c, []⟩).map fun t =>
    ⟨c.after.take (c.after.length - t.cursor.after.length), t.captures⟩

/-- A part of a text that has been searched. -/
inductive Segment
  | plain (c : Char)
  | found (m : Match)
  deriving DecidableEq

def Segment.text : Segment → List Char
  | .plain c => [c]
  | .found m => m.text

/-- The match that the part is, if it is one. -/
def Segment.match? : Segment → Option Match
  | .plain _ => none
  | .found m => some m

/-- The segments of a text of which `skip` characters in front belong to the last match. -/
def segmentsFrom (p : Pattern) : (skip : Nat) → (before : List Char) → List Char → List Segment
  | _, before, [] =>
    match p.matchAt false ⟨before, []⟩ with
    | some m => [.found m]
    | none => []
  | skip + 1, before, c :: rest => segmentsFrom p skip (c :: before) rest
  | 0, before, c :: rest =>
    match p.matchAt false ⟨before, c :: rest⟩ with
    | none => .plain c :: segmentsFrom p 0 (c :: before) rest
    | some m =>
      if m.text.isEmpty then
        .found m ::
          match p.matchAt true ⟨before, c :: rest⟩ with
          | some m' => .found m' :: segmentsFrom p (m'.text.length - 1) (c :: before) rest
          | none => .plain c :: segmentsFrom p 0 (c :: before) rest
      else .found m :: segmentsFrom p (m.text.length - 1) (c :: before) rest

/-- The text cut into the matches and the characters between them. -/
def segments (p : Pattern) (s : List Char) : List Segment := segmentsFrom p 0 [] s

def findAll (p : Pattern) (s : List Char) : List Match := (p.segments s).filterMap (·.match?)

def occursIn (p : Pattern) (s : List Char) : Bool := (p.segments s).any (·.match?.isSome)

def replaceAll (p : Pattern) (new : Match → List Char) (s : List Char) : List Char :=
  (p.segments s).flatMap fun
    | .plain c => [c]
    | .found m => new m

/-- Does the pattern match at the beginning of the text? -/
def matchesStart (p : Pattern) (s : List Char) : Bool := (p.matchAt false (Cursor.start s)).isSome

end Stencil.Pattern
