import Stencil.Pattern.Scan
import Stencil.Pattern.Escape

/-!
Sections of a text that can be shown or hidden.

A section stands between its markers, either in comments, with the text between them kept as it is,
or bare, without the blanks inside the markers.  Sections do not nest; the first closing marker
counts.
-/

namespace Stencil.Section

open Pattern

def nameChar : CharSet := ⟨[.kind .word, .range 46 46, .range 45 45], false, .exact⟩

/-- Characters that a bare marker does not follow. -/
def wordOrDash : CharSet := ⟨[.kind .word, .range 45 45], false, .exact⟩

/-- The place is not right after a word or a dash. -/
def freshWord : Pattern := .behind true 1 (.one wordOrDash)

/-- The name, and not the beginning of a longer one. -/
def wholeName (name : List Char) : Pattern :=
  .seq (exactly name) (.ahead true (.one nameChar))

def commentMarker (word : String) (name : List Char) : Pattern :=
  all [exactly "<!--".toList, blanks, exactly word.toList, blanks, exactly name, blanks,
    exactly "-->".toList]

def bareMarker (word : String) (name : List Char) : Pattern :=
  all [freshWord, exactly word.toList, blanks1, wholeName name]

/-- A section of that name; its text is the first group between comments and the second one
otherwise. -/
def pattern (name : List Char) : Pattern :=
  .either
    (all [commentMarker "BEGIN" name, .group 1 (few .any), commentMarker "END" name])
    (all [bareMarker "BEGIN" name, blanks, .group 2 (few .any), blanks, bareMarker "END" name])

def inner (m : Match) : List Char := ((m.group? 1).or (m.group? 2)).getD []

/-- Replaces every section of that name by the text inside. -/
def reveal (name content : List Char) : List Char := (pattern name).replaceAll inner content

def remove (name content : List Char) : List Char :=
  (pattern name).replaceAll (fun _ => []) content

def occurs (name content : List Char) : Bool := (pattern name).occursIn content

/-- The beginning of an opening marker, whatever its name, which is the first group. -/
def openingPattern : Pattern :=
  .seq
    (.either (all [exactly "<!--".toList, blanks, exactly "BEGIN".toList, blanks])
      (all [freshWord, exactly "BEGIN".toList, blanks1]))
    (.group 1 (many1 nameChar))

/-- The names in opening markers, from left to right. -/
def openedNames (content : List Char) : List (List Char) :=
  (openingPattern.findAll content).filterMap (·.group? 1)

/-- Adds the name of a section that is there and was not listed before. -/
def nameStep (content : List Char) (names : List (List Char)) (name : List Char) :
    List (List Char) :=
  if !names.contains name && occurs name content then names ++ [name] else names

/-- The names of the sections, in the order in which they first appear. -/
def names (content : List Char) : List (List Char) :=
  (openedNames content).foldl (nameStep content) []

end Stencil.Section
