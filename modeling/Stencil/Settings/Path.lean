/-! Paths of files: parts between slashes, without the parts that mean nothing. -/

namespace Stencil

/-- The parts of a path between its slashes, without empty parts and single dots. -/
def pathParts (s : List Char) : List (List Char) :=
  (s.splitOn '/').filter fun part => !part.isEmpty && part ≠ ['.']

/-- What a path begins with: nothing, one slash, or exactly two. -/
def pathRoot : List Char → List Char
  | '/' :: '/' :: '/' :: _ => ['/']
  | '/' :: '/' :: _ => ['/', '/']
  | '/' :: _ => ['/']
  | _ => []

/-- The path in its plain form; the empty path is a dot. -/
def plainPath (s : List Char) : List Char :=
  let plain := pathRoot s ++ ['/'].intercalate (pathParts s)
  if plain.isEmpty then ['.'] else plain

/-- The path in its plain form. -/
def normalizePath (s : String) : String := String.ofList (plainPath s.toList)

end Stencil
