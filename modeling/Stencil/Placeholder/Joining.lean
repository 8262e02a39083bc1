import Stencil.Text.Blank
import Stencil.Pattern.Scan

/-!
Placeholders that a line break has torn apart.

Text taken out of formatted documents breaks lines inside placeholders.  `normalize` writes every
line end as a line feed and then joins the lines inside each token of four kinds, in turn; nothing
outside the tokens is touched.
-/

namespace Stencil.Placeholder

open Text Pattern

/-- Writes every line end as one line feed. -/
def lineFeeds : List Char → List Char
  | [] => []
  | '\r' :: '\n' :: rest => '\n' :: lineFeeds rest
  | '\r' :: rest => '\n' :: lineFeeds rest
  | c :: rest => c :: lineFeeds rest

/-- What is written for a run of blanks, given in reverse: one space if it holds a line feed, and
the run itself otherwise. -/
def joinedRun (run : List Char) : List Char := if run.contains '\n' then [' '] else run.reverse

/-- Joins the lines of a text that follows a run of blanks, given in reverse. -/
def joinLinesFrom : (run : List Char) → List Char → List Char
  | run, [] => joinedRun run
  | run, c :: rest =>
    if isBlank c then joinLinesFrom (c :: run) rest
    else joinedRun run ++ c :: joinLinesFrom [] rest

/-- Writes every run of blanks that holds a line feed as one space. -/
def joinLines (s : List Char) : List Char := joinLinesFrom [] s

/-- A kind of token: how it opens, what it may hold and how it closes. -/
structure Enclosure where
  opening : List Char
  inner : Pattern
  closing : List Char

namespace Enclosure

/-- The pattern of the token; its only group is the text inside. -/
def pattern (e : Enclosure) : Pattern :=
  all [exactly e.opening, .group 1 e.inner, exactly e.closing]

/-- The token with the lines inside joined. -/
def joined (e : Enclosure) (token : Match) : List Char :=
  e.opening ++ joinLines ((token.group? 1).getD []) ++ e.closing

/-- Joins the lines inside every token. -/
def join (e : Enclosure) (s : List Char) : List Char := e.pattern.replaceAll e.joined s

end Enclosure

/-- The capital letters, the digits and the underscore. -/
def capitals : CharSet := ⟨[.range 65 90, .range 48 57, .range 95 95], false, .exact⟩

/-- The capital letters and the underscore. -/
def capitalStarts : CharSet := ⟨[.range 65 90, .range 95 95], false, .exact⟩

/-- Letters and digits in runs joined by single underscores. -/
def underscoreName : Pattern :=
  .seq (many1 .asciiAlnum) (.loop (.seq (.one (.single '_')) (many1 .asciiAlnum)) 0 none true)

/-- Anything but braces between double braces. -/
def doubleBrace : Enclosure :=
  ⟨['\x7b', '\x7b'], many (.noneOf ['\x7b', '\x7d']), ['\x7d', '\x7d']⟩

/-- Anything but angle brackets between the tags of a variable. -/
def variableTag : Enclosure :=
  ⟨"<variable>".toList, many (.noneOf ['<', '>']), "</variable>".toList⟩

/-- Capitals, digits, underscores and blanks between square brackets, not all of them digits or
blanks. -/
def capsBracket : Enclosure :=
  let filler := many (capitals.union (.kind .blank))
  ⟨['['], all [filler, .one capitalStarts, filler], [']']⟩

/-- A name that is broken once, between double underscores. -/
def brokenUnderscores : Enclosure :=
  ⟨['_', '_'],
    all [underscoreName, many (.oneOf [' ', '\t']), exactly ['\n'], blanks, underscoreName],
    ['_', '_']⟩

/-- The kinds of tokens, in the order in which their lines are joined. -/
def enclosures : List Enclosure := [doubleBrace, variableTag, capsBracket, brokenUnderscores]

/-- Writes line ends as line feeds and joins the lines inside tokens. -/
def normalize (s : List Char) : List Char :=
  enclosures.foldl (fun s e => e.join s) (lineFeeds s)

end Stencil.Placeholder
