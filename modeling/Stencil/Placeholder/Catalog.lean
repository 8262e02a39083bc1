import Stencil.Placeholder.Joining
import Stencil.Placeholder.Name
import Stencil.Pattern.Reader

/-!
Matchers that recognize placeholders, and catalogs of them.

A matcher is a named pattern whose first group is the name of the variable.  The matchers of a
catalog have distinct names, look at the whole text independently and report in catalog order.
-/

namespace Stencil.Placeholder

open Pattern

/-- A named pattern whose first group captures the name of a variable. -/
structure Matcher where
  name : String
  pattern : Pattern

/-- A placeholder as one matcher found it. -/
structure Candidate where
  name : List Char
  rawPattern : List Char
  matcher : String
  deriving DecidableEq

inductive CatalogFault
  /-- The pattern of a matcher cannot be read. -/
  | unreadable (matcher : String) (source : List Char) (fault : Fault)
  /-- The pattern of a matcher has no group. -/
  | noGroup (matcher : String)
  /-- Two matchers have one name; these are the names of all. -/
  | repeatedNames (names : List String)

def CatalogFault.message : CatalogFault → String
  | .unreadable matcher source fault =>
    "Invalid pattern for matcher '" ++ matcher ++ "': " ++ Fault.message source fault
  | .noGroup matcher => "Pattern for matcher '" ++ matcher ++ "' must capture the variable name"
  | .repeatedNames names => "Duplicate matcher names in catalog: " ++ Text.quotedList names

namespace Matcher

/-- The matcher with a pattern as it is written. -/
def parse (name : String) (source : List Char) : Except CatalogFault Matcher :=
  match Expression.parse ⟨false, false, false⟩ source with
  | .error fault => .error (.unreadable name source fault)
  | .ok e => if e.groups = 0 then .error (.noGroup name) else .ok ⟨name, e.pattern⟩

/-- The candidate that a match is, if it has a name. -/
def candidate? (m : Matcher) (found : Match) : Option Candidate :=
  let name := cleanName ((found.group? 1).getD [])
  if name.isEmpty then none else some ⟨name, found.text, m.name⟩

def find (m : Matcher) (s : List Char) : List Candidate :=
  (m.pattern.findAll s).filterMap m.candidate?

end Matcher

def doubleBraceMatcher : Matcher :=
  ⟨"double_brace",
    all [exactly ['\x7b', '\x7b'], blanks, .group 1 (few1 (.noneOf ['\x7b', '\x7d'])), blanks,
      exactly ['\x7d', '\x7d']]⟩

/-- The tags of a variable around a name. -/
def tagMatcher : Matcher :=
  ⟨"tag",
    all [exactly "<variable>".toList, blanks, .group 1 (few1 (.noneOf ['<', '>'])), blanks,
      exactly "</variable>".toList]⟩

/-- Square brackets around words in capitals that do not begin with a digit. -/
def capsBracketMatcher : Matcher :=
  ⟨"caps_bracket",
    all [exactly ['['], blanks,
      .group 1 (all [.one capitalStarts, many capitals,
        .loop (.seq (many1 (.single ' ')) (many1 capitals)) 0 none true]),
      blanks, exactly [']']]⟩

/-- Double underscores around letters and digits in runs joined by single underscores or spaces. -/
def doubleUnderscoreMatcher : Matcher :=
  ⟨"double_underscore",
    all [exactly ['_', '_'],
      .group 1 (.seq (many1 .asciiAlnum)
        (.loop (.either (.seq (.one (.single '_')) (many1 .asciiAlnum))
          (.seq (.one (.single ' ')) (many1 .asciiAlnum))) 0 none true)),
      exactly ['_', '_']]⟩

structure Catalog where
  matchers : List Matcher
  names_nodup : (matchers.map (·.name)).Nodup

namespace Catalog

/-- The four kinds of placeholders that are always known. -/
def standard : Catalog where
  matchers := [doubleBraceMatcher, tagMatcher, capsBracketMatcher, doubleUnderscoreMatcher]
  names_nodup := by decide

instance : Inhabited Catalog := ⟨standard⟩

def names (c : Catalog) : List String := c.matchers.map (·.name)

def ofMatchers (matchers : List Matcher) : Except CatalogFault Catalog :=
  if h : (matchers.map (·.name)).Nodup then .ok ⟨matchers, h⟩
  else .error (.repeatedNames (matchers.map (·.name)))

def withMatcher (c : Catalog) (m : Matcher) : Except CatalogFault Catalog :=
  ofMatchers (c.matchers ++ [m])

/-- All candidates: those of the first matcher, then those of the second, and so on. -/
def findAll (c : Catalog) (s : List Char) : List Candidate := c.matchers.flatMap (·.find s)

end Catalog

end Stencil.Placeholder
