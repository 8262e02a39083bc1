import Stencil.Text.CaseTable

/-!
Lower and upper case of any script.

`lower` and `upper` work on whole texts: some letters become several characters, and a capital sigma
becomes the final form at the end of a word.  `simpleLower` maps one character to one character;
`caseVariants` lists the characters that count as the same letter when case is ignored.
-/

namespace Stencil.Text

/-- The partner of a code point under the run that covers it. -/
def partnerIn (runs : List CaseRun) (n : Nat) : Nat :=
  match runs.find? (·.covers n) with
  | some r => r.partner n
  | none => n

/-- The lower case of a character as one character. -/
def simpleLower (c : Char) : Char :=
  if c.toNat < 128 then c.toLower
  else if c.toNat = 0x130 then 'i' else Char.ofNat (partnerIn lowerRuns c.toNat)

/-- Passed over when looking for the letter next to a sigma. -/
def isCaseIgnorable (c : Char) : Bool := inRanges caseIgnorableRanges c.toNat

/-- Is the nearest character that is not passed over a letter with case? -/
def nextToCased (s : List Char) : Bool :=
  match s.dropWhile isCaseIgnorable with
  | [] => false
  | c :: _ => inRanges casedRanges c.toNat

/-- The lower case of a text whose front, reversed, is `before`. A capital sigma takes its final
form after a letter with case and before none. -/
def lowerFrom (before : List Char) : List Char → List Char
  | [] => []
  | c :: rest =>
    (if c.toNat < 128 then [c.toLower]
     else if c.toNat = 0x3A3 then
       if nextToCased before && !nextToCased rest then [Char.ofNat 0x3C2] else [Char.ofNat 0x3C3]
     else if c.toNat = 0x130 then ['i', Char.ofNat 0x307]
     else [simpleLower c]) ++ lowerFrom (c :: before) rest

def lower (s : List Char) : List Char := lowerFrom [] s

/-- The upper case of one character, which may be several. -/
def upperChar (c : Char) : List Char :=
  if c.toNat < 128 then [c.toUpper]
  else
    match upperExpansions.lookup c.toNat with
    | some cs => cs.map Char.ofNat
    | none => [Char.ofNat (partnerIn upperRuns c.toNat)]

def upper (s : List Char) : List Char := s.flatMap upperChar

/-- The characters whose `simpleLower` is `c`, apart from `c` itself. -/
def capitalsOf (c : Char) : List Char :=
  (if c.toNat < 128 && c.toUpper != c then [c.toUpper] else []) ++
    (if c == 'i' then [Char.ofNat 0x130] else []) ++
    lowerRuns.filterMap fun r =>
      let n := r.first + (c.toNat - r.image)
      if r.image ≤ c.toNat && r.covers n then some (Char.ofNat n) else none

/-- The characters that are the same letter as `c` when case is ignored: those with its lower case
or with a lower case that shares a capital with it. -/
def caseVariants (c : Char) : List Char :=
  let l := simpleLower c
  let siblings := ((caseSiblings.lookup l.toNat).getD []).map Char.ofNat
  (l :: siblings).flatMap fun x => x :: capitalsOf x

end Stencil.Text
