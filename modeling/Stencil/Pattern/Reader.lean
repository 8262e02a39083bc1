import Stencil.Decimal.Reader
import Stencil.Pattern.Draft
import Stencil.Pattern.Token

/-!
Reading written patterns.

`Expression.parse` reads the usual notation: `.`, `^`, `$`, sets in square brackets, escapes, the
repetitions `*`, `+`, `?`, `{m,n}` with their lazy and possessive forms, alternatives, groups
(numbered, named, plain and atomic), back-references, conditions on groups, looks ahead and behind,
comments, and flags for the whole pattern or for a group.  No character is known by its name.  The
pattern is read from left to right into a `Draft`, and the first fault is reported with its place.
-/

namespace Stencil.Pattern

/-- Reading steps end with what is left, or with a fault. -/
abbrev Reading := Except Fault

/-- A fault `back` characters before the given rest. -/
def faultAt {α : Type} (cause : FaultCause) (rest : List Token) (back : Nat := 0) : Reading α :=
  .error ⟨cause, some (sizeOfTokens rest + back)⟩

/-- Drops a token. The pattern may not end in a backslash right after it. -/
def advance : List Token → Reading (List Token)
  | [_, .loneEscape] => .error ⟨.endsInEscape, some 1⟩
  | _ :: rest => .ok rest
  | [] => .ok []

/-- Drops a token if it is to be dropped. -/
def advanceIf (asked : Bool) (ts : List Token) : Reading (List Token) :=
  if asked then advance ts else .ok ts

def takeToken (ts : List Token) : Reading (Option Token × List Token) := do
  return (ts.head?, ← advance ts)

/-- Takes up to `n` characters that satisfy `p`. -/
def takeChars (p : Char → Bool) : (n : Nat) → List Token → Reading (List Char × List Token)
  | 0, ts => .ok ([], ts)
  | n + 1, ts =>
    match ts with
    | .plain c :: _ =>
      if p c then do
        let rest ← advance ts
        let (cs, rest) ← takeChars p n rest
        return (c :: cs, rest)
      else .ok ([], ts)
    | _ => .ok ([], ts)

/-- Drops everything up to the token `last`, and this one too, if there is one. -/
def dropPast? (last : Token) : List Token → Reading (Option (List Token))
  | [] => .ok none
  | t :: rest => do
    let _ ← advance (t :: rest)
    if t = last then return some rest else dropPast? last rest

/-- The characters up to `closing`, which is dropped; `what` says what they are to be, and `done`
holds those before, in reverse. -/
def takeUntil (closing : Char) (what : String) :
    (done : List Char) → List Token → Reading (List Char × List Token)
  | done, [] =>
    if done.isEmpty then faultAt (.missing what) []
    else faultAt (.missing (String.singleton closing ++ ", unterminated name")) [] done.length
  | done, t :: rest => do
    let _ ← advance (t :: rest)
    if t = .plain closing then
      if done.isEmpty then faultAt (.missing what) rest 1 else return (done.reverse, rest)
    else takeUntil closing what (t.chars.reverse ++ done) rest

/-! ## Escapes -/

inductive EscapeMeaning
  | code (n : Nat)
  | kind (k : CharKind)
  | otherThan (k : CharKind)
  | textStart
  | textEnd
  | wordEdge
  | noWordEdge
  | group (index : Nat) (widths : Widths)

def isOctal (c : Char) : Bool := '0' ≤ c && c ≤ '7'

def isHex (c : Char) : Bool := c.isDigit || ('a' ≤ c && c ≤ 'f') || ('A' ≤ c && c ≤ 'F')

def digitsIn (base : Nat) (ds : List Char) : Nat :=
  ds.foldl (fun n d =>
    n * base + if d.isDigit then d.toNat - 48 else (d.toLower.toNat - 87)) 0

/-- The character or kind that a letter after a backslash stands for everywhere. -/
def sharedEscape? : Char → Option EscapeMeaning
  | 'a' => some (.code 7)
  | 'f' => some (.code 12)
  | 'n' => some (.code 10)
  | 'r' => some (.code 13)
  | 't' => some (.code 9)
  | 'v' => some (.code 11)
  | 'd' => some (.kind .digit)
  | 'D' => some (.otherThan .digit)
  | 's' => some (.kind .blank)
  | 'S' => some (.otherThan .blank)
  | 'w' => some (.kind .word)
  | 'W' => some (.otherThan .word)
  | _ => none

/-- The place that a letter after a backslash stands for outside sets. -/
def anchorEscape? : Char → Option EscapeMeaning
  | 'A' => some .textStart
  | 'Z' => some .textEnd
  | 'b' => some .wordEdge
  | 'B' => some .noWordEdge
  | _ => none

/-- A fault in an escape whose last character stands right before the rest. -/
def escapeFault {α : Type} (cause : String → FaultCause) (escape : List Char)
    (rest : List Token) : Reading α :=
  faultAt (cause (String.ofList escape)) rest escape.length

/-- An escape of exactly `n` hexadecimal digits after the letter `c`. -/
def hexEscape (c : Char) (n : Nat) (rest : List Token) : Reading (EscapeMeaning × List Token) := do
  let (ds, rest) ← takeChars isHex n rest
  if ds.length ≠ n then escapeFault .incompleteEscape ('\\' :: c :: ds) rest
  else if digitsIn 16 ds > 0x10FFFF then escapeFault .badEscape ('\\' :: c :: ds) rest
  else return (.code (digitsIn 16 ds), rest)

/-- A character by its name in braces; none is known. -/
def namedEscape (rest : List Token) : Reading (EscapeMeaning × List Token) :=
  if rest.head? = some (.plain '\x7b') then do
    let (name, rest) ← takeUntil '\x7d' "character name" [] (← advance rest)
    faultAt (.unknownCharacter (String.ofList name)) rest (name.length + 4)
  else faultAt (.missing "\x7b") rest

/-- An escape that is no number: a letter without a meaning is a fault, anything else is itself. -/
def plainEscape (c : Char) (rest : List Token) : Reading (EscapeMeaning × List Token) :=
  match c with
  | 'x' => hexEscape c 2 rest
  | 'u' => hexEscape c 4 rest
  | 'U' => hexEscape c 8 rest
  | 'N' => namedEscape rest
  | _ =>
    if c.isAlphanum then escapeFault .badEscape ['\\', c] rest
    else .ok (.code c.toNat, rest)

/-- An octal number: the digit `c` and up to two more. -/
def octalEscape (c : Char) (rest : List Token) : Reading (EscapeMeaning × List Token) := do
  let (ds, rest) ← takeChars isOctal 2 rest
  let n := digitsIn 8 (c :: ds)
  if n > 0o377 then escapeFault .octalOutOfRange ('\\' :: c :: ds) rest
  else return (.code n, rest)

/-- The meaning of a backslash and `c` inside a set. -/
def setEscape (c : Char) (rest : List Token) : Reading (EscapeMeaning × List Token) :=
  match sharedEscape? c with
  | some m => .ok (m, rest)
  | none =>
    if c = 'b' then .ok (.code 8, rest)
    else if isOctal c then octalEscape c rest
    else plainEscape c rest

/-- In a look behind, only groups that are closed before it may be referred to. -/
def checkBehind (d : Draft) (index : Nat) (rest : List Token) : Reading Unit :=
  match d.groupsBefore with
  | none => .ok ()
  | some n =>
    if (d.closed.lookup index).isNone then faultAt .openGroupReference rest
    else if n < index then faultAt .referenceInsideBehind rest
    else .ok ()

/-- A reference to a group that is complete, `back` characters before the rest. -/
def groupReference (d : Draft) (index back : Nat) (rest : List Token) :
    Reading (EscapeMeaning × List Token) :=
  if d.groups < index then faultAt (.badGroupReference index) rest (back - 1)
  else
    match d.closed.lookup index with
    | none => faultAt .openGroupReference rest back
    | some widths => do
      checkBehind d index rest
      return (.group index widths, rest)

/-- A backslash and the digit `c`, which is not zero: three octal digits are a character, anything
else refers to a group by one or two digits. -/
def numberEscape (d : Draft) (c : Char) (rest : List Token) :
    Reading (EscapeMeaning × List Token) := do
  let (second, rest) ← takeChars Char.isDigit 1 rest
  let third := match rest with
    | .plain x :: _ => isOctal x
    | _ => false
  if isOctal c && second.all isOctal && !second.isEmpty && third then
    let (last, rest) ← takeChars isOctal 1 rest
    let ds := c :: second ++ last
    let n := digitsIn 8 ds
    if n > 0o377 then escapeFault .octalOutOfRange ('\\' :: ds) rest
    else return (.code n, rest)
  else groupReference d (digitsIn 10 (c :: second)) (second.length + 2) rest

/-- The meaning of a backslash and `c` outside sets. -/
def outerEscape (d : Draft) (c : Char) (rest : List Token) : Reading (EscapeMeaning × List Token) :=
  match (anchorEscape? c).or (sharedEscape? c) with
  | some m => .ok (m, rest)
  | none =>
    if c = '0' then octalEscape c rest
    else if c.isDigit then numberEscape d c rest
    else plainEscape c rest

/-- Adds what an escape outside sets stands for. -/
def Draft.pushEscape (d : Draft) : EscapeMeaning → Draft
  | .code n => d.pushCode n
  | .kind k => d.pushOne (.kind (d.kind k))
  | .otherThan k => d.pushOne (.otherThan (d.kind k))
  | .textStart => d.pushAnchor .textStart
  | .textEnd => d.pushAnchor .textEnd
  | .wordEdge => d.pushAnchor (.wordEdge (d.kind .word))
  | .noWordEdge => d.pushAnchor (.noWordEdge (d.kind .word))
  | .group index widths => d.push ⟨.again index d.casing, widths, none⟩

/-! ## Sets -/

/-- The part of a set that an escape inside it stands for. -/
def EscapeMeaning.item : EscapeMeaning → CharItem
  | .code n => .range n n
  | .kind k => .kind k
  | .otherThan k => .otherThan k
  | _ => .range 0 0

def setMember (t : Token) (rest : List Token) : Reading (EscapeMeaning × List Token) :=
  match t with
  | .escaped c => setEscape c rest
  | .plain c => .ok (.code c.toNat, rest)
  | .loneEscape => .ok (.code 92, rest)

/-- The parts of a set up to its closing bracket, latest first; `opening` is the distance from the
opening bracket to the end. -/
def setItems (opening : Nat) :
    (fuel : Nat) → List CharItem → List Token → Reading (List CharItem × List Token)
  | 0, _, _ => .error ⟨.unterminatedSet, some opening⟩
  | fuel + 1, done, ts => do
    let (this, rest) ← takeToken ts
    match this with
    | none => .error ⟨.unterminatedSet, some opening⟩
    | some this =>
      if this = .plain ']' && !done.isEmpty then return (done, rest)
      else
        let (low, rest) ← setMember this rest
        if rest.head? = some (.plain '-') then
          let (that, rest) ← takeToken (← advance rest)
          match that with
          | none => .error ⟨.unterminatedSet, some opening⟩
          | some that =>
            if that = .plain ']' then return (.range 45 45 :: low.item :: done, rest)
            else
              let (high, rest) ← setMember that rest
              let bad : Reading (List CharItem × List Token) :=
                faultAt (.badRange (String.ofList this.chars) (String.ofList that.chars)) rest
                  (this.chars.length + 1 + that.chars.length)
              match low, high with
              | .code l, .code h =>
                if h < l then bad else setItems opening fuel (.range l h :: done) rest
              | _, _ => bad
        else setItems opening fuel (low.item :: done) rest

/-- A set, read after its opening bracket. -/
def readSet (d : Draft) (opening : Nat) (ts : List Token) : Reading (Draft × List Token) := do
  let negated := ts.head? = some (.plain '^')
  let rest ← advanceIf negated ts
  let (items, rest) ← setItems opening (rest.length + 1) [] rest
  let items := if d.mode.ascii then items.map (·.inAscii) else items
  return (d.pushOne ⟨items.reverse, negated, d.casing⟩, rest)

/-! ## Repetitions -/

/-- The largest number of repetitions that can be asked for, plus one. -/
def repetitionLimit : Nat := 4294967295

/-- The token behind a repetition that makes it another one. -/
def Greed.ofToken? : Option Token → Option Greed
  | some (.plain '?') => some .lazy
  | some (.plain '+') => some .possessive
  | _ => none

/-- Repeats the last item. `back` is the distance from the quantifier to the end. -/
def repeatLast (d : Draft) (least : Nat) (most : Option Nat) (back : Nat) (ts : List Token) :
    Reading (Draft × List Token) := do
  match d.items with
  | [] => .error ⟨.nothingToRepeat, some back⟩
  | ⟨p, shape⟩ :: before =>
    match shape with
    | .anchor => .error ⟨.nothingToRepeat, some back⟩
    | .repetition => .error ⟨.repeatedTwice, some back⟩
    | .simple =>
      let greed := Greed.ofToken? ts.head?
      let rest ← advanceIf greed.isSome ts
      let whole := p.looped least most (greed.getD .greedy) d.isTemplate
      return ({ d with items := before }.push whole .repetition, rest)

/-- The number that digits write, if there are any. -/
def bound? (ds : List Char) : Option Nat :=
  if ds.isEmpty then none else some (digitsIn 10 ds)

/-- The bounds of a repetition, read after the opening brace: least and most, and what is left after
the closing brace. There is none if the brace stands for itself. -/
def readBounds (ts : List Token) : Reading (Option (Option Nat × Option Nat × List Token)) := do
  if ts.head? = some (.plain '\x7d') then return none
  let (low, rest) ← takeChars Char.isDigit ts.length ts
  let comma := rest.head? = some (.plain ',')
  let (high, rest) ←
    if comma then takeChars Char.isDigit rest.length (← advance rest) else pure (low, rest)
  if rest.head? = some (.plain '\x7d') then
    return some (bound? low, bound? high, ← advance rest)
  else return none

/-- A brace, read after it: the bounds of a repetition of the last item, or the character itself. -/
def readBrace (d : Draft) (back : Nat) (ts : List Token) : Reading (Draft × List Token) := do
  match ← readBounds ts with
  | none => return (d.pushChar '\x7b', ts)
  | some (low, high, rest) =>
    if repetitionLimit ≤ low.getD 0 || repetitionLimit ≤ high.getD 0 then
      .error ⟨.tooManyRepetitions, none⟩
    else if high.any (· < low.getD 0) then faultAt .leastAboveMost ts
    else repeatLast d (low.getD 0) high back rest

/-! ## Flags in a pattern -/

def flagLetters : List Char := ['i', 'L', 'm', 's', 'x', 'a', 't', 'u']

/-- The letters that say what a letter, a digit and a blank is. -/
def typeLetters : List Char := ['L', 'a', 'u']

/-- A token that should be a flag or the end of flags is neither; `what` says what is missing. -/
def noFlag {α : Type} (what : String) (t : Token) (rest : List Token) : Reading α :=
  match t with
  | .plain c => faultAt (if Text.isLetter c then .unknownFlag else .missing what) rest 1
  | _ => faultAt (.missing what) rest t.chars.length

/-- The flags that are turned on, from the letter `c` on, and the character that ends them. -/
def readOn (done : List Char) (c : Char) (ts : List Token) :
    Reading (List Char × Char × List Token) :=
  if c = 'L' then faultAt .localeFlag ts
  else if typeLetters.contains c && done.any (fun x => typeLetters.contains x && x != c) then
    faultAt .mixedTypeFlags ts
  else
    match ts with
    | [] => faultAt (.missing "-, : or )") []
    | t :: rest => do
      let _ ← advance (t :: rest)
      match t with
      | .plain x =>
        if x = ')' || x = '-' || x = ':' then return (c :: done, x, rest)
        else if flagLetters.contains x then readOn (c :: done) x rest
        else noFlag "-, : or )" t rest
      | _ => noFlag "-, : or )" t rest

/-- The flags that are turned off, from the letter `c` on. -/
def readOff (done : List Char) (c : Char) (ts : List Token) : Reading (List Char × List Token) :=
  if typeLetters.contains c then faultAt .typeFlagOff ts
  else
    match ts with
    | [] => faultAt (.missing ":") []
    | t :: rest => do
      let _ ← advance (t :: rest)
      match t with
      | .plain x =>
        if x = ':' then return (c :: done, rest)
        else if flagLetters.contains x then readOff (c :: done) x rest
        else noFlag ":" t rest
      | _ => noFlag ":" t rest

/-- The flags that are turned on, read after their first character, and the character behind. -/
def readPlus (c : Char) (ts : List Token) : Reading (List Char × Char × List Token) :=
  if c = '-' then .ok ([], c, ts) else readOn [] c ts

/-- The flags that are turned off, if the character `sign` says so; then there is at least one. -/
def readMinus (sign : Char) (ts : List Token) : Reading (List Char × List Token) :=
  if sign = '-' then do
    let (t, rest) ← takeToken ts
    match t with
    | none => faultAt (.missing "flag") rest
    | some (.plain c) =>
      if flagLetters.contains c then readOff [] c rest else noFlag "flag" (.plain c) rest
    | some t => noFlag "flag" t rest
  else .ok ([], ts)

/-- Turns flags on for the whole pattern, which has to begin with them. -/
def setGlobals (d : Draft) (start : Nat) (on : List Char) (rest : List Token) :
    Reading (Draft × List Token) :=
  if d.atStart then
    .ok ({ d with
      flags := d.flags.switch on []
      mode := d.mode.switch on []
      globals := on ++ d.globals }, rest)
  else .error ⟨.flagsNotAtStart, some start⟩

/-- Flags for the whole pattern or for a group, read after their first character. -/
def openFlags (d : Draft) (start : Nat) (c : Char) (ts : List Token) :
    Reading (Draft × List Token) := do
  let (on, ending, rest) ← readPlus c ts
  if ending = ')' then setGlobals d start on rest
  else if on.contains 't' then faultAt .globalFlagOn rest 1
  else
    let (off, rest) ← readMinus ending rest
    if off.contains 't' then faultAt .globalFlagOff rest 1
    else if on.any off.contains then faultAt .flagOnAndOff rest 1
    else return (d.openGroup .plain start (d.flags.switch on off) (d.mode.switch on off), rest)

/-! ## Groups -/

/-- The name of a group up to the character `closing`. -/
def readName (closing : Char) (ts : List Token) : Reading (List Char × List Token) := do
  let (name, rest) ← takeUntil closing "group name" [] ts
  if Text.isName name then return (name, rest)
  else faultAt (.badGroupName (String.ofList name)) rest (name.length + 1)

/-- A named group, read after its angle bracket. -/
def openNamed (d : Draft) (start : Nat) (ts : List Token) : Reading (Draft × List Token) := do
  let (name, rest) ← readName '>' ts
  let text := String.ofList name
  let named := d.nameGroup text
  match d.names.lookup text with
  | some earlier => faultAt (.groupNameTaken text named.groups earlier) rest (name.length + 1)
  | none => return (named.openGroup (.capture named.groups) start, rest)

/-- The group of a name that stands right before the rest and the character that ends it. -/
def groupNamed (d : Draft) (name : List Char) (rest : List Token) : Reading Nat :=
  match d.names.lookup (String.ofList name) with
  | none => faultAt (.unknownGroupName (String.ofList name)) rest (name.length + 1)
  | some index => .ok index

/-- A reference to a group by its name, read after the equals sign. -/
def readNameReference (d : Draft) (ts : List Token) : Reading (Draft × List Token) := do
  let (name, rest) ← readName ')' ts
  let index ← groupNamed d name rest
  let (m, rest) ← groupReference d index (name.length + 1) rest
  return (d.pushEscape m, rest)

/-- The largest number of groups, plus one. -/
def groupLimit : Nat := 1073741823

/-- The group that a condition asks for by number; there may be no such group yet. -/
def groupNumbered (name : List Char) (rest : List Token) : Reading Nat :=
  match Decimal.readNat? name with
  | none => faultAt (.badGroupName (String.ofList name)) rest (name.length + 1)
  | some index =>
    if index = 0 then faultAt .badGroupNumber rest (name.length + 1)
    else if groupLimit ≤ index then faultAt (.badGroupReference index) rest (name.length + 1)
    else .ok index

/-- A condition on a group, read after its parenthesis. -/
def openGiven (d : Draft) (start : Nat) (ts : List Token) : Reading (Draft × List Token) := do
  let (name, rest) ← takeUntil ')' "group name" [] ts
  if Text.isName name then
    let index ← groupNamed d name rest
    checkBehind d index rest
    return (d.openGroup (.given index) start, rest)
  else
    let index ← groupNumbered name rest
    checkBehind d index rest
    let asked := d.ask index (sizeOfTokens rest + name.length + 1)
    return (asked.openGroup (.given index) start, rest)

def unknownExtension {α : Type} (opening : String) (t : Token) (rest : List Token) : Reading α :=
  faultAt (.unknownExtension (opening ++ String.ofList t.chars)) rest
    (t.chars.length + opening.length)

/-- A look behind, read after its angle bracket. -/
def openBehind (d : Draft) (start : Nat) (ts : List Token) : Reading (Draft × List Token) := do
  let (t, rest) ← takeToken ts
  match t with
  | none => faultAt .endInGroup rest
  | some (.plain '=') => return (d.openGroup (.behind false) start, rest)
  | some (.plain '!') => return (d.openGroup (.behind true) start, rest)
  | some t => unknownExtension "?<" t rest

/-- A named group or a reference to one, read after the letter for both. -/
def openLettered (d : Draft) (start : Nat) (ts : List Token) : Reading (Draft × List Token) := do
  let (t, rest) ← takeToken ts
  match t with
  | none => faultAt .endInGroup rest
  | some (.plain '<') => openNamed d start rest
  | some (.plain '=') => readNameReference d rest
  | some t => unknownExtension "?P" t rest

/-- An opening parenthesis and a question mark have been read; `start` is the distance from the
parenthesis to the end. -/
def openExtended (d : Draft) (start : Nat) (ts : List Token) : Reading (Draft × List Token) := do
  let (t, rest) ← takeToken ts
  match t with
  | none => faultAt .endInGroup rest
  | some (.plain ':') => return (d.openGroup .plain start, rest)
  | some (.plain '>') => return (d.openGroup .atomic start, rest)
  | some (.plain '=') => return (d.openGroup (.ahead false) start, rest)
  | some (.plain '!') => return (d.openGroup (.ahead true) start, rest)
  | some (.plain '<') => openBehind d start rest
  | some (.plain 'P') => openLettered d start rest
  | some (.plain '(') => openGiven d start rest
  | some (.plain '#') =>
    match ← dropPast? (.plain ')') rest with
    | none => .error ⟨.missing "), unterminated comment", some start⟩
    | some rest => return (d, rest)
  | some (.plain c) =>
    if flagLetters.contains c || c = '-' then openFlags d start c rest
    else unknownExtension "?" (.plain c) rest
  | some t => unknownExtension "?" t rest

/-- Reads after an opening parenthesis. -/
def readGroup (d : Draft) (start : Nat) (ts : List Token) : Reading (Draft × List Token) := do
  if ts.head? = some (.plain '?') then openExtended d start (← advance ts)
  else return (d.nextGroup.openGroup (.capture (d.groups + 1)) start, ts)

/-! ## Patterns -/

/-- Reads the item that the token `t` begins; `back` is the distance from it to the end. -/
def readItem (d : Draft) (back : Nat) (t : Token) (rest : List Token) :
    Reading (Draft × List Token) :=
  match t with
  | .plain '(' => readGroup d back rest
  | .plain '[' => readSet d back rest
  | .plain '.' => .ok (d.pushOne (if d.flags.dotAll then .any else .noneOf ['\n']), rest)
  | .plain '^' => .ok (d.pushAnchor (if d.flags.multiLine then .lineStart else .textStart), rest)
  | .plain '$' => .ok (d.pushAnchor (if d.flags.multiLine then .lineEnd else .lastLineEnd), rest)
  | .plain '*' => repeatLast d 0 none back rest
  | .plain '+' => repeatLast d 1 none back rest
  | .plain '?' => repeatLast d 0 (some 1) back rest
  | .plain '\x7b' => readBrace d back rest
  | .plain c => .ok (d.pushChar c, rest)
  | .escaped c => do
    let (m, rest) ← outerEscape d c rest
    return (d.pushEscape m, rest)
  | .loneEscape => .error ⟨.endsInEscape, some 1⟩

def readClosing (d : Draft) (ts : List Token) : Reading (Draft × List Token) :=
  match d.opened with
  | [] =>
    if d.mixesTypes then .error ⟨.mixedTypes, none⟩ else faultAt .unbalancedParenthesis ts
  | g :: outer => do return (d.closeGroup g outer, ← advance ts)

def Token.isBlank : Token → Bool
  | .plain c => CharKind.asciiBlank.has c
  | _ => false

/-- Reads what the token `t` begins: the end of a group or of a branch, an item, or what is passed
over between items. -/
def step (d : Draft) (t : Token) (ts : List Token) : Reading (Draft × List Token) :=
  if t = .plain ')' then readClosing d (t :: ts)
  else if t = .plain '|' && d.hasBothBranches then faultAt .tooManyBranches (t :: ts)
  else do
    let rest ← advance (t :: ts)
    if t = .plain '|' then return (d.nextBranch, rest)
    else if d.mode.verbose && t.isBlank then return (d, rest)
    else if d.mode.verbose && t = .plain '#' then
      return (d, ((← dropPast? (.plain '\n') rest)).getD [])
    else readItem d (sizeOfTokens (t :: ts)) t rest

/-- Reads items as long as there are tokens; each step of `fuel` takes at least one. -/
def readItems : (fuel : Nat) → Draft → List Token → Reading Draft
  | _, d, [] => .ok d
  | 0, d, _ => .ok d
  | fuel + 1, d, t :: ts => do
    let (d, rest) ← step d t ts
    readItems fuel d rest

/-- A pattern, how many groups it has and the flags under which it was read. -/
structure Expression where
  pattern : Pattern
  groups : Nat
  flags : Flags
  deriving DecidableEq

/-- What a draft is at the end of the text. Every group has to be closed, every group that is asked
for has to be there, and no part may be unfit. -/
def Draft.finish (d : Draft) : Reading Expression :=
  match d.opened with
  | g :: _ => .error ⟨.missing "), unterminated subpattern", some g.toEnd⟩
  | [] =>
    if d.mixesTypes then .error ⟨.mixedTypes, none⟩
    else
      match d.asked.reverse.find? fun a => d.groups < a.1 with
      | some (index, toEnd) => .error ⟨.badGroupReference index, some toEnd⟩
      | none =>
        let whole := Part.firstOf d.allBranches
        match whole.unfit with
        | some cause => .error ⟨cause, none⟩
        | none => .ok ⟨whole.pattern, d.groups, d.flags⟩

/-- The pattern that a text writes. -/
def Expression.parse (flags : Flags) (source : List Char) : Except Fault Expression := do
  let ts := tokens source
  if ts = [.loneEscape] then .error ⟨.endsInEscape, some 1⟩
  let d ← readItems ts.length { flags := flags } ts
  d.finish

end Stencil.Pattern
