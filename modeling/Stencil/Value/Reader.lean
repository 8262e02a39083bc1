import Stencil.Value.Basic
import Stencil.Table
import Stencil.Decimal.Reader

/-!
Reading JSON text.

`Value.parse` reads one value and refuses anything after it.  A fault is reported with its cause and
the position of the character where reading stopped; `SyntaxFault.message` says both in words.  A
name that an object repeats keeps its first place and its last value.
-/

namespace Stencil

/-- Why a text is not JSON. -/
inductive SyntaxCause
  | expectingValue
  | expectingName
  | expectingColon
  | expectingComma
  | unterminatedString
  | controlCharacter
  | badEscape
  | badUnicodeEscape
  | extraData
  | byteOrderMark

/-- A fault in a text and the number of characters in front of it. -/
structure SyntaxFault where
  cause : SyntaxCause
  position : Nat

/-- The fault in words, without its place. -/
def SyntaxCause.message : SyntaxCause → String
  | .expectingValue => "Expecting value"
  | .expectingName => "Expecting property name enclosed in double quotes"
  | .expectingColon => "Expecting ':' delimiter"
  | .expectingComma => "Expecting ',' delimiter"
  | .unterminatedString => "Unterminated string starting at"
  | .controlCharacter => "Invalid control character at"
  | .badEscape => "Invalid \\escape"
  | .badUnicodeEscape => "Invalid \\uXXXX escape"
  | .extraData => "Extra data"
  | .byteOrderMark => "Unexpected UTF-8 BOM (decode using utf-8-sig)"

/-- The line of a position, and its column in that line, both counted from one. -/
def lineAndColumn (source : List Char) (position : Nat) : Nat × Nat :=
  let before := source.take position
  (before.count '\n' + 1, (before.reverse.takeWhile (· != '\n')).length + 1)

/-- The fault in words, with its place in the text `source`. -/
def SyntaxFault.message (source : List Char) (fault : SyntaxFault) : String :=
  let (line, column) := lineAndColumn source fault.position
  s!"{fault.cause.message}: line {line} column {column} (char {fault.position})"

namespace Value

/-- What is left to read and how much has been read. -/
structure Spot where
  position : Nat
  rest : List Char

/-- What a reading step gives: its result, or the fault that stopped it. -/
abbrev Reading := Except SyntaxFault

def failAt {α : Type} (cause : SyntaxCause) (position : Nat) : Reading α :=
  .error ⟨cause, position⟩

def isJsonBlank (c : Char) : Bool := c == ' ' || c == '\t' || c == '\n' || c == '\r'

/-- Skips `n` characters. -/
def Spot.skip (s : Spot) (n : Nat) : Spot := ⟨s.position + n, s.rest.drop n⟩

def Spot.skipBlanks (s : Spot) : Spot := s.skip (s.rest.takeWhile isJsonBlank).length

/-- The value of a hexadecimal digit. -/
def hexValue? (c : Char) : Option Nat :=
  if c.isDigit then some (c.toNat - 48)
  else if 'a' ≤ c && c ≤ 'f' then some (c.toNat - 87)
  else if 'A' ≤ c && c ≤ 'F' then some (c.toNat - 55)
  else none

/-- The number that four hexadecimal digits write. -/
def hexQuad? : List Char → Option Nat
  | [a, b, c, d] => do
    return ((← hexValue? a) * 16 + (← hexValue? b)) * 256 + ((← hexValue? c) * 16 + (← hexValue? d))
  | _ => none

/-- The character that a backslash and `c` stand for. -/
def simpleEscape? (c : Char) : Option Char :=
  match c with
  | '"' => some '"'
  | '\\' => some '\\'
  | '/' => some '/'
  | 'b' => some (Char.ofNat 8)
  | 'f' => some (Char.ofNat 12)
  | 'n' => some '\n'
  | 'r' => some '\r'
  | 't' => some '\t'
  | _ => none

/-- A unit alone is its character; half of a pair alone stands for no character and is replaced. -/
def unitChar (n : Nat) : Char :=
  if 0xD800 ≤ n && n < 0xE000 then Char.ofNat 0xFFFD else Char.ofNat n

/-- Reads what follows `\u`: one unit, or two that make a pair. `rest` begins at the digits, which
stand at `position`; at least one character has to follow them. -/
def readUnit (position : Nat) (rest : List Char) : Reading (Char × Spot) :=
  match hexQuad? (rest.take 4), rest.drop 4 with
  | some high, after@(_ :: _) =>
    if 0xD800 ≤ high && high < 0xDC00 && after.take 2 == ['\\', 'u'] && 6 < after.length then
      match hexQuad? ((after.drop 2).take 4) with
      | none => failAt .badUnicodeEscape (position + 5)
      | some low =>
        if 0xDC00 ≤ low && low < 0xE000 then
          .ok (Char.ofNat (0x10000 + (high - 0xD800) * 0x400 + (low - 0xDC00)),
            ⟨position + 10, after.drop 6⟩)
        else .ok (unitChar high, ⟨position + 4, after⟩)
    else .ok (unitChar high, ⟨position + 4, after⟩)
  | _, _ => failAt .badUnicodeEscape (position - 1)

/-- Reads the rest of a string whose quote stands at `start`; `done` holds the characters so far in
reverse. Each step of `fuel` reads one character or escape. -/
def readString (start : Nat) : (fuel : Nat) → (done : List Char) → Spot → Reading (String × Spot)
  | 0, _, _ => failAt .unterminatedString start
  | fuel + 1, done, ⟨position, rest⟩ =>
    match rest with
    | [] => failAt .unterminatedString start
    | '"' :: after => .ok (String.ofList done.reverse, ⟨position + 1, after⟩)
    | ['\\'] => failAt .unterminatedString start
    | '\\' :: 'u' :: after => do
      let (c, spot) ← readUnit (position + 2) after
      readString start fuel (c :: done) spot
    | '\\' :: c :: after =>
      match simpleEscape? c with
      | some e => readString start fuel (e :: done) ⟨position + 2, after⟩
      | none => failAt .badEscape position
    | c :: after =>
      if c.toNat < 32 then failAt .controlCharacter position
      else readString start fuel (c :: done) ⟨position + 1, after⟩

def digitsOf (s : List Char) : List Char := s.takeWhile Char.isDigit

/-- The exponent in front of a text, with its letter, if it has a digit. -/
def exponentOf : List Char → List Char
  | e :: rest =>
    if e == 'e' || e == 'E' then
      let (sign, ds) := match rest with
        | '-' :: r => (['-'], digitsOf r)
        | '+' :: r => (['+'], digitsOf r)
        | r => ([], digitsOf r)
      if ds.isEmpty then [] else e :: sign ++ ds
    else []
  | [] => []

/-- The fraction in front of a text, with its point, if it has a digit. -/
def fractionOf : List Char → List Char
  | '.' :: rest => let ds := digitsOf rest; if ds.isEmpty then [] else '.' :: ds
  | _ => []

/-- Reads a number: a whole one, or a floating-point one if it has a fraction or an exponent. -/
def readNumber (spot : Spot) : Reading (Value × Spot) :=
  let (negative, unsigned) := match spot.rest with
    | '-' :: r => (true, r)
    | r => (false, r)
  let whole := match unsigned with
    | '0' :: _ => ['0']
    | r => digitsOf r
  if whole.isEmpty then failAt .expectingValue spot.position
  else
    let fraction := fractionOf (unsigned.drop whole.length)
    let exponent := exponentOf (unsigned.drop (whole.length + fraction.length))
    let used := whole.length + fraction.length + exponent.length
    let next := spot.skip (used + if negative then 1 else 0)
    if fraction.isEmpty && exponent.isEmpty then
      let n : Int := Decimal.digitsValue whole
      .ok (.int (if negative then -n else n), next)
    else
      let e := (Decimal.readExponent? exponent).getD 0 - (fraction.length - 1 : Nat)
      let x := Decimal.nearest (Decimal.digitsValue (whole ++ fraction.drop 1)) e
      .ok (.float (if negative then -x else x), next)

def words : List (List Char × Value) :=
  [("null".toList, .null), ("true".toList, .bool true), ("false".toList, .bool false),
   ("NaN".toList, .float (Float.ofBits 0x7FF8000000000000)),
   ("Infinity".toList, .float (Float.ofBits 0x7FF0000000000000)),
   ("-Infinity".toList, .float (Float.ofBits 0xFFF0000000000000))]

def readAtom (spot : Spot) : Reading (Value × Spot) :=
  match words.find? fun w => w.1.isPrefixOf spot.rest with
  | some (w, v) => .ok (v, spot.skip w.length)
  | none => readNumber spot

mutual

/-- Reads a value. Each step of `fuel` reads at least one character. -/
def readValue : (fuel : Nat) → Spot → Reading (Value × Spot)
  | 0, spot => failAt .expectingValue spot.position
  | fuel + 1, spot =>
    match spot.rest with
    | '"' :: after => do
      let (s, next) ← readString spot.position (after.length + 1) [] ⟨spot.position + 1, after⟩
      return (.text s, next)
    | '[' :: _ =>
      let inner := (spot.skip 1).skipBlanks
      match inner.rest with
      | ']' :: _ => .ok (.list [], inner.skip 1)
      | _ => readItems fuel [] inner
    | '\x7b' :: _ =>
      let inner := (spot.skip 1).skipBlanks
      match inner.rest with
      | '\x7d' :: _ => .ok (.object [], inner.skip 1)
      | _ => readFields fuel [] inner
    | _ => readAtom spot

/-- Reads the items of a list; `done` holds those before, in reverse. -/
def readItems : (fuel : Nat) → (done : List Value) → Spot → Reading (Value × Spot)
  | 0, _, spot => failAt .expectingValue spot.position
  | fuel + 1, done, spot => do
    let (v, next) ← readValue fuel spot
    let next := next.skipBlanks
    match next.rest with
    | ']' :: _ => return (.list (v :: done).reverse, next.skip 1)
    | ',' :: _ => readItems fuel (v :: done) (next.skip 1).skipBlanks
    | _ => failAt .expectingComma next.position

/-- Reads the fields of an object; `done` holds those before. -/
def readFields : (fuel : Nat) → (done : Table Value) → Spot → Reading (Value × Spot)
  | 0, _, spot => failAt .expectingName spot.position
  | fuel + 1, done, spot =>
    match spot.rest with
    | '"' :: after => do
      let (name, next) ← readString spot.position (after.length + 1) [] ⟨spot.position + 1, after⟩
      let next := next.skipBlanks
      match next.rest with
      | ':' :: _ =>
        let (v, next) ← readValue fuel (next.skip 1).skipBlanks
        let next := next.skipBlanks
        let done := Table.set name v done
        match next.rest with
        | '\x7d' :: _ => return (.object done, next.skip 1)
        | ',' :: _ => readFields fuel done (next.skip 1).skipBlanks
        | _ => failAt .expectingComma next.position
      | _ => failAt .expectingColon next.position
    | _ => failAt .expectingName spot.position

end

def parse (source : List Char) : Except SyntaxFault Value :=
  if source.head? = some (Char.ofNat 0xFEFF) then failAt .byteOrderMark 0
  else do
    let (v, next) ← readValue (source.length + 1) (Spot.skipBlanks ⟨0, source⟩)
    let next := next.skipBlanks
    if next.rest.isEmpty then return v else failAt .extraData next.position

end Value

end Stencil
