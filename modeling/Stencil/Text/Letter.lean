import Stencil.Text.NameTable
import Stencil.Text.WordTable

/-! Letters, digits, the characters of a word and names. -/

namespace Stencil.Text

/-- A letter or a number of any script. -/
def isAlnum (c : Char) : Bool :=
  if c.toNat < 128 then c.isAlphanum else inRanges wordRanges c.toNat

/-- A character of a word: a letter, a number or the underscore. -/
def isWord (c : Char) : Bool := c == '_' || isAlnum c

/-- The first code points of the runs of ten decimal digits beyond ASCII. -/
def digitZeros : List Nat :=
  [1632, 1776, 1984, 2406, 2534, 2662, 2790, 2918, 3046, 3174, 3302, 3430, 3558, 3664, 3792,
   3872, 4160, 4240, 6112, 6160, 6470, 6608, 6784, 6800, 6992, 7088, 7232, 7248, 42528, 43216,
   43264, 43472, 43504, 43600, 44016, 65296, 66720, 68912, 69734, 69872, 69942, 70096, 70384,
   70736, 70864, 71248, 71360, 71472, 71904, 72016, 72784, 73040, 73120, 92768, 92864, 93008,
   120782, 120792, 120802, 120812, 120822, 123200, 123632, 125264, 130032]

def digitValue? (c : Char) : Option Nat :=
  if c.toNat < 128 then
    if c.isDigit then some (c.toNat - 48) else none
  else (digitZeros.find? fun z => z ≤ c.toNat && c.toNat < z + 10).map (c.toNat - ·)

def isDecimal (c : Char) : Bool := (digitValue? c).isSome

def isLetter (c : Char) : Bool :=
  if c.toNat < 128 then c.isAlpha else isAlnum c && !inRanges numberRanges c.toNat

/-- May a name begin with `c`? -/
def isNameStart (c : Char) : Bool :=
  c == '_' || (isLetter c && !inRanges lettersOutsideNames c.toNat) ||
    inRanges nameStartRanges c.toNat

/-- May the rest of a name hold `c`? -/
def isNameRest (c : Char) : Bool := isNameStart c || c.isDigit || inRanges nameRestRanges c.toNat

/-- Is the text a name, by the identifier properties of Unicode? -/
def isName : List Char → Bool
  | [] => false
  | c :: rest => isNameStart c && rest.all isNameRest

end Stencil.Text
