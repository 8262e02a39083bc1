import Stencil.Pattern.Basic
import Stencil.Pattern.Fault

/-!
Drafts: what has been read of a written pattern.

A `Part` is a pattern that has been read, with the number of characters that it matches (`Widths`)
and the first thing in it that makes it unfit for use.  A `Draft` holds the parts that stand side by
side at the innermost depth of the groups (its `Level`), the groups around it that are still open,
and the groups that are closed.  Closing a group makes one part of its branches
(`GroupKind.build`).
-/

namespace Stencil.Pattern

/-! ## Flags -/

/-- How a pattern is read. -/
structure Flags where
  ignoreCase : Bool := false
  multiLine : Bool := false
  dotAll : Bool := false
  deriving DecidableEq

def Flags.union (f g : Flags) : Flags :=
  ⟨f.ignoreCase || g.ignoreCase, f.multiLine || g.multiLine, f.dotAll || g.dotAll⟩

def Flags.ofLetter? : Char → Option Flags
  | 'i' => some ⟨true, false, false⟩
  | 'm' => some ⟨false, true, false⟩
  | 's' => some ⟨false, false, true⟩
  | _ => none

/-- The flags after some letters are turned on and others off. -/
def Flags.switch (f : Flags) (on off : List Char) : Flags :=
  let after (letter : Char) (was : Bool) := (was || on.contains letter) && !off.contains letter
  ⟨after 'i' f.ignoreCase, after 'm' f.multiLine, after 's' f.dotAll⟩

/-- What else an expression can say about how it is read: with the letters, digits and blanks of
ASCII alone, and with blanks and comments between the items. -/
structure Mode where
  ascii : Bool := false
  verbose : Bool := false
  deriving DecidableEq

def Mode.switch (m : Mode) (on off : List Char) : Mode :=
  ⟨(m.ascii || on.contains 'a') && !on.contains 'u',
    (m.verbose || on.contains 'x') && !off.contains 'x'⟩

/-! ## Widths -/

/-- How many characters the matches of a pattern have: at least, and at most if there is a limit. -/
structure Widths where
  least : Nat
  most : Option Nat
  deriving DecidableEq

namespace Widths

def exactly (n : Nat) : Widths := ⟨n, some n⟩

/-- One after the other. -/
def add (v w : Widths) : Widths := ⟨v.least + w.least, do return (← v.most) + (← w.most)⟩

/-- The one or the other. -/
def or (v w : Widths) : Widths := ⟨min v.least w.least, do return max (← v.most) (← w.most)⟩

/-- Between `least` and `most` times. -/
def times (w : Widths) (least : Nat) (most : Option Nat) : Widths :=
  ⟨w.least * least,
    if w.most = some 0 ∨ most = some 0 then some 0 else do return (← w.most) * (← most)⟩

end Widths

/-- The largest number of characters that a look behind can go back. -/
def behindLimit : Nat := 4294967295

/-! ## Parts -/

/-- How a repetition chooses: as often as possible, as seldom as possible, or as often as possible
for good. -/
inductive Greed
  | greedy
  | lazy
  | possessive

/-- The name by which a repetition is refused. -/
def Greed.name : Greed → String
  | .greedy => "MAX_REPEAT"
  | .lazy => "MIN_REPEAT"
  | .possessive => "POSSESSIVE_REPEAT"

/-- A part that has been read: what it matches, how many characters these are, and the first thing
in it, if any, that makes it unfit for use. -/
structure Part where
  pattern : Pattern
  widths : Widths
  unfit : Option FaultCause := none

namespace Part

def all (parts : List Part) : Part :=
  ⟨Pattern.all (parts.map (·.pattern)), (parts.map (·.widths)).foldr Widths.add (.exactly 0),
    parts.findSome? (·.unfit)⟩

/-- One part or another. -/
def either (p q : Part) : Part :=
  ⟨.either p.pattern q.pattern, p.widths.or q.widths, p.unfit.or q.unfit⟩

def firstOf : List Part → Part
  | [] => all []
  | [p] => p
  | p :: rest => p.either (firstOf rest)

/-- A part between `least` and `most` times; `refused` says that the pattern may not repeat. -/
def looped (p : Part) (least : Nat) (most : Option Nat) (greed : Greed) (refused : Bool) :
    Part where
  pattern :=
    match greed with
    | .greedy => repeated p.pattern least most true
    | .lazy => repeated p.pattern least most false
    | .possessive => .atomic (repeated p.pattern least most true)
  widths := p.widths.times least most
  unfit := if refused then some (.unsupportedRepetition greed.name) else p.unfit

/-- What stands behind a place has to have one width, which has to be within bounds. -/
def behind (negated : Bool) (p : Part) : Part :=
  ⟨.behind negated p.widths.least p.pattern, .exactly 0,
    if behindLimit < p.widths.least then some .tooFarBehind
    else if p.widths.most ≠ some p.widths.least then some .widthVariesBehind
    else p.unfit⟩

/-- The first branch if a group remembers a text, the second, if there is one, if it does not. -/
def given (index : Nat) (branches : List Part) : Part :=
  let yes := branches.headD (all [])
  let no := firstOf (branches.drop 1)
  ⟨.given index yes.pattern no.pattern, yes.widths.or no.widths, yes.unfit.or no.unfit⟩

end Part

/-- What the opening of a group makes of it. -/
inductive GroupKind
  | capture (index : Nat)
  | plain
  | atomic
  | ahead (negated : Bool)
  | behind (negated : Bool)
  | given (index : Nat)

def GroupKind.isGiven : GroupKind → Bool
  | .given _ => true
  | _ => false

/-- The part that a group makes of its branches. -/
def GroupKind.build (branches : List Part) : GroupKind → Part
  | .capture index =>
    let p := Part.firstOf branches
    { p with pattern := .group index p.pattern }
  | .plain => Part.firstOf branches
  | .atomic =>
    let p := Part.firstOf branches
    { p with pattern := .atomic p.pattern }
  | .ahead negated =>
    let p := Part.firstOf branches
    { p with pattern := .ahead negated p.pattern, widths := .exactly 0 }
  | .behind negated => (Part.firstOf branches).behind negated
  | .given index => Part.given index branches

/-! ## Drafts -/

/-- Can an item be repeated? An anchor cannot, and a repetition not again. -/
inductive ItemShape
  | simple
  | anchor
  | repetition

structure Item extends Part where
  shape : ItemShape := .simple

/-- What is read at one depth of the groups. Items and branches are held latest first. In a look
behind, `groupsBefore` is the number of groups before it. -/
structure Level where
  flags : Flags
  mode : Mode := {}
  items : List Item := []
  branches : List Part := []
  groupsBefore : Option Nat := none

/-- A group that is still open: the number of characters from its parenthesis to the end, and the
level around it. -/
structure OpenGroup where
  kind : GroupKind
  toEnd : Nat
  outer : Level

/-- What has been read so far. `asked` are the groups that conditions ask for by number, with the
number of characters from there to the end, and `globals` the letters of flags that hold for the
whole pattern. -/
structure Draft extends Level where
  opened : List OpenGroup := []
  groups : Nat := 0
  closed : List (Nat × Widths) := []
  names : List (String × Nat) := []
  asked : List (Nat × Nat) := []
  globals : List Char := []

namespace Draft

def push (d : Draft) (p : Part) (shape : ItemShape := .simple) : Draft :=
  { d with items := { p with shape := shape } :: d.items }

def pushOne (d : Draft) (set : CharSet) : Draft := d.push ⟨.one set, .exactly 1, none⟩

def pushAnchor (d : Draft) (a : Anchor) : Draft := d.push ⟨.anchor a, .exactly 0, none⟩ .anchor

/-- Which characters are the same letter where the draft goes on. -/
def casing (d : Draft) : Casing :=
  if d.flags.ignoreCase then if d.mode.ascii then .ascii else .full else .exact

def pushCode (d : Draft) (n : Nat) : Draft := d.pushOne ⟨[.range n n], false, d.casing⟩

def pushChar (d : Draft) (c : Char) : Draft := d.pushCode c.toNat

/-- The kind that a letter stands for where the draft goes on. -/
def kind (d : Draft) (k : CharKind) : CharKind := if d.mode.ascii then k.inAscii else k

/-- The items of the current branch as one part. -/
def sequence (d : Draft) : Part := Part.all (d.items.reverse.map (·.toPart))

/-- The branches of the innermost group, the current one included. -/
def allBranches (d : Draft) : List Part := (d.sequence :: d.branches).reverse

def nextBranch (d : Draft) : Draft :=
  { d with branches := d.sequence :: d.branches, items := [] }

/-- Has the draft read nothing at its level, and is there no group around it? -/
def atStart (d : Draft) : Bool := d.opened.isEmpty && d.branches.isEmpty && d.items.isEmpty

/-- Is the innermost group a condition with two branches? -/
def hasBothBranches (d : Draft) : Bool :=
  d.opened.head?.any (·.kind.isGiven) && !d.branches.isEmpty

def nextGroup (d : Draft) : Draft := { d with groups := d.groups + 1 }

def nameGroup (d : Draft) (name : String) : Draft :=
  { d.nextGroup with names := (name, d.groups + 1) :: d.names }

/-- Notes that a condition asks for a group by number. -/
def ask (d : Draft) (index toEnd : Nat) : Draft := { d with asked := (index, toEnd) :: d.asked }

def openGroup (d : Draft) (kind : GroupKind) (toEnd : Nat) (flags : Flags := d.flags)
    (mode : Mode := d.mode) : Draft :=
  let groupsBefore := match kind with
    | .behind _ => d.groupsBefore.or (some d.groups)
    | _ => d.groupsBefore
  { d with
    opened := ⟨kind, toEnd, d.toLevel⟩ :: d.opened
    toLevel := ⟨flags, mode, [], [], groupsBefore⟩ }

/-- Closes the innermost group, which is `g`; the rest of the open ones is `outer`. -/
def closeGroup (d : Draft) (g : OpenGroup) (outer : List OpenGroup) : Draft :=
  let part := g.kind.build d.allBranches
  let closed := match g.kind with
    | .capture index => (index, part.widths) :: d.closed
    | _ => d.closed
  { d with toLevel := g.outer, opened := outer, closed := closed }.push part

/-- Repetitions are refused in a whole pattern that asks for it. -/
def isTemplate (d : Draft) : Bool := d.globals.contains 't'

/-- Is the whole pattern to be read both with the letters of ASCII and with those of every
script? -/
def mixesTypes (d : Draft) : Bool := d.globals.contains 'a' && d.globals.contains 'u'

end Draft

end Stencil.Pattern
