import Stencil.Pattern.Reader

/-!
# Reading under other flags

The flags under which a text is read change what its sets and anchors match, but nothing that the
reader goes by: how many characters a part matches, what makes it unfit and whether it can be
repeated, and which groups are open, closed and named.  All this is the *outline* of a draft.  Each
step of the reader gives the same fault or drafts of one outline, whether it starts from a draft or
from its outline (`outlined_step`).  So whether a text is a pattern, the fault if it is none and the
number of its groups do not depend on the flags (`groups_parse`).
-/

namespace Stencil.Pattern

/-! ## Outlines -/

/-- A part without what it matches. -/
def Part.outline (p : Part) : Part := { p with pattern := .empty }

def Item.outline (i : Item) : Item := { i with toPart := i.toPart.outline }

/-- A level without flags and without what its parts match. -/
def Level.outline (l : Level) : Level :=
  { l with
    flags := {}, items := l.items.map Item.outline, branches := l.branches.map Part.outline }

def OpenGroup.outline (g : OpenGroup) : OpenGroup := { g with outer := g.outer.outline }

/-- A draft without flags and without what its parts match. -/
def Draft.outline (d : Draft) : Draft :=
  { d with toLevel := d.toLevel.outline, opened := d.opened.map OpenGroup.outline }

@[simp] theorem Item.outline_outline (i : Item) : i.outline.outline = i.outline := rfl

@[simp] theorem Part.outline_outline (p : Part) : p.outline.outline = p.outline := rfl

@[simp] theorem Level.outline_outline (l : Level) : l.outline.outline = l.outline := by
  simp [Level.outline, Function.comp_def]

@[simp] theorem OpenGroup.outline_outline (g : OpenGroup) : g.outline.outline = g.outline := by
  simp [OpenGroup.outline]

@[simp] theorem Draft.outline_outline (d : Draft) : d.outline.outline = d.outline := by
  simp [Draft.outline, Function.comp_def]

/-! ## Parts -/

namespace Part

theorem outline_all (ps : List Part) : (all (ps.map outline)).outline = (all ps).outline := by
  simp [all, outline, List.map_map, List.findSome?_map, Function.comp_def]

theorem outline_either {p p' q q' : Part} (hp : p.outline = p'.outline)
    (hq : q.outline = q'.outline) : (p.either q).outline = (p'.either q').outline := by
  simp only [outline, mk.injEq, true_and] at hp hq
  simp only [outline, either, hp, hq]

theorem outline_firstOf (ps : List Part) :
    (firstOf (ps.map outline)).outline = (firstOf ps).outline := by
  induction ps with
  | nil => rfl
  | cons p ps ih =>
    cases ps with
    | nil => rfl
    | cons q ps => exact outline_either rfl ih

theorem outline_behind (negated : Bool) {p p' : Part} (h : p.outline = p'.outline) :
    (p.behind negated).outline = (p'.behind negated).outline := by
  simp only [outline, mk.injEq, true_and] at h
  simp only [outline, behind, h]

theorem outline_given (index : Nat) (ps : List Part) :
    (given index (ps.map outline)).outline = (given index ps).outline := by
  cases ps with
  | nil => rfl
  | cons yes rest =>
    have hno := outline_firstOf rest
    simp only [outline, mk.injEq, true_and] at hno
    simp [outline, given, ← hno]

end Part

theorem GroupKind.outline_build (kind : GroupKind) (ps : List Part) :
    (kind.build (ps.map Part.outline)).outline = (kind.build ps).outline := by
  have hfirst := Part.outline_firstOf ps
  cases kind with
  | behind negated => exact Part.outline_behind negated hfirst
  | given index => exact Part.outline_given index ps
  | plain => exact hfirst
  | capture | atomic | ahead =>
    simp only [Part.outline, Part.mk.injEq, true_and] at hfirst
    simp only [GroupKind.build, Part.outline, hfirst]

/-! ## Drafts -/

namespace Draft

theorem outline_push {p p' : Part} (h : p.outline = p'.outline) (d : Draft) (shape : ItemShape) :
    (d.outline.push p shape).outline = (d.push p' shape).outline := by
  have hitem : Item.outline ⟨p, shape⟩ = Item.outline ⟨p', shape⟩ := by simp [Item.outline, h]
  simp [outline, push, Level.outline, Function.comp_def, hitem]

theorem outline_pushEscape (d : Draft) (m : EscapeMeaning) :
    (d.outline.pushEscape m).outline = (d.pushEscape m).outline := by
  cases m <;> exact outline_push rfl d _

theorem outline_sequence (d : Draft) : d.outline.sequence.outline = d.sequence.outline := by
  have hitems : d.outline.items.reverse.map (·.toPart) =
      (d.items.reverse.map (·.toPart)).map Part.outline := by
    simp [outline, Level.outline, Function.comp_def, Item.outline]
  rw [sequence, hitems, Part.outline_all, sequence]

theorem outline_allBranches (d : Draft) :
    d.outline.allBranches.map Part.outline = d.allBranches.map Part.outline := by
  have hbranches : d.outline.branches.map Part.outline = d.branches.map Part.outline := by
    simp [outline, Level.outline, Function.comp_def]
  simp only [allBranches, List.map_reverse, List.map_cons, outline_sequence, hbranches]

theorem outline_nextBranch (d : Draft) : d.outline.nextBranch.outline = d.nextBranch.outline := by
  have hsequence := outline_sequence d
  simp only [outline, nextBranch, Level.outline, List.map_cons, List.map_map, Function.comp_def,
    Part.outline_outline, OpenGroup.outline_outline, List.map_nil] at hsequence ⊢
  rw [hsequence]

theorem outline_openGroup (d : Draft) (kind : GroupKind) (toEnd : Nat) (flags flags' : Flags)
    (mode : Mode) :
    (d.outline.openGroup kind toEnd flags mode).outline =
      (d.openGroup kind toEnd flags' mode).outline := by
  cases kind <;> simp [outline, openGroup, Level.outline, OpenGroup.outline, Function.comp_def]

theorem outline_closeGroup (d : Draft) (g : OpenGroup) (outer : List OpenGroup) :
    (d.outline.closeGroup g.outline (outer.map OpenGroup.outline)).outline =
      (d.closeGroup g outer).outline := by
  have hpart : (g.kind.build d.outline.allBranches).outline =
      (g.kind.build d.allBranches).outline := by
    rw [← g.kind.outline_build, outline_allBranches, g.kind.outline_build]
  have hwidths : (g.kind.build d.outline.allBranches).widths =
      (g.kind.build d.allBranches).widths := by simpa [Part.outline] using congrArg (·.widths) hpart
  -- what was read before the group, to which the group is added as one item
  have hpush (closed : List (Nat × Widths)) := outline_push hpart
    { d with toLevel := g.outer, opened := outer, closed := closed } .simple
  obtain ⟨kind, toEnd, level⟩ := g
  cases kind with
  | capture index =>
    simp only [closeGroup, OpenGroup.outline]
    rw [hwidths]
    exact hpush _
  | plain | atomic | ahead | behind | given => exact hpush d.closed

end Draft

/-! ## Steps of the reader -/

/-- A step with the outline of the draft that it leads to. -/
def outlined (x : Reading (Draft × List Token)) : Reading (Draft × List Token) :=
  x.map fun y => (y.1.outline, y.2)

theorem outlined_ok (d : Draft) (rest : List Token) :
    outlined (.ok (d, rest)) = .ok (d.outline, rest) := rfl

theorem outlined_ok_congr {d d' : Draft} (h : d.outline = d'.outline) (rest : List Token) :
    outlined (.ok (d, rest)) = outlined (.ok (d', rest)) := by
  rw [outlined_ok, outlined_ok, h]

/-- What two computations come to agrees if what they begin with does. -/
theorem map_bind_congr {ε α β γ δ : Type} {φ : α → γ} {ψ : β → δ} {x y : Except ε α}
    {f g : α → Except ε β} (h : x.map φ = y.map φ)
    (hfg : ∀ a b, φ a = φ b → (f a).map ψ = (g b).map ψ) :
    (x >>= f).map ψ = (y >>= g).map ψ := by
  cases x with
  | error fault =>
    cases y with
    | error fault' => cases h; rfl
    | ok b => cases h
  | ok a =>
    cases y with
    | error fault => cases h
    | ok b => exact hfg a b (Except.ok.inj h)

theorem outlined_bind {α : Type} (x : Reading α) {f g : α → Reading (Draft × List Token)}
    (h : ∀ a, outlined (f a) = outlined (g a)) : outlined (x >>= f) = outlined (x >>= g) := by
  have hx : x.map id = x.map id := rfl
  refine map_bind_congr hx fun a b hab => ?_
  obtain rfl : a = b := hab
  exact h a

section

variable (d : Draft)

theorem outlined_repeatLast (least : Nat) (most : Option Nat) (back : Nat) (ts : List Token) :
    outlined (repeatLast d.outline least most back ts) =
      outlined (repeatLast d least most back ts) := by
  obtain ⟨⟨flags, mode, items, branches, groupsBefore⟩, opened, groups, closed, names, asked,
    globals⟩ := d
  match items with
  | [] => rfl
  | ⟨p, .anchor⟩ :: before => rfl
  | ⟨p, .repetition⟩ :: before => rfl
  | ⟨p, .simple⟩ :: before =>
    refine outlined_bind _ fun rest => outlined_ok_congr ?_ rest
    exact Draft.outline_push rfl
      ⟨⟨flags, mode, before, branches, groupsBefore⟩, opened, groups, closed, names, asked, globals⟩
      .repetition

theorem outlined_readBrace (back : Nat) (ts : List Token) :
    outlined (readBrace d.outline back ts) = outlined (readBrace d back ts) := by
  refine outlined_bind _ fun bounds => ?_
  match bounds with
  | none => exact outlined_ok_congr (Draft.outline_push rfl d _) ts
  | some (low, high, rest) =>
    dsimp only
    split
    · rfl
    · split
      · rfl
      · exact outlined_repeatLast d _ _ _ _

theorem outlined_readSet (opening : Nat) (ts : List Token) :
    outlined (readSet d.outline opening ts) = outlined (readSet d opening ts) := by
  refine outlined_bind _ fun rest => outlined_bind _ fun (items, rest) => ?_
  exact outlined_ok_congr (Draft.outline_push rfl d _) rest

theorem outlined_setGlobals (start : Nat) (on : List Char) (rest : List Token) :
    outlined (setGlobals d.outline start on rest) = outlined (setGlobals d start on rest) := by
  have hstart : d.outline.atStart = d.atStart := by
    simp [Draft.atStart, Draft.outline, Level.outline]
  unfold setGlobals
  rw [hstart]
  split
  · refine outlined_ok_congr ?_ rest
    simp [Draft.outline, Level.outline, Function.comp_def]
  · rfl

theorem outlined_openFlags (start : Nat) (c : Char) (ts : List Token) :
    outlined (openFlags d.outline start c ts) = outlined (openFlags d start c ts) := by
  refine outlined_bind _ fun (on, ending, rest) => ?_
  dsimp only
  split
  · exact outlined_setGlobals d start on rest
  · split
    · rfl
    · refine outlined_bind _ fun (off, rest) => ?_
      dsimp only
      split
      · rfl
      · split
        · rfl
        · exact outlined_ok_congr (d.outline_openGroup _ _ _ _ _) rest

theorem outlined_openNamed (start : Nat) (ts : List Token) :
    outlined (openNamed d.outline start ts) = outlined (openNamed d start ts) := by
  refine outlined_bind _ fun (name, rest) => ?_
  have hnames : d.outline.names = d.names := rfl
  dsimp only
  rw [hnames]
  split
  · rfl
  · exact outlined_ok_congr ((d.nameGroup _).outline_openGroup ..) rest

theorem outlined_readNameReference (ts : List Token) :
    outlined (readNameReference d.outline ts) = outlined (readNameReference d ts) := by
  refine outlined_bind _ fun (name, rest) => outlined_bind _ fun index =>
    outlined_bind _ fun (m, rest) => ?_
  exact outlined_ok_congr (Draft.outline_pushEscape d m) rest

theorem outlined_openGiven (start : Nat) (ts : List Token) :
    outlined (openGiven d.outline start ts) = outlined (openGiven d start ts) := by
  refine outlined_bind _ fun (name, rest) => ?_
  dsimp only
  split
  · refine outlined_bind _ fun index => outlined_bind _ fun _ => ?_
    exact outlined_ok_congr (d.outline_openGroup ..) rest
  · refine outlined_bind _ fun index => outlined_bind _ fun _ => ?_
    exact outlined_ok_congr ((d.ask _ _).outline_openGroup ..) rest

theorem outlined_openBehind (start : Nat) (ts : List Token) :
    outlined (openBehind d.outline start ts) = outlined (openBehind d start ts) := by
  refine outlined_bind _ fun (t, rest) => ?_
  dsimp only
  split
  · rfl
  · exact outlined_ok_congr (d.outline_openGroup ..) rest
  · exact outlined_ok_congr (d.outline_openGroup ..) rest
  · rfl

theorem outlined_openLettered (start : Nat) (ts : List Token) :
    outlined (openLettered d.outline start ts) = outlined (openLettered d start ts) := by
  refine outlined_bind _ fun (t, rest) => ?_
  dsimp only
  split
  · rfl
  · exact outlined_openNamed d start rest
  · exact outlined_readNameReference d rest
  · rfl

theorem outlined_openExtended (start : Nat) (ts : List Token) :
    outlined (openExtended d.outline start ts) = outlined (openExtended d start ts) := by
  refine outlined_bind _ fun (t, rest) => ?_
  dsimp only
  split
  · rfl
  · exact outlined_ok_congr (d.outline_openGroup ..) rest
  · exact outlined_ok_congr (d.outline_openGroup ..) rest
  · exact outlined_ok_congr (d.outline_openGroup ..) rest
  · exact outlined_ok_congr (d.outline_openGroup ..) rest
  · exact outlined_openBehind d start rest
  · exact outlined_openLettered d start rest
  · exact outlined_openGiven d start rest
  · refine outlined_bind _ fun behind => ?_
    cases behind with
    | none => rfl
    | some rest => exact outlined_ok_congr d.outline_outline rest
  · split
    · exact outlined_openFlags d start _ rest
    · rfl
  · rfl

theorem outlined_readGroup (start : Nat) (ts : List Token) :
    outlined (readGroup d.outline start ts) = outlined (readGroup d start ts) := by
  unfold readGroup
  split
  · exact outlined_bind _ fun rest => outlined_openExtended d start rest
  · exact outlined_ok_congr (d.nextGroup.outline_openGroup ..) ts

theorem outlined_readItem (back : Nat) (t : Token) (rest : List Token) :
    outlined (readItem d.outline back t rest) = outlined (readItem d back t rest) := by
  unfold readItem
  split
  · exact outlined_readGroup d back rest
  · exact outlined_readSet d back rest
  · exact outlined_ok_congr (Draft.outline_push rfl d _) rest
  · exact outlined_ok_congr (Draft.outline_push rfl d _) rest
  · exact outlined_ok_congr (Draft.outline_push rfl d _) rest
  · exact outlined_repeatLast d _ _ _ rest
  · exact outlined_repeatLast d _ _ _ rest
  · exact outlined_repeatLast d _ _ _ rest
  · exact outlined_readBrace d back rest
  · exact outlined_ok_congr (Draft.outline_push rfl d _) rest
  · refine outlined_bind _ fun (m, rest) => ?_
    exact outlined_ok_congr (Draft.outline_pushEscape d m) rest
  · rfl

theorem outlined_readClosing (ts : List Token) :
    outlined (readClosing d.outline ts) = outlined (readClosing d ts) := by
  have hopened : d.outline.opened = d.opened.map OpenGroup.outline := rfl
  unfold readClosing
  rw [hopened]
  cases d.opened with
  | nil => rfl
  | cons g outer =>
    refine outlined_bind _ fun rest => ?_
    exact outlined_ok_congr (d.outline_closeGroup g outer) rest

theorem outlined_step (t : Token) (ts : List Token) :
    outlined (step d.outline t ts) = outlined (step d t ts) := by
  have hboth : d.outline.hasBothBranches = d.hasBothBranches := by
    have hkind (g : OpenGroup) : g.outline.kind = g.kind := rfl
    cases hd : d.opened <;> simp [Draft.hasBothBranches, Draft.outline, Level.outline, hd, hkind]
  have hmode : d.outline.mode = d.mode := rfl
  unfold step
  rw [hboth, hmode]
  split
  · exact outlined_readClosing d (t :: ts)
  · split
    · rfl
    · refine outlined_bind _ fun rest => ?_
      split
      · exact outlined_ok_congr d.outline_nextBranch rest
      · split
        · exact outlined_ok_congr d.outline_outline rest
        · split
          · refine outlined_bind _ fun behind => ?_
            exact outlined_ok_congr d.outline_outline _
          · exact outlined_readItem d _ t rest

end

/-! ## Whole patterns -/

/-- From drafts of one outline the reader comes to drafts of one outline. -/
theorem outline_readItems {d d' : Draft} (h : d.outline = d'.outline) (fuel : Nat)
    (ts : List Token) :
    (readItems fuel d ts).map Draft.outline = (readItems fuel d' ts).map Draft.outline := by
  induction fuel generalizing d d' ts with
  | zero => cases ts <;> exact congrArg Except.ok h
  | succ fuel ih =>
    cases ts with
    | nil => exact congrArg Except.ok h
    | cons t ts =>
      have hstep : outlined (step d t ts) = outlined (step d' t ts) := by
        rw [← outlined_step, h, outlined_step]
      refine map_bind_congr hstep fun (d, rest) (d', rest') hab => ?_
      obtain ⟨hd, rfl⟩ := Prod.mk.inj hab
      exact ih hd rest

theorem groups_finish (d : Draft) :
    d.outline.finish.map (·.groups) = d.finish.map (·.groups) := by
  have hopened : d.outline.opened = d.opened.map OpenGroup.outline := rfl
  have hunfit : (Part.firstOf d.outline.allBranches).unfit =
      (Part.firstOf d.allBranches).unfit := by
    have houtline : (Part.firstOf d.outline.allBranches).outline =
        (Part.firstOf d.allBranches).outline := by
      rw [← Part.outline_firstOf, Draft.outline_allBranches, Part.outline_firstOf]
    exact congrArg (·.unfit) houtline
  unfold Draft.finish
  rw [hopened]
  cases d.opened with
  | cons g outer => rfl
  | nil =>
    have hmixes : d.outline.mixesTypes = d.mixesTypes := rfl
    have hasked : d.outline.asked = d.asked := rfl
    have hgroups : d.outline.groups = d.groups := rfl
    simp only [List.map_nil, hmixes, hasked, hgroups, hunfit]
    split
    · rfl
    · split
      · rfl
      · split <;> rfl

/-- **Flags decide nothing about whether a text is a pattern.**  The fault, if it is none, and the
number of its groups, if it is one, do not depend on the flags under which it is read. -/
theorem groups_parse (flags flags' : Flags) (source : List Char) :
    (Expression.parse flags source).map (·.groups) =
      (Expression.parse flags' source).map (·.groups) := by
  have hstart : Draft.outline { flags := flags } = Draft.outline { flags := flags' } := rfl
  have hread := outline_readItems hstart (tokens source).length (tokens source)
  simp only [Expression.parse]
  split
  · rfl
  · refine map_bind_congr hread fun d d' houtline => ?_
    rw [← groups_finish, houtline, groups_finish]

/-- A text that is a pattern under some flags is one under others, with as many groups. -/
theorem exists_parse {flags : Flags} {source : List Char} {e : Expression}
    (h : Expression.parse flags source = .ok e) (flags' : Flags) :
    ∃ e', Expression.parse flags' source = .ok e' ∧ e.groups = e'.groups := by
  have hgroups := groups_parse flags flags' source
  rw [h] at hgroups
  cases hx : Expression.parse flags' source with
  | error fault => rw [hx] at hgroups; cases hgroups
  | ok e' => rw [hx] at hgroups; exact ⟨e', rfl, Except.ok.inj hgroups⟩

end Stencil.Pattern
