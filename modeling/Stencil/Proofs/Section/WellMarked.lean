import Mathlib.Data.List.Infix
import Stencil.Proofs.Section.Marker

/-!
# Texts with sections as data

A well-marked text is a sequence of pieces: plain text and regions, which are sections with their
markers as they are written.  `written` is the text that the pieces make up; `WellMarked` says what
the pieces have to be for the text to show them again.  No marker begins in a piece but at the
beginning of a region (`silent_plain`, `quiet_remainder`).
-/

namespace Stencil.Section

open Pattern Text

/-! ## Regions and pieces -/

/-- The text holds neither word of a marker. -/
structure Markerless (s : List Char) : Prop where
  noBegin : ¬ "BEGIN".toList <:+: s
  noEnd : ¬ "END".toList <:+: s

/-- The text holds no word of a marker and does not begin a comment. -/
structure PlainText (s : List Char) : Prop extends Markerless s where
  noComment : ¬ "<!--".toList <:+: s

instance (s : List Char) : Decidable (Markerless s) :=
  decidable_of_iff (¬ "BEGIN".toList <:+: s ∧ ¬ "END".toList <:+: s)
    ⟨fun h => ⟨h.1, h.2⟩, fun h => ⟨h.noBegin, h.noEnd⟩⟩

instance (s : List Char) : Decidable (PlainText s) :=
  decidable_of_iff (Markerless s ∧ ¬ "<!--".toList <:+: s)
    ⟨fun h => ⟨h.1, h.2⟩, fun h => ⟨h.toMarkerless, h.noComment⟩⟩

instance (g : Gaps) : Decidable g.Valid :=
  decidable_of_iff (allBlank g.lead = true ∧ allBlank g.mid = true ∧ g.mid ≠ [] ∧
      allBlank g.trail = true ∧ g.trail ≠ [])
    ⟨fun ⟨hlead, hmid, hmid_ne, htrail, htrail_ne⟩ => ⟨hlead, hmid, hmid_ne, htrail, htrail_ne⟩,
      fun h => ⟨h.lead, h.mid, h.mid_ne, h.trail, h.trail_ne⟩⟩

/-- A section with its markers: in comments, or bare with the blanks after the word and the name of
the first marker and before and after the word of the second one. -/
inductive Region
  | commented (name body : List Char) (opening closing : Gaps)
  | bare (name body : List Char) (afterBegin afterName beforeEnd afterEnd : List Char)
  deriving DecidableEq

namespace Region

def name : Region → List Char
  | .commented name _ _ _ => name
  | .bare name _ _ _ _ _ => name

def body : Region → List Char
  | .commented _ body _ _ => body
  | .bare _ body _ _ _ _ => body

/-- The first marker up to its name. -/
def opening : Region → List Char
  | .commented name _ opening _ =>
    "<!--".toList ++ (opening.lead ++ bareText "BEGIN" opening.mid name)
  | .bare name _ afterBegin _ _ _ => bareText "BEGIN" afterBegin name

/-- What follows the name of the first marker. -/
def remainder : Region → List Char
  | .commented name body opening closing =>
    opening.trail ++ ("-->".toList ++ (body ++ commentText "END" name closing))
  | .bare name body _ afterName beforeEnd afterEnd =>
    afterName ++ (body ++ (beforeEnd ++ bareText "END" afterEnd name))

def written (r : Region) : List Char := r.opening ++ r.remainder

/-- The region has a name without the words of markers, a plain text inside and blanks in its
gaps; in the bare form the text inside has no blanks at its ends. -/
def WellFormed : Region → Prop
  | .commented name body opening closing =>
    IsName name ∧ Markerless name ∧ PlainText body ∧ opening.Valid ∧ closing.Valid
  | .bare name body afterBegin afterName beforeEnd afterEnd =>
    IsName name ∧ Markerless name ∧ PlainText body ∧
      (∀ c ∈ body.head?, isBlank c = false) ∧ (∀ c ∈ body.getLast?, isBlank c = false) ∧
      ∀ gap ∈ [afterBegin, afterName, beforeEnd, afterEnd], allBlank gap = true ∧ gap ≠ []

instance : (r : Region) → Decidable r.WellFormed
  | .commented name body opening closing =>
    inferInstanceAs (Decidable
      (IsName name ∧ Markerless name ∧ PlainText body ∧ opening.Valid ∧ closing.Valid))
  | .bare name body afterBegin afterName beforeEnd afterEnd =>
    decidable_of_iff (IsName name ∧ Markerless name ∧ PlainText body ∧
        (body.head?.all fun c => !isBlank c) = true ∧
        (body.getLast?.all fun c => !isBlank c) = true ∧
        ∀ gap ∈ [afterBegin, afterName, beforeEnd, afterEnd], allBlank gap = true ∧ gap ≠ [])
      (by simp [WellFormed, Option.all_eq_true])

end Region

/-- A part of a text: plain text or a region. -/
inductive Piece
  | plain (s : List Char)
  | region (r : Region)
  deriving DecidableEq

namespace Piece

def written : Piece → List Char
  | .plain s => s
  | .region r => r.written

/-- The name of the section that the piece is, if it is one. -/
def name? : Piece → Option (List Char)
  | .plain _ => none
  | .region r => some r.name

end Piece

def written (pieces : List Piece) : List Char := pieces.flatMap Piece.written

/-- The pieces of a well-marked text: plain texts, no two of which meet, and well-formed regions,
each at the beginning of the text or behind a blank and at its end or in front of a blank. -/
structure WellMarked (pieces : List Piece) : Prop where
  plain : ∀ s, .plain s ∈ pieces → PlainText s
  region : ∀ r, .region r ∈ pieces → r.WellFormed
  apart : ∀ front s t back, pieces ≠ front ++ .plain s :: .plain t :: back
  spaced : ∀ front r back, pieces = front ++ .region r :: back →
    (∀ c ∈ (written front).getLast?, isBlank c = true) ∧
      ∀ c ∈ (written back).head?, isBlank c = true

/-! ## Where no marker begins -/

/-- No opening marker and no comment begins in the part `x` in front of `y`. -/
def Silent (x y : List Char) : Prop :=
  NoneBegins "<!--".toList x y ∧ NoneBegins "BEGIN".toList x y

theorem silent_append {x x' y : List Char} :
    Silent (x ++ x') y ↔ Silent x (x' ++ y) ∧ Silent x' y := by
  simp only [Silent, noneBegins_append]
  exact and_and_and_comm

/-- No marker begins where its first character does not occur. -/
theorem silent_of_not_mem {x : List Char} (hcomment : '<' ∉ x) (hword : 'B' ∉ x) (y : List Char) :
    Silent x y :=
  ⟨noneBegins_of_not_mem hcomment y, noneBegins_of_not_mem hword y⟩

theorem silent_gap {gap : List Char} (h : allBlank gap = true) (y : List Char) : Silent gap y :=
  silent_of_not_mem (notMem_gap (by decide) h) (notMem_gap (by decide) h) y

/-- A character that no marker goes on with. -/
def EndsMarkers (c : Char) : Prop := c ∉ ("<!--".toList).drop 1 ∧ c ∉ ("BEGIN".toList).drop 1

theorem endsMarkers_of_isBlank {c : Char} (h : isBlank c = true) : EndsMarkers c :=
  ⟨not_mem_of_isBlank (by decide) h, not_mem_of_isBlank (by decide) h⟩

/-- No marker begins in a plain text. -/
theorem silent_plain {s y : List Char} (h : PlainText s) (hy : ∀ c ∈ y.head?, EndsMarkers c) :
    Silent s y :=
  ⟨noneBegins_of_not_isInfix h.noComment fun c hc => (hy c hc).1,
    noneBegins_of_not_isInfix h.noBegin fun c hc => (hy c hc).2⟩

/-- No marker begins in a name that a blank follows. -/
theorem silent_name {name y : List Char} (hname : IsName name) (h : Markerless name)
    (hy : ∀ c ∈ y.head?, isBlank c = true) : Silent name y := by
  refine ⟨noneBegins_of_not_mem (fun hc => ?_) y,
    noneBegins_of_not_isInfix h.noBegin fun c hc => (endsMarkers_of_isBlank (hy c hc)).2⟩
  exact absurd (hname.2 '<' hc) (by decide)

/-! ## Scanning a region -/

/-- The pattern matches where an opening marker begins and nowhere else: not where neither a comment
nor the word of an opening marker begins, and not at the comment of a closing marker. -/
structure AtOpenings (p : Pattern) : Prop where
  elsewhere : ∀ before after, ¬ "<!--".toList <+: after → ¬ "BEGIN".toList <+: after →
    p.ends ⟨⟨before, after⟩, []⟩ = []
  closing : ∀ (name : List Char) (g : Gaps), IsName name → g.Valid → ∀ before after,
    p.ends ⟨⟨before, commentText "END" name g ++ after⟩, []⟩ = []

theorem quiet_of_silent {p : Pattern} (hp : AtOpenings p) {x y : List Char} (h : Silent x y)
    (before : List Char) : Quiet p before x y :=
  quiet_of_noneBegins hp.elsewhere h.1 h.2 before

/-- A plain text and the closing comment behind it hold no match. -/
theorem quiet_bodyAndEnd {p : Pattern} (hp : AtOpenings p) {name body : List Char}
    (hname : IsName name) (hless : Markerless name) (hbody : PlainText body) {closing : Gaps}
    (hclosing : closing.Valid) (y before : List Char) :
    Quiet p before (body ++ commentText "END" name closing) y := by
  rw [quiet_append]
  refine ⟨quiet_of_silent hp (silent_plain hbody ?_) _, ?_⟩
  · intro c hc
    have hcd : c = '<' := by simpa [commentText, eq_comm] using hc
    subst hcd
    exact ⟨by decide, by decide⟩
  · -- the closing marker begins with a comment, but none that opens a section
    have hfirst := hp.closing name closing hname hclosing (body.reverse ++ before) y
    have hrest : Silent ("!--".toList ++ (closing.lead ++ ("END".toList ++ (closing.mid ++
        (name ++ (closing.trail ++ "-->".toList)))))) y := by
      simp only [silent_append, List.append_assoc]
      refine ⟨silent_of_not_mem (by decide) (by decide) _, silent_gap hclosing.lead _,
        silent_of_not_mem (by decide) (by decide) _, silent_gap hclosing.mid _,
        silent_name hname hless ?_, silent_gap hclosing.trail _,
        silent_of_not_mem (by decide) (by decide) _⟩
      exact head_of_gap hclosing.trail hclosing.trail_ne _
    exact ⟨hfirst, quiet_of_silent hp hrest _⟩

/-- Behind its opening marker a region holds no match. -/
theorem quiet_remainder {p : Pattern} (hp : AtOpenings p) {r : Region} (hr : r.WellFormed)
    {y : List Char} (hy : ∀ c ∈ y.head?, isBlank c = true) (before : List Char) :
    Quiet p before r.remainder y := by
  cases r with
  | commented name body opening closing =>
    obtain ⟨hname, hless, hbody, hopening, hclosing⟩ := hr
    simp only [Region.remainder]
    rw [quiet_append, quiet_append]
    exact ⟨quiet_of_silent hp (silent_gap hopening.trail _) _,
      quiet_of_silent hp (silent_of_not_mem (by decide) (by decide) _) _,
      quiet_bodyAndEnd hp hname hless hbody hclosing y _⟩
  | bare name body afterBegin afterName beforeEnd afterEnd =>
    obtain ⟨hname, hless, hbody, -, -, hgaps⟩ := hr
    obtain ⟨-, hafterName, hbeforeEnd, hafterEnd⟩ : _ ∧ _ ∧ _ ∧ _ := by simpa using hgaps
    refine quiet_of_silent hp ?_ before
    simp only [Region.remainder, bareText, silent_append, List.append_assoc]
    refine ⟨silent_gap hafterName.1 _, silent_plain hbody ?_, silent_gap hbeforeEnd.1 _,
      silent_of_not_mem (by decide) (by decide) _, silent_gap hafterEnd.1 _,
      silent_name hname hless hy⟩
    exact fun c hc => endsMarkers_of_isBlank (head_of_gap hbeforeEnd.1 hbeforeEnd.2 _ c hc)

end Stencil.Section
