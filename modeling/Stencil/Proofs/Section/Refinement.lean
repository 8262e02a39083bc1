import Mathlib.Data.List.Basic
import Stencil.Proofs.Listing
import Stencil.Proofs.Section.Matching

/-!
# Sections of a text as operations on its pieces

On the text of well-marked pieces, showing and hiding a section, listing the sections and asking for
one are the plain operations on the pieces (`sections_written`).  The scan goes over the pieces one
by one (`flatMap_scan`): a plain text holds no match, and what a region gives depends on the pattern
and the region alone.
-/

namespace Stencil.Section

open Pattern Text

variable {α : Type}

/-! ## Pieces of a well-marked text -/

namespace Piece

/-- The piece with the text inside in the place of a region with the name. -/
def reveal (name : List Char) : Piece → Piece
  | .plain s => .plain s
  | .region r => if r.name = name then .plain r.body else .region r

/-- What becomes of a piece, given what becomes of a character and of a region. -/
def image (ofChar : Char → List α) (ofRegion : Region → List α) : Piece → List α
  | .plain s => s.flatMap ofChar
  | .region r => ofRegion r

end Piece

@[simp] theorem written_nil : written [] = [] := rfl

@[simp] theorem written_cons (piece : Piece) (pieces : List Piece) :
    written (piece :: pieces) = piece.written ++ written pieces := rfl

theorem reverse_written_concat (front : List Piece) (piece : Piece) :
    (written (front ++ [piece])).reverse = piece.written.reverse ++ (written front).reverse := by
  simp [written]

theorem Region.opening_ne_nil (r : Region) : r.opening ≠ [] := by
  cases r <;> simp [Region.opening, bareText]

theorem Region.written_ne_nil (r : Region) : r.written ≠ [] := by
  simp [Region.written, r.opening_ne_nil]

/-- A region begins with a character that no marker goes on with. -/
theorem Region.head_written (r : Region) (y : List Char) :
    ∀ c ∈ (r.written ++ y).head?, EndsMarkers c := by
  intro c hc
  cases r with
  | commented =>
    have hcd : c = '<' := by simpa [Region.written, Region.opening, eq_comm] using hc
    subst hcd
    exact ⟨by decide, by decide⟩
  | bare =>
    have hcd : c = 'B' := by simpa [Region.written, Region.opening, bareText, eq_comm] using hc
    subst hcd
    exact ⟨by decide, by decide⟩

namespace WellMarked

variable {front back : List Piece}

/-- No marker begins in a plain text of the pieces. -/
theorem silent {s : List Char} (h : WellMarked (front ++ .plain s :: back)) :
    Silent s (written back) := by
  refine silent_plain (h.plain s (by simp)) ?_
  cases back with
  | nil => simp
  | cons piece back =>
    cases piece with
    | plain t => exact absurd rfl (h.apart front s t back)
    | region r => exact r.head_written _

theorem wellFormed {r : Region} (h : WellMarked (front ++ .region r :: back)) : r.WellFormed :=
  h.region r (by simp)

/-- A region stands at the beginning of the text or behind a blank. -/
theorem blank_before {r : Region} (h : WellMarked (front ++ .region r :: back)) :
    ∀ c ∈ (written front).reverse.head?, isBlank c = true := by
  rw [List.head?_reverse]
  exact (h.spaced front r back rfl).1

/-- A region stands at the end of the text or in front of a blank. -/
theorem blank_behind {r : Region} (h : WellMarked (front ++ .region r :: back)) :
    ∀ c ∈ (written back).head?, isBlank c = true :=
  (h.spaced front r back rfl).2

end WellMarked

/-! ## Scanning piece by piece -/

/-- What the scan gives for a region does not depend on the text around it. -/
def ScansRegions (p : Pattern) (g : Segment → List α) (ofRegion : Region → List α) : Prop :=
  ∀ r : Region, r.WellFormed → ∀ before y : List Char,
    (∀ c ∈ before.head?, isBlank c = true) → (∀ c ∈ y.head?, isBlank c = true) →
    (segmentsFrom p 0 before (r.written ++ y)).flatMap g =
      ofRegion r ++ (segmentsFrom p 0 (r.written.reverse ++ before) y).flatMap g

/-- A pattern that matches at openings only is scanned for piece by piece. -/
theorem flatMap_scan {p : Pattern} (hp : AtOpenings p) {g : Segment → List α}
    {ofRegion : Region → List α} (hregion : ScansRegions p g ofRegion)
    {front back : List Piece} (h : WellMarked (front ++ back)) :
    (segmentsFrom p 0 (written front).reverse (written back)).flatMap g =
      back.flatMap (Piece.image (fun c => g (.plain c)) ofRegion) := by
  induction back generalizing front with
  | nil =>
    have hend : p.ends ⟨⟨(written front).reverse, []⟩, []⟩ = [] :=
      hp.elsewhere _ _ (by simp) (by simp)
    rw [written_nil, segmentsFrom_nil hend]
    rfl
  | cons piece back ih =>
    have hnext : WellMarked (front ++ [piece] ++ back) := by
      rw [List.append_assoc]
      exact h
    have hrest := ih hnext
    rw [reverse_written_concat] at hrest
    rw [written_cons, List.flatMap_cons, ← hrest]
    cases piece with
    | plain s =>
      have hquiet := quiet_of_silent hp h.silent (written front).reverse
      rw [Piece.written, segmentsFrom_of_quiet hquiet, List.flatMap_append, List.flatMap_map]
      rfl
    | region r => exact hregion r h.wellFormed _ _ h.blank_before h.blank_behind

theorem flatMap_segments {p : Pattern} (hp : AtOpenings p) {g : Segment → List α}
    {ofRegion : Region → List α} (hregion : ScansRegions p g ofRegion) {pieces : List Piece}
    (h : WellMarked pieces) :
    (p.segments (written pieces)).flatMap g =
      pieces.flatMap (Piece.image (fun c => g (.plain c)) ofRegion) :=
  flatMap_scan hp hregion (show WellMarked ([] ++ pieces) from h)

/-! ## Sections with a name -/

/-- What the scan for a section gives, where a match counts by its text and its text inside. -/
theorem flatMap_segments_pattern {name : List Char} (hname : IsName name)
    (ofChar : Char → List α) (ofMatch : List Char → List Char → List α) {pieces : List Piece}
    (h : WellMarked pieces) :
    ((pattern name).segments (written pieces)).flatMap (fun
        | .plain c => ofChar c
        | .found m => ofMatch m.text (inner m)) =
      pieces.flatMap (Piece.image ofChar fun r =>
        if r.name = name then ofMatch r.written r.body else r.written.flatMap ofChar) := by
  refine flatMap_segments (atOpenings_pattern name) (fun r hr before y hbefore hy => ?_) h
  by_cases hsame : r.name = name
  · subst hsame
    obtain ⟨t, ht, hafter, hinner⟩ := exists_end_pattern hr hbefore hy
    rw [segmentsFrom_of_match r.written_ne_nil ht hafter, List.flatMap_cons, if_pos rfl]
    simp only [hinner]
  · have hquiet := quiet_of_name_ne hname hr (fun heq => hsame heq.symm) hy before
    rw [segmentsFrom_of_quiet hquiet, List.flatMap_append, List.flatMap_map, if_neg hsame]

/-- A section is revealed by putting the text inside in the place of the regions with the name. -/
theorem reveal_written {name : List Char} (hname : IsName name) {pieces : List Piece}
    (h : WellMarked pieces) :
    reveal name (written pieces) = written (pieces.map (Piece.reveal name)) := by
  have hscan := flatMap_segments_pattern hname (fun c => [c]) (fun _ inside => inside) h
  have himage : ∀ piece ∈ pieces, Piece.image (fun c => [c])
      (fun r => if r.name = name then r.body else r.written.flatMap fun c => [c]) piece =
        (piece.reveal name).written := by
    rintro (s | r) -
    · simp [Piece.image, Piece.reveal, Piece.written]
    · simp only [Piece.image, Piece.reveal, List.flatMap_singleton']
      split <;> rfl
  refine hscan.trans ?_
  rw [List.flatMap_congr himage, written, List.flatMap_map]

/-- A section is removed by dropping the regions with the name. -/
theorem remove_written {name : List Char} (hname : IsName name) {pieces : List Piece}
    (h : WellMarked pieces) :
    remove name (written pieces) =
      written (pieces.filter fun piece => piece.name? ≠ some name) := by
  have hscan := flatMap_segments_pattern hname (fun c => [c]) (fun _ _ => []) h
  refine hscan.trans ?_
  clear hscan h
  induction pieces with
  | nil => rfl
  | cons piece pieces ih =>
    rw [List.flatMap_cons, ih]
    cases piece with
    | plain s => simp [Piece.image, Piece.name?, Piece.written]
    | region r =>
      by_cases hsame : r.name = name
      · simp [Piece.image, Piece.name?, hsame]
      · simp [Piece.image, Piece.name?, Piece.written, hsame]

/-- A section occurs if a region has the name. -/
theorem occurs_written {name : List Char} (hname : IsName name) {pieces : List Piece}
    (h : WellMarked pieces) :
    occurs name (written pieces) = true ↔ ∃ r, .region r ∈ pieces ∧ r.name = name := by
  have hscan := flatMap_segments_pattern hname (fun _ => []) (fun _ _ => [()]) h
  have hany : occurs name (written pieces) =
      ((pattern name).segments (written pieces)).any fun seg =>
        (match seg with
          | .plain _ => []
          | .found _ => [()]).any fun _ => true := by
    unfold occurs Pattern.occursIn
    congr 1
    funext seg
    cases seg <;> rfl
  rw [hany, ← List.any_flatMap, hscan, List.any_flatMap, List.any_eq_true]
  constructor
  · rintro ⟨s | r, hmem, hhere⟩
    · simp [Piece.image] at hhere
    · refine ⟨r, hmem, ?_⟩
      by_contra hne
      simp [Piece.image, hne] at hhere
  · rintro ⟨r, hmem, hsame⟩
    exact ⟨.region r, hmem, by simp [Piece.image, hsame]⟩

/-! ## The list of sections -/

/-- Every region opens its section. -/
theorem openedNames_written {pieces : List Piece} (h : WellMarked pieces) :
    openedNames (written pieces) = pieces.filterMap Piece.name? := by
  have hregion : ScansRegions openingPattern
      (fun seg => (seg.match?.bind (·.group? 1)).toList) fun r => [r.name] := by
    intro r hr before y hbefore hy
    obtain ⟨t, ht, hafter, hgroup⟩ := exists_end_openingPattern hr.isName (hr.isOpening hbefore)
      fun c hc => nameChar_of_isBlank (hr.head_remainder y c hc)
    have hquiet := quiet_remainder atOpenings_openingPattern hr hy (r.opening.reverse ++ before)
    rw [Region.written, List.append_assoc, segmentsFrom_of_match r.opening_ne_nil ht hafter,
      List.flatMap_cons, segmentsFrom_of_quiet hquiet, List.flatMap_append, List.flatMap_map]
    simp [Segment.match?, hgroup]
  have hscan := flatMap_segments atOpenings_openingPattern hregion h
  have himage : ∀ piece ∈ pieces, Piece.image (fun c => ((Segment.plain c).match?.bind
      (·.group? 1)).toList) (fun r => [r.name]) piece = piece.name?.toList := by
    rintro (s | r) -
    · simp [Piece.image, Piece.name?, Segment.match?]
    · rfl
  unfold openedNames findAll
  rw [List.filterMap_filterMap, List.filterMap_eq_flatMap_toList, hscan,
    List.flatMap_congr himage, List.filterMap_eq_flatMap_toList]

/-- The list of sections has the opened names under which a section is there, each of them once. -/
theorem names_eq (content : List Char) :
    names content = ((openedNames content).filter fun name => occurs name content).eraseDups := by
  have hstep : nameStep content = addNew fun name => occurs name content := by
    funext listed name
    unfold nameStep addNew
    rw [Bool.and_comm]
  rw [names, hstep, foldl_addNew]

/-- The sections are listed by the first appearances of their names. -/
theorem names_written {pieces : List Piece} (h : WellMarked pieces) :
    names (written pieces) = (pieces.filterMap Piece.name?).eraseDups := by
  have hthere : ∀ name ∈ openedNames (written pieces), occurs name (written pieces) = true := by
    intro name hname
    rw [openedNames_written h, List.mem_filterMap] at hname
    obtain ⟨s | r, hmem, hsome⟩ := hname
    · cases hsome
    · cases hsome
      exact (occurs_written (h.region r hmem).isName h).2 ⟨r, hmem, rfl⟩
  rw [names_eq, List.filter_eq_self.2 hthere, openedNames_written h]

/-- **The sections of a well-marked text are its regions.**  The list of sections has the names of
the regions in the order of their first appearance, and for every name a section occurs if a region
has the name, removing it drops the regions with the name, and revealing it puts the text inside in
their place and leaves everything else. -/
theorem sections_written {pieces : List Piece} (h : WellMarked pieces) :
    names (written pieces) = (pieces.filterMap Piece.name?).eraseDups ∧
      ∀ name, IsName name →
        (occurs name (written pieces) = true ↔ ∃ r, .region r ∈ pieces ∧ r.name = name) ∧
        remove name (written pieces) =
          written (pieces.filter fun piece => piece.name? ≠ some name) ∧
        reveal name (written pieces) = written (pieces.map (Piece.reveal name)) :=
  ⟨names_written h, fun _ hname =>
    ⟨occurs_written hname h, remove_written hname h, reveal_written hname h⟩⟩

/-- A letter with the section `terms` in both forms, and another one whose name begins so. -/
def letter : List Piece :=
  [.plain "Hello ".toList,
    .region
      (.commented "terms".toList " 30 days ".toList ⟨[' '], [' '], ['\n']⟩ ⟨[], [' '], [' ']⟩),
    .plain "\n".toList,
    .region (.bare "terms.v2".toList "14 days".toList [' '] [' '] ['\n'] [' ']),
    .plain "\n".toList,
    .region (.bare "terms".toList [] [' '] [' '] [' '] [' '])]

theorem wellMarked_letter : WellMarked letter where
  plain := by
    intro s hs
    simp only [letter, List.mem_cons, List.not_mem_nil, or_false, reduceCtorEq, false_or,
      Piece.plain.injEq] at hs
    rcases hs with rfl | rfl | rfl <;> decide
  region := by
    intro r hr
    simp only [letter, List.mem_cons, List.not_mem_nil, or_false, reduceCtorEq, false_or,
      Piece.region.injEq] at hr
    rcases hr with rfl | rfl | rfl <;> decide
  apart := by
    intro front s t back h
    simp [letter, List.cons_eq_append_iff] at h
  spaced := by
    intro front r back h
    simp only [letter, List.cons_eq_append_iff, List.nil_eq_append_iff, List.cons.injEq,
      reduceCtorEq, Piece.region.injEq, false_and, and_false, exists_false, false_or, or_false] at h
    obtain ⟨_, rfl, ⟨rfl, -, rfl⟩ |
      ⟨_, rfl, _, rfl, ⟨rfl, -, rfl⟩ | ⟨_, rfl, _, rfl, rfl, -, rfl⟩⟩⟩ := h
    · exact ⟨fun c hc => by cases hc; rfl, fun c hc => by cases hc; rfl⟩
    · exact ⟨fun c hc => by cases hc; rfl, fun c hc => by cases hc; rfl⟩
    · exact ⟨fun c hc => by cases hc; rfl, fun c hc => by cases hc⟩

theorem sections_written_letter :
    names (written letter) = ["terms".toList, "terms.v2".toList] ∧
      occurs "terms".toList (written letter) = true ∧
      remove "terms".toList (written letter) =
        "Hello \nBEGIN terms.v2 14 days\nEND terms.v2\n".toList ∧
      reveal "terms".toList (written letter) =
        "Hello  30 days \nBEGIN terms.v2 14 days\nEND terms.v2\n".toList := by
  obtain ⟨hnames, hsections⟩ := sections_written wellMarked_letter
  obtain ⟨hoccurs, hremove, hreveal⟩ := hsections "terms".toList (by decide)
  refine ⟨hnames.trans (by decide), hoccurs.2 ?_, hremove.trans (by decide),
    hreveal.trans (by decide)⟩
  exact ⟨.bare "terms".toList [] [' '] [' '] [' '] [' '], by simp [letter], rfl⟩

end Stencil.Section
