import Stencil.Proofs.Section.Extending

/-!
# Templates to which sections are added

Sections are added to a template one after the other (`Addition`, `addAll`); an addition that is
refused leaves it as it was (`after_cases`).  The additions keep what the template records: its
names are distinct and listed in its content (`Recorded.after`), whatever the added texts hold.
Each recorded entry is the one of the latest addition with its name, and the content and the list
of its sections only grow (`addAll_recorded`).
-/

namespace Stencil.Template

open Section Text

structure Addition where
  name : String
  content : String
  rules : List Rule := []

/-- The entry that records the added section, if the call is accepted: its name is one of a section,
but for blanks around it, and its text is not blank. -/
def Addition.entry? (a : Addition) : Option Section :=
  if IsName (strip a.name.toList) ∧ allBlank a.content.toList = false then
    some ⟨String.ofList (strip a.name.toList), a.rules⟩
  else none

/-- The call is accepted and has that name, but for blanks around it. -/
def Addition.IsFor (a : Addition) (name : String) : Prop := ∃ s, a.entry? = some s ∧ s.name = name

/-- The template after a call.  A call that is refused leaves it as it was. -/
def after (t : Template) (a : Addition) : Template :=
  match t.addSection a.name a.content a.rules with
  | .ok t' => t'
  | .error _ => t

def addAll (t : Template) (calls : List Addition) : Template := calls.foldl after t

/-- The recorded names are distinct, and the content lists them. -/
structure Recorded (t : Template) : Prop where
  nodup : (t.sections.map (·.name)).Nodup
  listed : ∀ s ∈ t.sections, s.name.toList ∈ names t.content.toList

/-- The text goes on from an earlier one, and what that one lists is listed in the same order. -/
structure GoesOn (earlier later : List Char) : Prop where
  isPrefix : earlier <+: later
  sublist : (names earlier).Sublist (names later)

theorem GoesOn.refl (s : List Char) : GoesOn s s := ⟨List.prefix_refl s, List.Sublist.refl _⟩

theorem GoesOn.trans {s s' s'' : List Char} (h : GoesOn s s') (h' : GoesOn s' s'') :
    GoesOn s s'' :=
  ⟨h.isPrefix.trans h'.isPrefix, h.sublist.trans h'.sublist⟩

/-! ## One call -/

/-- A call is accepted with its entry or refused without one. -/
theorem after_cases (t : Template) (a : Addition) :
    (∃ s, a.entry? = some s ∧ IsName s.name.toList ∧
      t.addSection a.name a.content a.rules = .ok (t.appendSection s.name a.content s.rules) ∧
      t.after a = t.appendSection s.name a.content s.rules) ∨
    (a.entry? = none ∧ (∃ e, t.addSection a.name a.content a.rules = .error e) ∧
      t.after a = t) := by
  unfold after Addition.entry?
  cases h : t.addSection a.name a.content a.rules with
  | ok t' =>
    obtain ⟨hname, hcontent, rfl⟩ := addSection_eq_ok_iff.1 h
    rw [if_pos ⟨hname, hcontent⟩]
    refine .inl ⟨_, rfl, ?_, rfl, rfl⟩
    rwa [String.toList_ofList]
  | error e =>
    refine .inr ⟨if_neg ?_, ⟨e, rfl⟩, rfl⟩
    rintro ⟨hname, hcontent⟩
    rw [addSection_eq_ok_iff.2 ⟨hname, hcontent, rfl⟩] at h
    cases h

/-- The added section stands at the end of the content, behind blanks or at the beginning. -/
theorem toList_content_appendSection (t : Template) (name content : String) (rules : List Rule) :
    ∃ gap, allBlank gap = true ∧ (t.appendSection name content rules).content.toList =
      t.content.toList ++ (gap ++ (commentText "BEGIN" name.toList oneBlank ++
        (content.toList ++ commentText "END" name.toList oneBlank))) := by
  obtain ⟨gap, hgap, hfront⟩ := t.toList_front
  refine ⟨gap, hgap, ?_⟩
  rw [content_appendSection, String.toList_append, hfront, toList_block, List.append_assoc]

theorem goesOn_appendSection (t : Template) (name content : String) (rules : List Rule) :
    GoesOn t.content.toList (t.appendSection name content rules).content.toList := by
  obtain ⟨gap, hgap, htext⟩ := t.toList_content_appendSection name content rules
  rw [htext]
  exact ⟨List.prefix_append _ _, sublist_names_append hgap _⟩

theorem mem_sections_appendSection {t : Template} {name content : String} {rules : List Rule}
    {s : Section} :
    s ∈ (t.appendSection name content rules).sections ↔
      (s ∈ t.sections ∧ s.name ≠ name) ∨ s = ⟨name, rules⟩ := by
  simp [appendSection]

theorem Recorded.append {t : Template} (h : t.Recorded) {name : String}
    (hname : IsName name.toList) (content : String) (rules : List Rule) :
    (t.appendSection name content rules).Recorded where
  nodup := by
    have hkept : ((t.sections.filter fun s => s.name ≠ name).map (·.name)).Nodup :=
      h.nodup.sublist (List.filter_sublist.map _)
    have hnew : name ∉ (t.sections.filter fun s => s.name ≠ name).map (·.name) := by
      simp
    unfold appendSection
    rw [List.map_append, List.map_singleton, ← List.concat_eq_append]
    exact hkept.concat hnew
  listed := by
    intro s hs
    obtain ⟨gap, hgap, htext⟩ := t.toList_content_appendSection name content rules
    rcases mem_sections_appendSection.1 hs with ⟨hs, -⟩ | rfl
    · exact (t.goesOn_appendSection name content rules).sublist.subset (h.listed s hs)
    · rw [htext]
      exact mem_names_added hgap hname _ _

theorem Recorded.after {t : Template} (h : t.Recorded) (a : Addition) : (t.after a).Recorded := by
  rcases t.after_cases a with ⟨s, -, hname, -, hafter⟩ | ⟨-, -, hafter⟩
  · rw [hafter]
    exact h.append hname a.content s.rules
  · rw [hafter]
    exact h

theorem mem_names_after {t : Template} {a : Addition} {name : String} :
    name ∈ (t.after a).sections.map (·.name) ↔ name ∈ t.sections.map (·.name) ∨ a.IsFor name := by
  rcases t.after_cases a with ⟨s, hentry, -, -, hafter⟩ | ⟨hrefused, -, hafter⟩
  · have hname : a.IsFor name ↔ s.name = name := by
      rw [Addition.IsFor, hentry]
      simp
    rw [hafter, hname]
    simp only [List.mem_map, mem_sections_appendSection]
    constructor
    · rintro ⟨s', ⟨hs', -⟩ | rfl, hsame⟩
      · exact .inl ⟨s', hs', hsame⟩
      · exact .inr hsame
    · intro h
      by_cases hsame : s.name = name
      · exact ⟨_, .inr rfl, hsame⟩
      · obtain ⟨s', hs', rfl⟩ := h.resolve_right hsame
        exact ⟨s', .inl ⟨hs', fun heq => hsame heq.symm⟩, rfl⟩
  · have hname : ¬ a.IsFor name := by
      rw [Addition.IsFor, hrefused]
      simp
    rw [hafter, or_iff_left hname]

theorem goesOn_after (t : Template) (a : Addition) :
    GoesOn t.content.toList (t.after a).content.toList := by
  rcases t.after_cases a with ⟨s, -, -, -, hafter⟩ | ⟨-, -, hafter⟩
  · rw [hafter]
    exact t.goesOn_appendSection s.name a.content s.rules
  · rw [hafter]
    exact .refl _

/-! ## All calls -/

theorem Recorded.addAll {t : Template} (h : t.Recorded) (calls : List Addition) :
    (t.addAll calls).Recorded := by
  induction calls generalizing t with
  | nil => exact h
  | cons a calls ih => exact ih (h.after a)

theorem goesOn_addAll (t : Template) (calls : List Addition) :
    GoesOn t.content.toList (t.addAll calls).content.toList := by
  induction calls generalizing t with
  | nil => exact .refl _
  | cons a calls ih => exact (t.goesOn_after a).trans (ih (t.after a))

/-- A recorded entry is the one of the latest call for its name; it was there before if there was no
such call. -/
theorem entry_of_mem_sections {t : Template} {calls : List Addition} {s : Section}
    (hs : s ∈ (t.addAll calls).sections) :
    (∃ front a back, calls = front ++ a :: back ∧ a.entry? = some s ∧
      ∀ b ∈ back, ¬ b.IsFor s.name) ∨
    (s ∈ t.sections ∧ ∀ a ∈ calls, ¬ a.IsFor s.name) := by
  induction calls generalizing t with
  | nil => exact .inr ⟨hs, by simp⟩
  | cons a calls ih =>
    -- a later call for the name decides, and without one the first call or what was there before
    rcases ih hs with ⟨front, b, back, rfl, hentry, hback⟩ | ⟨hs, hnone⟩
    · exact .inl ⟨a :: front, b, back, rfl, hentry, hback⟩
    · rcases t.after_cases a with ⟨s', hentry, -, -, hafter⟩ | ⟨hrefused, -, hafter⟩
      · rw [hafter] at hs
        rcases mem_sections_appendSection.1 hs with ⟨hs, hne⟩ | rfl
        · refine .inr ⟨hs, List.forall_mem_cons.2 ⟨?_, hnone⟩⟩
          rintro ⟨s'', hentry', hname⟩
          rw [hentry] at hentry'
          cases hentry'
          exact hne hname.symm
        · exact .inl ⟨[], a, calls, rfl, hentry, hnone⟩
      · rw [hafter] at hs
        refine .inr ⟨hs, List.forall_mem_cons.2 ⟨?_, hnone⟩⟩
        rintro ⟨s', hentry, -⟩
        rw [hrefused] at hentry
        cases hentry

/-- The recorded names are those that were there before and those of the calls. -/
theorem mem_names_addAll {t : Template} {calls : List Addition} {name : String} :
    name ∈ (t.addAll calls).sections.map (·.name) ↔
      name ∈ t.sections.map (·.name) ∨ ∃ a ∈ calls, a.IsFor name := by
  induction calls generalizing t with
  | nil => simp [Template.addAll]
  | cons a calls ih =>
    have hrun : t.addAll (a :: calls) = (t.after a).addAll calls := rfl
    rw [hrun, ih, mem_names_after, List.exists_mem_cons_iff, or_assoc]

/-- **Authoring keeps the record.**  Let the names that a template records be distinct and listed in
its content.  This is so after any calls, whatever their texts hold; a call is accepted or refused
whatever the template is.  Each recorded entry is the one of the latest call for its name, or it was
there before and there was no such call; the calls are all recorded.  From any point on the content
only goes on, and what it listed there is still listed, in the same order. -/
theorem addAll_recorded {t : Template} (h : t.Recorded) (calls : List Addition) :
    let t' := t.addAll calls
    t'.Recorded ∧
    (∀ (q : Template) (a : Addition),
      (∃ q', q.addSection a.name a.content a.rules = .ok q') ↔ a.entry?.isSome) ∧
    (∀ s ∈ t'.sections,
      (∃ front a back, calls = front ++ a :: back ∧ a.entry? = some s ∧
        ∀ b ∈ back, ¬ b.IsFor s.name) ∨
      (s ∈ t.sections ∧ ∀ a ∈ calls, ¬ a.IsFor s.name)) ∧
    (∀ name, name ∈ t'.sections.map (·.name) ↔
      name ∈ t.sections.map (·.name) ∨ ∃ a ∈ calls, a.IsFor name) ∧
    ∀ earlier later, calls = earlier ++ later →
      GoesOn (t.addAll earlier).content.toList t'.content.toList := by
  intro t'
  refine ⟨h.addAll calls, fun q a => ?_, fun s hs => entry_of_mem_sections hs,
    fun name => mem_names_addAll, ?_⟩
  · rcases q.after_cases a with ⟨s, hentry, -, hadd, -⟩ | ⟨hrefused, ⟨e, hadd⟩, -⟩
    · simp [hentry, hadd]
    · simp [hrefused, hadd]
  · rintro earlier later rfl
    have hrun : t' = (t.addAll earlier).addAll later := List.foldl_append
    rw [hrun]
    exact goesOn_addAll _ later

/-- An added text closes a section that was opened before, and the marker of another one; a call is
refused; and a section is added once more. -/
theorem addAll_recorded_letter :
    let rule : String → Rule := fun action => { action }
    let t : Template :=
      { content := "BEGIN fees 3%\n<!-- BEGIN terms --> 30 days <!-- END terms -->"
        sections := [⟨"terms", [rule "include"]⟩] }
    let calls : List Addition :=
      [⟨" fees ", "4% END fees <!-- END terms -->", [rule "include"]⟩, ⟨"fees!", "5%", []⟩,
        ⟨"terms", "<!-- BEGIN fees -->", [rule "exclude"]⟩]
    let t' := t.addAll calls
    t.Recorded ∧ t'.Recorded ∧
      t'.sections.map (fun s => (s.name, s.rules.map (·.action))) =
        [("fees", ["include"]), ("terms", ["exclude"])] ∧
      names t.content.toList = ["terms".toList] ∧
      names t'.content.toList = ["fees".toList, "terms".toList] ∧
      GoesOn t.content.toList t'.content.toList := by
  intro rule t calls t'
  have hnames : names t.content.toList = ["terms".toList] := by decide +kernel
  have hrecorded : t.Recorded := by
    refine ⟨List.nodup_singleton _, fun s hs => ?_⟩
    obtain rfl := List.mem_singleton.1 hs
    rw [hnames]
    exact List.mem_cons_self
  obtain ⟨hkept, -, -, -, hgoesOn⟩ := addAll_recorded hrecorded calls
  exact ⟨hrecorded, hkept, by decide +kernel, hnames, by decide +kernel, hgoesOn [] calls rfl⟩

end Stencil.Template
