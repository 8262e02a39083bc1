import Mathlib.Logic.Function.Iterate
import Stencil.Proofs.Document.Addressing
import Stencil.Proofs.Document.Leftover
import Stencil.Proofs.Text.Occurring

/-!
# Inserting more than once

An insertion finds its place by the placeholder, which is not there any more once a text stands in
its place (`Text.not_isInfix_replaceAll`).  So of several texts that are inserted for one name the
first stands in the content, and the last is the value (`insertText_repeated`).  Only an empty text
may bring the characters on its two sides together to the placeholder, and leave a place for the
next one.
-/

namespace Stencil

/-! ## Replacing more than once -/

namespace Text

/-- Puts texts in the place of a part, one after the other. -/
def replaceEach (part : List Char) (texts : List String) (s : List Char) : List Char :=
  texts.foldl (fun s text => replaceAll part text.toList s) s

theorem replaceEach_cons (part : List Char) (text : String) (texts : List String) (s : List Char) :
    replaceEach part (text :: texts) s =
      replaceEach part texts (replaceAll part text.toList s) := rfl

/-- Without an occurrence there is nothing to replace, and none comes up. -/
theorem replaceEach_of_not_isInfix {part : List Char} (texts : List String) {s : List Char}
    (h : ¬ part <:+: s) : replaceEach part texts s = s := by
  induction texts with
  | nil => rfl
  | cons text texts ih => rw [replaceEach_cons, replaceAll_of_not_isInfix h, ih]

section

variable {part : List Char} (hpart : part ≠ [])

include hpart

/-- A text that is not empty leaves nothing to replace, if it has no character of what it stands in
the place of. -/
theorem not_isInfix_replaceAll {new : List Char} (hnew : new ≠ []) (hapart : ∀ c ∈ new, c ∉ part)
    (s : List Char) : ¬ part <:+: replaceAll part new s := by
  intro h
  have hinks : replaceAll part new s =
      (Ink.replaceFrom part new 0 (s.map .printed)).map Ink.char := by
    rw [Ink.map_char_replaceFrom, Ink.map_char_printed, replaceAll]
  rw [hinks] at h
  obtain ⟨k, hk, hchars⟩ := List.infix_map_iff.1 h
  -- no character of the occurrence comes from a text that was put in
  have hprinted : k = part.map .printed := by
    rw [hchars]
    refine Ink.eq_map_printed fun c hc => ?_
    have hmem : c ∈ part := by
      rw [hchars]
      exact List.mem_map_of_mem hc
    rcases Ink.mem_replaceFrom (hk.subset hc) with hbefore | ⟨d, hd, hfilled⟩
    · obtain ⟨d, -, hd⟩ := List.mem_map.1 hbefore
      cases hd
    · cases hfilled
      exact hapart c hd hmem
  exact (Ink.replaceFrom_printed hnew hpart (hprinted ▸ hk)).2 rfl

/-- Each empty text in front takes the occurrences out once, and the first text that is not empty
stays in the places that are left. -/
theorem replaceEach_eq {texts : List String} (hapart : ∀ text ∈ texts, ∀ c ∈ text.toList, c ∉ part)
    (s : List Char) :
    let left := (replaceAll part [])^[(texts.takeWhile (· = "")).length] s
    replaceEach part texts s =
      ((texts.find? (· ≠ "")).map fun text => replaceAll part text.toList left).getD left := by
  induction texts generalizing s with
  | nil => rfl
  | cons text texts ih =>
    rw [List.forall_mem_cons] at hapart
    by_cases hempty : text = ""
    · subst hempty
      simpa [replaceEach_cons] using ih hapart.2 (replaceAll part [] s)
    · have hnew : text.toList ≠ [] := by simpa using hempty
      have hgone := not_isInfix_replaceAll hpart hnew hapart.1 s
      have hrest := replaceEach_of_not_isInfix texts hgone
      simpa [replaceEach_cons, hempty] using hrest

end

end Text

/-! ## Insertions for one name -/

section

variable {b : Binding} {raw : List Char} (hraw : raw ≠ [])
  (hpattern : b.writtenPattern = String.ofList (Replacement.ofLiteral raw))

include hraw hpattern

/-- One insertion puts its text in the place of the placeholder and makes it the value. -/
theorem Draft.fill?_placeholder (text : String) (content : String) :
    Draft.fill? b.name text ⟨content, [b]⟩ =
      .ok ⟨String.ofList (Text.replaceAll raw text.toList content.toList),
        [{ b with value := text }]⟩ := by
  simp [Draft.fill?, Draft.binding?, Draft.mapContent, Binding.setFirst, hpattern,
    Replacement.applyWritten_ofLiteral hraw]

/-- Insertions for one name put their texts in the place of the placeholder, one after the other,
and the last one is the value. -/
theorem Action.apply_insertText_repeated (source : TextSource) (ruleName : String)
    (hname : IsTargetName b.name) (texts : List String) (content : String) :
    let o := insertText.apply source ruleName (texts.map fun text => .text (b.name ++ ":" ++ text))
      ⟨content, [b]⟩
    o.skipped = [] ∧
      o.draft = ⟨String.ofList (Text.replaceEach raw texts content.toList),
        [{ b with value := texts.getLast?.getD b.value }]⟩ := by
  induction texts generalizing b content with
  | nil => simp [apply, Text.replaceEach]
  | cons text texts ih =>
    have hsplit := splitTarget?_of_isTargetName hname text
    have hfill := Draft.fill?_placeholder hraw hpattern text content
    have hrest := ih (b := { b with value := text }) hpattern hname
      (String.ofList (Text.replaceAll raw text.toList content.toList))
    simp only [List.map_cons, apply, attempt, hsplit, hfill]
    simpa [Text.replaceEach_cons, List.getLast?_cons] using hrest

end

/-- Insertions for no name are skipped, and nothing changes. -/
theorem Action.apply_insertText_nameless (source : TextSource) (ruleName : String) {name : String}
    (hname : name = "") (texts : List String) (d : Draft) :
    let o := insertText.apply source ruleName (texts.map fun text => .text (name ++ ":" ++ text)) d
    o.draft = d ∧
      o.skipped = texts.map fun text => ⟨ruleName, "insertText", name ++ ":" ++ text, .noText⟩ := by
  subst hname
  induction texts with
  | nil => exact ⟨rfl, rfl⟩
  | cons text texts ih =>
    have hsplit := splitTarget?_colon text
    simp only [List.map_cons, apply, attempt, hsplit]
    exact ⟨ih.1, congrArg _ ih.2⟩

/-- **Inserting more than once.**  Of several texts that are inserted for one name, and have no
character of the placeholder, the last one is the value.  In the content each empty text in front
takes the occurrences of the placeholder out once, and the first text that is not empty stands in
the places that are left.  So if the first of all is not empty, or takes the placeholder out for
good, the content is that with the first text in the places of the placeholder; this is the value
only if the first text is the last one, unless there is no such place.  Without a name everything is
skipped. -/
theorem insertText_repeated (source : TextSource) (ruleName content : String) {b : Binding}
    {raw : List Char} (hraw : raw ≠ [])
    (hpattern : b.writtenPattern = String.ofList (Replacement.ofLiteral raw))
    (hcolon : ':' ∉ b.name.toList) (hhead : b.name.toList.head?.any Text.isBlank = false)
    (hlast : b.name.toList.getLast?.any Text.isBlank = false) {texts : List String}
    (hne : texts ≠ []) (hapart : ∀ text ∈ texts, ∀ c ∈ text.toList, c ∉ raw) :
    let o := Action.applyNamed source ruleName "insertText"
      (texts.map fun text => .text (b.name ++ ":" ++ text)) ⟨content, [b]⟩
    let put := fun (text : String) (s : List Char) => Text.replaceAll raw text.toList s
    let left := (Text.replaceAll raw [])^[(texts.takeWhile (· = "")).length] content.toList
    let first := texts.head hne
    let last := texts.getLast hne
    (b.name ≠ "" → o.skipped = [] ∧ o.draft.bindings = [{ b with value := last }] ∧
      o.draft.content.toList = ((texts.find? (· ≠ "")).map (put · left)).getD left ∧
      (first ≠ "" ∨ ¬ raw <:+: Text.replaceAll raw [] content.toList →
        o.draft.content.toList = put first content.toList ∧
        (o.draft.content.toList = put last content.toList ↔
          first = last ∨ ¬ raw <:+: content.toList))) ∧
    (b.name = "" → o.draft = ⟨content, [b]⟩ ∧
      o.skipped = texts.map fun text =>
        ⟨ruleName, "insertText", b.name ++ ":" ++ text, .noText⟩) := by
  intro o put left first last
  refine ⟨fun hname => ?_, fun hname =>
    Action.apply_insertText_nameless source ruleName hname texts ⟨content, [b]⟩⟩
  have hrun := Action.apply_insertText_repeated hraw hpattern source ruleName
    ⟨hname, hcolon, hhead, hlast⟩ texts content
  have hskipped : o.skipped = [] := hrun.1
  have hdraft : o.draft = ⟨String.ofList (Text.replaceEach raw texts content.toList),
      [{ b with value := texts.getLast?.getD b.value }]⟩ := hrun.2
  have hvalue : texts.getLast?.getD b.value = last := by
    rw [List.getLast?_eq_some_getLast hne, Option.getD_some]
  have hcontent : o.draft.content.toList = Text.replaceEach raw texts content.toList := by
    rw [hdraft, String.toList_ofList]
  refine ⟨hskipped, by rw [hdraft, hvalue],
    hcontent.trans (Text.replaceEach_eq hraw hapart content.toList), fun hfirst => ?_⟩
  have hgone : ¬ raw <:+: put first content.toList := by
    by_cases hempty : first = ""
    · rw [hempty]
      exact hfirst.resolve_left fun h => h hempty
    · exact Text.not_isInfix_replaceAll hraw (by simpa using hempty)
        (hapart first (List.head_mem hne)) content.toList
  have hput : o.draft.content.toList = put first content.toList := by
    rw [hcontent, ← List.cons_head_tail hne, Text.replaceEach_cons,
      Text.replaceEach_of_not_isInfix _ hgone]
  rw [hput]
  exact ⟨rfl, (Text.replaceAll_inj hraw).trans (or_congr_left String.toList_inj)⟩

/-- An empty text may leave a place for the next one, and a text that is not empty leaves none. -/
theorem insertText_repeated_nested :
    let b : Binding := ⟨"a", "", "/ab/g"⟩
    let inserted := fun texts : List String => Action.applyNamed {} "" "insertText"
      (texts.map fun text => .text (b.name ++ ":" ++ text)) ⟨"aabb ab", [b]⟩
    (inserted ["", "x", "y"]).draft.bindings = [{ b with value := "y" }] ∧
      (inserted ["", "x", "y"]).draft.content.toList = "x ".toList ∧
      (inserted ["x", "y"]).draft.bindings = [{ b with value := "y" }] ∧
      (inserted ["x", "y"]).draft.content.toList = "axb x".toList := by
  intro b inserted
  have hraw : "ab".toList ≠ [] := by decide
  have hpattern : b.writtenPattern = String.ofList (Replacement.ofLiteral "ab".toList) := by decide
  have hapart : ∀ text ∈ ["", "x", "y"], ∀ c ∈ text.toList, c ∉ "ab".toList := by simp
  have hmany := (insertText_repeated {} "" "aabb ab" hraw hpattern (by decide) (by decide)
    (by decide) (List.cons_ne_nil "" ["x", "y"]) hapart).1 (by decide)
  have htwo := (insertText_repeated {} "" "aabb ab" hraw hpattern (by decide) (by decide)
    (by decide) (List.cons_ne_nil "x" ["y"]) fun text h =>
      hapart text (List.mem_cons_of_mem "" h)).1 (by decide)
  exact ⟨hmany.2.1.trans rfl, hmany.2.2.1.trans (by decide), htwo.2.1.trans rfl,
    (htwo.2.2.2 (.inl (by decide))).1.trans (by decide)⟩

/-- Of two texts for one placeholder the first stands in the content and the second is the value. -/
theorem insertText_leaves_first :
    let b : Binding := ⟨"a", "", String.ofList (Replacement.ofLiteral "__a__".toList)⟩
    let o := Action.applyNamed {} "" "insertText" [.text "a:x", .text "a:y"] ⟨"__a__", [b]⟩
    o.draft = ⟨"x", [{ b with value := "y" }]⟩ ∧
      o.draft.content.toList ≠ Text.replaceAll "__a__".toList "y".toList "__a__".toList := by
  decide +kernel

end Stencil
