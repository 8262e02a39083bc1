import Stencil.Proofs.Listing
import Stencil.Proofs.Document.Written
import Stencil.Rule.Action

/-!
# Inserting texts

A target names a binding in front of its first colon (`splitTarget?_of_isTargetName`), and the
pattern that is written for a text asks for exactly that text.  So a list of insertions that gives
every binding the value it has already leaves the bindings as they are and puts the values into the
content one after the other (`apply_insertText_settled`).
-/

namespace Stencil

/-! ## Targets -/

/-- A text without blanks at its ends has nothing to strip. -/
theorem Text.strip_eq_self {s : List Char} (hhead : s.head?.any isBlank = false)
    (hlast : s.getLast?.any isBlank = false) : strip s = s := by
  have hkept : ∀ r : List Char, r.head?.any isBlank = false → r.dropWhile isBlank = r := by
    intro r hr
    cases r with
    | nil => rfl
    | cons c r =>
      rw [List.head?_cons, Option.any_some] at hr
      rw [List.dropWhile_cons_of_neg (by rw [hr]; exact Bool.false_ne_true)]
  rw [← List.head?_reverse] at hlast
  rw [strip, stripLeft, hkept s hhead, stripRight, hkept s.reverse hlast, List.reverse_reverse]

/-- The name can stand in front of the colon of a target: it is not empty, holds no colon and has no
blank at its ends. -/
structure IsTargetName (name : String) : Prop where
  nonempty : name ≠ ""
  noColon : ':' ∉ name.toList
  head : name.toList.head?.any Text.isBlank = false
  last : name.toList.getLast?.any Text.isBlank = false

instance (name : String) : Decidable (IsTargetName name) :=
  decidable_of_iff
    (name ≠ "" ∧ ':' ∉ name.toList ∧ name.toList.head?.any Text.isBlank = false ∧
      name.toList.getLast?.any Text.isBlank = false)
    ⟨fun ⟨hne, hcolon, hhead, hlast⟩ => ⟨hne, hcolon, hhead, hlast⟩,
      fun h => ⟨h.nonempty, h.noColon, h.head, h.last⟩⟩

/-- The target that gives a binding the value that it has. -/
def Binding.target (b : Binding) : String := b.name ++ ":" ++ b.value

theorem splitTarget?_of_isTargetName {name : String} (h : IsTargetName name) (text : String) :
    splitTarget? (.text (name ++ ":" ++ text)) = some (name, text) := by
  have hchars : (name ++ ":" ++ text).toList = name.toList ++ ':' :: text.toList := by simp
  have hname : name.toList.isEmpty = false := by simpa using h.nonempty
  rw [splitTarget?, hchars, Text.splitFirst?_append h.noColon]
  simp [Text.strip_eq_self h.head h.last, hname]

/-! ## Insertions that change no binding -/

/-- Setting a binding to the value that it has changes nothing. -/
theorem Binding.setFirst_eq_self {name : String} {bs : List Binding} {b : Binding}
    (h : bs.find? (fun b => b.name = name) = some b) : setFirst name b.value bs = bs := by
  induction bs with
  | nil => rfl
  | cons b' rest ih =>
    rw [List.find?_cons] at h
    by_cases hname : b'.name = name
    · simp only [hname, decide_true] at h
      cases h
      exact if_pos hname
    · simp only [hname, decide_false] at h
      simp [setFirst, hname, ih h]

/-- Puts the values of bindings in the places that their written patterns ask for, one after the
other. -/
def Binding.putAll (bs : List Binding) (content : List Char) : List Char :=
  bs.foldl (fun s b => Replacement.applyWritten b.writtenPattern.toList b.value.toList s) content

/-- One insertion of a value that the binding has already changes only the content. -/
theorem Draft.fill?_settled {bs : List Binding} (h : (bs.map (·.name)).Nodup) {b : Binding}
    (hb : b ∈ bs) (content : List Char) :
    fill? b.name b.value ⟨String.ofList content, bs⟩ =
      .ok ⟨String.ofList (Binding.putAll [b] content), bs⟩ := by
  have hfind := find?_of_nodup h hb
  simp [fill?, binding?, hfind, mapContent, Binding.setFirst_eq_self hfind, Binding.putAll]

/-- Insertions of values that the bindings have already leave the bindings as they are, put each
value into the content and skip no target. -/
theorem Action.apply_insertText_settled (source : TextSource) (ruleName : String)
    {bs : List Binding} (hnodup : (bs.map (·.name)).Nodup) {inserted : List Binding}
    (hsub : ∀ b ∈ inserted, b ∈ bs) (hnames : ∀ b ∈ inserted, IsTargetName b.name)
    (content : List Char) :
    let o := insertText.apply source ruleName (inserted.map fun b => .text b.target)
      ⟨String.ofList content, bs⟩
    o.draft = ⟨String.ofList (Binding.putAll inserted content), bs⟩ ∧ o.skipped = [] := by
  induction inserted generalizing content with
  | nil => exact ⟨rfl, rfl⟩
  | cons b rest ih =>
    have hsplit := splitTarget?_of_isTargetName (hnames b List.mem_cons_self) b.value
    have hfill := Draft.fill?_settled hnodup (hsub b List.mem_cons_self) content
    have hrest := ih (fun b' h' => hsub b' (List.mem_cons_of_mem b h'))
      (fun b' h' => hnames b' (List.mem_cons_of_mem b h')) (Binding.putAll [b] content)
    simp only [List.map_cons, apply, attempt, Binding.target, hsplit, hfill]
    exact hrest

end Stencil
