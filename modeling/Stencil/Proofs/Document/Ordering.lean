import Mathlib.Data.List.Sublists
import Stencil.Proofs.Document.Bindings
import Stencil.Proofs.Text.Replacing

/-!
# Values in another order

Values that are given are put in the places of their placeholders one after the other, so that a
value takes part in the replacements behind it.  The bindings are those of the given values in any
order (`bindings_create`).  The content is the same as well if the values do not touch each other's
placeholders (`Text.Independent`): then all of them are put in their places at once (`create_perm`).
-/

namespace Stencil

namespace Template

/-- The placeholder of the variable with the given name. -/
def placeholder (t : Template) (name : String) : List Char :=
  ((t.vars.find? fun v => v.name = name).map fun v => v.rawPattern.toList).getD []

/-- What a binding replaces in the content of a template. -/
def swap (t : Template) (b : Binding) : Text.Swap := ⟨t.placeholder b.name, b.value.toList⟩

/-- The variable of a binding has the placeholder that the binding replaces. -/
theorem swap_bind {t : Template} (hvars : (t.vars.map (·.name)).Nodup) {v : Variable}
    (hv : v ∈ t.vars) (value : String) :
    t.swap (v.bind value) = ⟨v.rawPattern.toList, value.toList⟩ := by
  have hfind : t.vars.find? (fun w => w.name = (v.bind value).name) = some v :=
    find?_of_nodup hvars hv
  rw [swap, placeholder, hfind]
  rfl

end Template

/-- The bindings of a document replace the placeholders of their variables. -/
theorem Document.Filled.putAll_eq {t : Template} {bs : List Binding} (h : Filled t bs)
    (hvars : (t.vars.map (·.name)).Nodup) (hraw : ∀ v ∈ t.vars, v.rawPattern.toList ≠ [])
    (s : List Char) : Binding.putAll bs s = bs.foldl (fun s b => (t.swap b).apply s) s := by
  refine List.foldl_ext _ _ s fun s b hb => ?_
  obtain ⟨v, hv, value, rfl⟩ := h.bound b hb
  show Binding.putAll [v.bind value] s = _
  rw [Variable.putAll_bind, if_neg (by simpa using hraw v hv), Template.swap_bind hvars hv]
  rfl

/-! ## Any order -/

/-- **Values in another order.**  Values that are given in another order are bound in that order.
If they do not touch each other's placeholders, then in any order the content is that of the
template with all of them put in their places at once. -/
theorem create_perm {e : Extractor} (hcatalog : e.catalog = .standard)
    (hdetector : e.detector = none) (title : String) (s : List Char)
    {pairs pairs' : List (String × Value)} (hkeys : (pairs.map Prod.fst).Nodup)
    (hperm : pairs'.Perm pairs) (name : String) :
    let t := (e.prepare title s).1
    let d := Document.create t pairs name
    let d' := Document.create t pairs' name
    (d.bindings = pairs.filterMap t.binding? ∧ d'.bindings = pairs'.filterMap t.binding? ∧
        d'.bindings.Perm d.bindings) ∧
      (Text.Independent t.swap d.bindings t.content.toList →
        d'.content = d.content ∧ d.content = String.ofList
          ((Text.pieces (d.bindings.map t.swap) t.content.toList).flatMap Text.Piece.text)) := by
  intro t d d'
  have hkeys' : (pairs'.map Prod.fst).Nodup := (hperm.map Prod.fst).nodup_iff.2 hkeys
  have hbindings : d.bindings = pairs.filterMap t.binding? :=
    Document.bindings_create hkeys name
  have hbindings' : d'.bindings = pairs'.filterMap t.binding? :=
    Document.bindings_create hkeys' name
  have hsame : d'.bindings.Perm d.bindings := by
    rw [hbindings, hbindings']
    exact hperm.filterMap _
  refine ⟨⟨hbindings, hbindings', hsame⟩, fun hindependent => ?_⟩
  have hvars : (t.vars.map (·.name)).Nodup := e.nodup_names_prepare title s
  have hraw : ∀ v ∈ t.vars, v.rawPattern.toList ≠ [] := fun v hv =>
    Extractor.rawPattern_ne_nil hcatalog hdetector hv
  have hfilled : Document.Filled t d.bindings := Document.filled_create t pairs name
  have hparts : ∀ b ∈ d.bindings, (t.swap b).part ≠ [] := by
    intro b hb
    obtain ⟨v, hv, value, rfl⟩ := hfilled.bound b hb
    rw [Template.swap_bind hvars hv]
    exact hraw v hv
  have hnodup : d.bindings.Nodup := hfilled.nodup_names.of_map _
  have hcontent {order : List (String × Value)} (horder : (order.map Prod.fst).Nodup)
      (hpart : (Document.create t order name).bindings.Perm d.bindings) :
      (Document.create t order name).content = String.ofList
        ((Text.pieces (d.bindings.map t.swap) t.content.toList).flatMap Text.Piece.text) := by
    rw [Document.content_create horder,
      (Document.filled_create t order name).putAll_eq hvars hraw,
      hindependent.foldl_apply hparts hnodup hpart]
  exact ⟨(hcontent hkeys' hsame).trans (hcontent hkeys (List.Perm.refl _)).symm,
    hcontent hkeys (List.Perm.refl _)⟩

/-- Two names, one of them twice. -/
def twoNames : List Char := "\x7b\x7ba\x7d\x7d, \x7b\x7bb\x7d\x7d and \x7b\x7ba\x7d\x7d".toList

/-- A value with braces, a value without a variable, and an empty value. -/
def bracedValues : List (String × Value) :=
  [("a", .text "\x7bb\x7d"), ("c", .text "?"), ("b", .text "")]

theorem create_perm_letter :
    let t := (({} : Extractor).prepare "" twoNames).1
    let d := Document.create t bracedValues "letter"
    let d' := Document.create t bracedValues.reverse "letter"
    Text.Independent t.swap d.bindings t.content.toList ∧
      d'.bindings.Perm d.bindings ∧ d'.content = d.content ∧
      d.content = "\x7bb\x7d,  and \x7bb\x7d" := by
  intro t d d'
  have hkeys : (bracedValues.map Prod.fst).Nodup := by decide
  have hsame := create_perm (e := {}) rfl rfl "" twoNames hkeys bracedValues.reverse_perm "letter"
  have hindependent : Text.Independent t.swap d.bindings t.content.toList := by
    refine ⟨by decide +kernel, fun filled hsub => ?_⟩
    have hall : ∀ filled ∈ d.bindings.sublists, ∀ b ∈ d.bindings, b ∉ filled →
        Text.OnlyPrinted (t.swap b).part
          (Text.pieces (filled.map t.swap) t.content.toList) := by decide +kernel
    exact hall filled (List.mem_sublists.2 hsub)
  exact ⟨hindependent, hsame.1.2.2, (hsame.2 hindependent).1, by decide +kernel⟩

/-- The order matters where a value is another variable's placeholder, and where two placeholders
share underscores. -/
theorem create_depends_on_order :
    let t := (({} : Extractor).prepare "" "\x7b\x7ba\x7d\x7d \x7b\x7bb\x7d\x7d".toList).1
    let given : List (String × Value) := [("a", .text "\x7b\x7bb\x7d\x7d"), ("b", .text "x")]
    let u := (({} : Extractor).prepare "" "__a__ __b__ __a__b__".toList).1
    let plain : List (String × Value) := [("a", .text "A"), ("b", .text "B")]
    (Document.create t given "letter").content = "x x" ∧
      (Document.create t given.reverse "letter").content = "\x7b\x7bb\x7d\x7d x" ∧
      (Document.create u plain "letter").content = "A B Ab__" ∧
      (Document.create u plain.reverse "letter").content = "A B __aB" := by
  decide +kernel

end Stencil
