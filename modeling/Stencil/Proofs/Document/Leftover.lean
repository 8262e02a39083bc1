import Stencil.Proofs.Document.Filling
import Stencil.Proofs.Template.FillIns
import Stencil.Proofs.Template.Preparation

/-!
# What is left over when every variable is filled in

The characters of a personalized document are those of the template or those of the values that
were filled in (`Ink`, `Document.inks`).  Replacing a text leaves no copy of it that is printed in
the template, and prints nothing new (`Ink.replaceFrom_printed`).  So a placeholder that is left
over, if no value holds a delimiter, is formed around a value, or stands in the template under a
spelling that no variable has; unless it stands between underscores, its key is that of a variable
nevertheless (`personalize_leftOver`).
-/

namespace Stencil

open Placeholder

/-- A character of a document: one of the template, or one of a value that was filled in. -/
inductive Ink
  | printed (c : Char)
  | filled (c : Char)
  deriving DecidableEq

namespace Ink

/-- The character itself. -/
def char : Ink → Char
  | printed c => c
  | filled c => c

/-- Replaces the occurrences of `part` by a value, of which `skip` more characters belong to the
last one. -/
def replaceFrom (part new : List Char) : Nat → List Ink → List Ink
  | _, [] => []
  | skip + 1, _ :: rest => replaceFrom part new skip rest
  | 0, i :: rest =>
    if part.isPrefixOf ((i :: rest).map char) then
      new.map filled ++ replaceFrom part new (part.length - 1) rest
    else i :: replaceFrom part new 0 rest

theorem map_char_printed (s : List Char) : (s.map printed).map char = s := by
  rw [List.map_map]
  exact List.map_id s

theorem map_char_filled (s : List Char) : (s.map filled).map char = s := by
  rw [List.map_map]
  exact List.map_id s

theorem eq_map_printed {k : List Ink} (h : ∀ c, filled c ∉ k) : k = (k.map char).map printed := by
  induction k with
  | nil => rfl
  | cons i k ih =>
    rw [List.map_cons, List.map_cons, ← ih fun c hc => h c (List.mem_cons_of_mem i hc)]
    cases i with
    | printed c => rfl
    | filled c => exact absurd List.mem_cons_self (h c)

section

variable {part new : List Char}

/-- The characters are replaced as in the text. -/
theorem map_char_replaceFrom (skip : Nat) (s : List Ink) :
    (replaceFrom part new skip s).map char = Text.replaceFrom part new skip (s.map char) := by
  fun_induction replaceFrom part new skip s with
  | case1 => rw [List.map_nil, Text.replaceFrom]
  | case2 skip i rest ih => rw [ih, List.map_cons, Text.replaceFrom]
  | case3 i rest h ih =>
    rw [List.map_append, ih, map_char_filled, List.map_cons, Text.replaceFrom, ← List.map_cons,
      if_pos h]
  | case4 i rest h ih =>
    rw [List.map_cons, ih, List.map_cons, Text.replaceFrom, ← List.map_cons, if_neg h]

/-- What stands there afterwards stood there before or is part of the value. -/
theorem mem_replaceFrom {skip : Nat} {s : List Ink} {i : Ink}
    (h : i ∈ replaceFrom part new skip s) : i ∈ s ∨ ∃ c ∈ new, i = filled c := by
  fun_induction replaceFrom part new skip s with
  | case1 => exact .inl h
  | case2 skip j rest ih => exact (ih h).imp (List.mem_cons_of_mem j) id
  | case3 j rest _ ih =>
    rcases List.mem_append.1 h with h | h
    · obtain ⟨c, hc, rfl⟩ := List.mem_map.1 h
      exact .inr ⟨c, hc, rfl⟩
    · exact (ih h).imp (List.mem_cons_of_mem j) id
  | case4 j rest _ ih =>
    rcases List.mem_cons.1 h with rfl | h
    · exact .inl List.mem_cons_self
    · exact (ih h).imp (List.mem_cons_of_mem j) id

/-- Printed text behind a value is what is left of the value's text. -/
theorem isInfix_of_filled_append {w value : List Char} {s : List Ink} (hw : w ≠ [])
    (h : w.map printed <:+: value.map filled ++ s) : w.map printed <:+: s := by
  induction value with
  | nil => exact h
  | cons c value ih =>
    rw [List.map_cons, List.cons_append, List.infix_cons_iff] at h
    refine ih (h.resolve_left fun hp => ?_)
    obtain ⟨d, w, rfl⟩ := List.exists_cons_of_ne_nil hw
    exact absurd (List.cons_prefix_cons.1 hp).1 nofun

variable (hnew : new ≠ []) {w : List Char} (hw : w ≠ [])

include hnew in
theorem isPrefix_of_replaceFrom {s : List Ink} (h : w.map printed <+: replaceFrom part new 0 s) :
    w.map printed <+: s := by
  induction s generalizing w with
  | nil => exact h
  | cons i s ih =>
    cases w with
    | nil => exact List.nil_prefix
    | cons c w =>
      rw [replaceFrom] at h
      split at h
      · -- a value begins here
        obtain ⟨d, value, rfl⟩ := List.exists_cons_of_ne_nil hnew
        exact absurd (List.cons_prefix_cons.1 h).1 nofun
      · obtain ⟨hi, h⟩ := List.cons_prefix_cons.1 h
        exact List.cons_prefix_cons.2 ⟨hi, ih h⟩

include hnew hw

/-- Whatever is printed afterwards was printed before, and is no copy of the replaced text. -/
theorem replaceFrom_printed {skip : Nat} {s : List Ink}
    (h : w.map printed <:+: replaceFrom part new skip s) : w.map printed <:+: s ∧ w ≠ part := by
  fun_induction replaceFrom part new skip s with
  | case1 => exact absurd (List.map_eq_nil_iff.1 (List.infix_nil.1 h)) hw
  | case2 skip i rest ih => exact (ih h).imp List.infix_cons id
  | case3 i rest _ ih => exact (ih (isInfix_of_filled_append hw h)).imp List.infix_cons id
  | case4 i rest hpart ih =>
    rcases List.infix_cons_iff.1 h with hp | h
    · have hreplaced : replaceFrom part new 0 (i :: rest) = i :: replaceFrom part new 0 rest := by
        rw [replaceFrom, if_neg hpart]
      have hbefore := isPrefix_of_replaceFrom hnew (hreplaced ▸ hp)
      refine ⟨hbefore.isInfix, ?_⟩
      rintro rfl
      -- it would have been replaced here
      have hchars := hbefore.map char
      rw [map_char_printed] at hchars
      exact hpart (List.isPrefixOf_iff_prefix.2 hchars)
    · exact (ih h).imp List.infix_cons id

end

end Ink

namespace Document

def inkOwn (p : Profile) (s : List Ink) (v : Variable) : List Ink :=
  match ownValue? p v with
  | some value =>
    if v.rawPattern.isEmpty then s else Ink.replaceFrom v.rawPattern.toList value.toList 0 s
  | none => s

/-- The content of a personalized document, with the origin of each character. -/
def inks (t : Template) (p : Profile) : List Ink :=
  t.vars.foldl (inkOwn p) (t.content.toList.map .printed)

section

variable {p : Profile} {v : Variable}

theorem inkOwn_eq {value : String} (h : ownValue? p v = some value) (s : List Ink) :
    inkOwn p s v =
      if v.rawPattern.isEmpty then s
      else Ink.replaceFrom v.rawPattern.toList value.toList 0 s := by
  simp only [inkOwn, h]

theorem map_char_inkOwn (s : List Ink) (bs : List Binding) :
    (inkOwn p s v).map Ink.char = (fillOwn p (s.map Ink.char, bs) v).1 := by
  cases h : ownValue? p v with
  | none => simp only [inkOwn, fillOwn, h]
  | some value =>
    rw [inkOwn_eq h, apply_ite (List.map Ink.char), Ink.map_char_replaceFrom]
    simp only [fillOwn, fillLiteral, h, Text.replaceAll]

theorem mem_inkOwn {s : List Ink} {c : Char} (h : .filled c ∈ inkOwn p s v) :
    .filled c ∈ s ∨ ∃ value, ownValue? p v = some value ∧ c ∈ value.toList := by
  cases hvalue : ownValue? p v with
  | none =>
    simp only [inkOwn, hvalue] at h
    exact .inl h
  | some value =>
    rw [inkOwn_eq hvalue] at h
    split at h
    · exact .inl h
    · refine (Ink.mem_replaceFrom h).imp id ?_
      rintro ⟨d, hd, hfilled⟩
      exact ⟨value, rfl, Ink.filled.inj hfilled ▸ hd⟩

theorem inkOwn_printed {value : String} (hvalue : ownValue? p v = some value) (hne : value ≠ "")
    {w : List Char} (hw : w ≠ []) {s : List Ink} (h : w.map .printed <:+: inkOwn p s v) :
    w.map .printed <:+: s ∧ w ≠ v.rawPattern.toList := by
  rw [inkOwn_eq hvalue] at h
  split at h
  · rename_i hraw
    refine ⟨h, fun heq => hw ?_⟩
    rw [heq]
    simpa using hraw
  · exact Ink.replaceFrom_printed (by simpa using hne) hw h

end

theorem map_char_inks (t : Template) (p : Profile) (timestamp : Option Timestamp) :
    (inks t p).map Ink.char = (personalize t p timestamp).content.toList := by
  have hwalk (vars : List Variable) (s : List Ink) (bs : List Binding) :
      (vars.foldl (inkOwn p) s).map Ink.char =
        (vars.foldl (fillOwn p) (s.map Ink.char, bs)).1 := by
    induction vars generalizing s bs with
    | nil => rfl
    | cons v vars ih =>
      rw [List.foldl_cons, List.foldl_cons, ih _ (fillOwn p (s.map Ink.char, bs) v).2,
        map_char_inkOwn s bs]
  show _ = (String.ofList (t.vars.foldl (fillOwn p) (t.content.toList, [])).1).toList
  rw [String.toList_ofList, inks, hwalk _ _ [], Ink.map_char_printed]

section

variable {t : Template} {p : Profile}

/-- Every character that is filled in is one of a value. -/
theorem mem_value_of_mem_inks {c : Char} (h : .filled c ∈ inks t p) :
    ∃ v ∈ t.vars, ∃ value, ownValue? p v = some value ∧ c ∈ value.toList := by
  have hwalk (vars : List Variable) (s : List Ink) (h : .filled c ∈ vars.foldl (inkOwn p) s) :
      .filled c ∈ s ∨ ∃ v ∈ vars, ∃ value, ownValue? p v = some value ∧ c ∈ value.toList := by
    induction vars generalizing s with
    | nil => exact .inl h
    | cons v vars ih =>
      rcases ih _ h with h | ⟨w, hw, hvalue⟩
      · exact (mem_inkOwn h).imp id fun hvalue => ⟨v, List.mem_cons_self, hvalue⟩
      · exact .inr ⟨w, List.mem_cons_of_mem v hw, hvalue⟩
  refine (hwalk _ _ h).resolve_left fun hmem => ?_
  obtain ⟨d, -, hd⟩ := List.mem_map.1 hmem
  cases hd

/-- What is printed in the document is printed in the template, and is no variable's placeholder. -/
theorem isInfix_of_printed_inks
    (hvalues : ∀ v ∈ t.vars, ∃ value, ownValue? p v = some value ∧ value ≠ "") {w : List Char}
    (hw : w ≠ []) (h : w.map .printed <:+: inks t p) :
    w <:+: t.content.toList ∧ ∀ v ∈ t.vars, w ≠ v.rawPattern.toList := by
  have hwalk (vars : List Variable) (s : List Ink)
      (hvalues : ∀ v ∈ vars, ∃ value, ownValue? p v = some value ∧ value ≠ "")
      (h : w.map .printed <:+: vars.foldl (inkOwn p) s) :
      w.map .printed <:+: s ∧ ∀ v ∈ vars, w ≠ v.rawPattern.toList := by
    induction vars generalizing s with
    | nil => exact ⟨h, fun v hv => absurd hv List.not_mem_nil⟩
    | cons v vars ih =>
      rw [List.forall_mem_cons] at hvalues
      obtain ⟨hstep, hlater⟩ := ih _ hvalues.2 h
      obtain ⟨value, hvalue, hne⟩ := hvalues.1
      obtain ⟨hbefore, hraw⟩ := inkOwn_printed hvalue hne hw hstep
      exact ⟨hbefore, List.forall_mem_cons.2 ⟨hraw, hlater⟩⟩
  obtain ⟨hprinted, hraws⟩ := hwalk _ _ hvalues h
  have hchars := hprinted.map Ink.char
  rw [Ink.map_char_printed, Ink.map_char_printed] at hchars
  exact ⟨hchars, hraws⟩

end

end Document

/-! ## Placeholders that are left over -/

/-- The characters that placeholders open and close with. -/
def delimiters : List Char := ['\x7b', '\x7d', '[', ']', '<', '>', '_']

/-- Every candidate opens and closes with a delimiter. -/
theorem Placeholder.delimiters_of_mem_findAll {s : List Char} {c : Candidate}
    (hc : c ∈ Catalog.standard.findAll s) :
    (∃ o ∈ delimiters, c.rawPattern.head? = some o) ∧
      ∃ z ∈ delimiters, c.rawPattern.getLast? = some z := by
  have hends {e : Enclosure} {inner : List Char} {o z : Char} (ho : o ∈ delimiters)
      (hopening : e.opening.head? = some o) (hz : z ∈ delimiters)
      (hclosing : e.closing.getLast? = some z) (hraw : c.rawPattern = e.token inner) :
      (∃ o ∈ delimiters, c.rawPattern.head? = some o) ∧
        ∃ z ∈ delimiters, c.rawPattern.getLast? = some z := by
    refine ⟨⟨o, ho, ?_⟩, z, hz, ?_⟩
    · rw [hraw, Enclosure.token, List.head?_append, hopening, Option.some_or]
    · rw [hraw, Enclosure.token, List.getLast?_append, List.getLast?_append, hclosing]
      rfl
  rcases mem_findAll_standard.1 hc with hfind | hfind | hfind | hfind
  · obtain ⟨-, inner, -, -, hraw, -⟩ := seeks_doubleBrace.of_mem_find sealed_doubleBrace hfind
    exact hends (by decide) rfl (by decide) rfl hraw
  · obtain ⟨-, inner, -, -, hraw, -⟩ := seeks_variableTag.of_mem_find sealed_variableTag hfind
    exact hends (o := '<') (z := '>') (by decide) rfl (by decide) rfl hraw
  · obtain ⟨-, inner, -, -, hraw, -⟩ := seeks_capsBracket.of_mem_find sealed_capsBracket hfind
    exact hends (by decide) rfl (by decide) rfl hraw
  · obtain ⟨inner, hraw⟩ := exists_token_of_mem_find_doubleUnderscore hfind
    exact hends (by decide) rfl (by decide) rfl hraw

/-- How a candidate `c` that stands as `k` in a document comes to be left over: the template prints
its ends, and either a value was filled in between, or the template prints all of it, and no
variable has it for its placeholder; unless it stands between underscores, its key is that of a
variable nevertheless. -/
structure LeftOver (t : Template) (c : Candidate) (k : List Ink) : Prop where
  opens : ∃ o, k.head? = some (.printed o)
  closes : ∃ z, k.getLast? = some (.printed z)
  reason : (∃ d, .filled d ∈ k) ∨
    (c.rawPattern <:+: t.content.toList ∧ (∀ v ∈ t.vars, c.rawPattern ≠ v.rawPattern.toList) ∧
      (c.matcher = "double_underscore" ∨ ∃ v ∈ t.vars, v.key = key c.name))

/-- The profile has a value for each variable, and none of the values holds a delimiter. -/
def Template.HasValues (t : Template) (p : Profile) : Prop :=
  ∀ v ∈ t.vars, ∃ value, Document.ownValue? p v = some value ∧ value ≠ "" ∧
    ∀ c ∈ value.toList, c ∉ delimiters

section

variable {t : Template} {p : Profile} (hvalues : t.HasValues p)

include hvalues

/-- Delimiters are printed. -/
theorem Template.HasValues.exists_printed {i : Ink} (hi : i ∈ Document.inks t p)
    (h : i.char ∈ delimiters) : ∃ c, i = .printed c := by
  cases i with
  | printed c => exact ⟨c, rfl⟩
  | filled c =>
    obtain ⟨v, hv, value, hvalue, hc⟩ := Document.mem_value_of_mem_inks hi
    obtain ⟨value', hvalue', -, hfree⟩ := hvalues v hv
    obtain rfl := Option.some.inj (hvalue.symm.trans hvalue')
    exact absurd h (hfree c hc)

/-- A candidate is left over if it has the key of a variable wherever the template prints it. -/
theorem Template.HasValues.leftOver {c : Candidate} {k : List Ink}
    {s : List Char} (hc : c ∈ Catalog.standard.findAll s) (hk : k <:+: Document.inks t p)
    (hraw : k.map Ink.char = c.rawPattern)
    (hkey : c.rawPattern <:+: t.content.toList → c.matcher ≠ "double_underscore" →
      ∃ v ∈ t.vars, v.key = key c.name) : LeftOver t c k := by
  obtain ⟨⟨o, ho, hopens⟩, z, hz, hcloses⟩ := delimiters_of_mem_findAll hc
  rw [← hraw, List.head?_map] at hopens
  rw [← hraw, List.getLast?_map] at hcloses
  obtain ⟨i, hfirst, rfl⟩ := Option.map_eq_some_iff.1 hopens
  obtain ⟨j, hlast, rfl⟩ := Option.map_eq_some_iff.1 hcloses
  obtain ⟨o, rfl⟩ := hvalues.exists_printed (hk.subset (List.mem_of_mem_head? hfirst)) ho
  obtain ⟨z, rfl⟩ := hvalues.exists_printed (hk.subset (List.mem_of_mem_getLast? hlast)) hz
  refine ⟨⟨o, hfirst⟩, ⟨z, hlast⟩, Classical.or_iff_not_imp_left.2 fun hfilled => ?_⟩
  have hprinted : k = c.rawPattern.map .printed := by
    rw [← hraw]
    exact Ink.eq_map_printed fun d hd => hfilled ⟨d, hd⟩
  have hne : c.rawPattern ≠ [] := by
    rintro hnil
    rw [hprinted, hnil] at hfirst
    cases hfirst
  obtain ⟨hcontent, hraws⟩ := Document.isInfix_of_printed_inks
    (fun v hv => (hvalues v hv).imp fun value h => ⟨h.1, h.2.1⟩) hne (hprinted ▸ hk)
  exact ⟨hcontent, hraws, Classical.or_iff_not_imp_left.2 (hkey hcontent)⟩

end

/-- **What filling in leaves over.**  Let a profile give each variable of a prepared template a
personal value without delimiters.  Wherever a candidate with a key then stands in the document, it
is left over for one of the reasons above. -/
theorem personalize_leftOver {e : Extractor} (hcatalog : e.catalog = .standard)
    (hdetector : e.detector = none) (name : String) (s : List Char) (p : Profile)
    (timestamp : Option Timestamp)
    (hgiven : ∀ v ∈ (e.prepare name s).1.vars, ∃ value, p.personalInfo.given? v.name = some value ∧
      ∀ c ∈ value.toList, c ∉ delimiters) :
    let t := (e.prepare name s).1
    let d := Document.personalize t p timestamp
    (Document.inks t p).map Ink.char = d.content.toList ∧
      ∀ c ∈ Catalog.standard.findAll d.content.toList, key c.name ≠ [] →
        (∃ k, k <:+: Document.inks t p ∧ k.map Ink.char = c.rawPattern) ∧
        ∀ k, k <:+: Document.inks t p → k.map Ink.char = c.rawPattern → LeftOver t c k := by
  intro t d
  have hvalues : t.HasValues p := by
    intro v hv
    obtain ⟨value, hvalue, hfree⟩ := hgiven v hv
    refine ⟨value, by rw [Document.ownValue?, hvalue, Option.some_or], ?_, hfree⟩
    obtain ⟨-, hne⟩ := Option.filter_eq_some_iff.1 hvalue
    simpa using hne
  have hchars : (Document.inks t p).map Ink.char = d.content.toList :=
    Document.map_char_inks t p timestamp
  refine ⟨hchars, fun c hc hkey => ⟨?_, fun k hk hraw => hvalues.leftOver hc hk hraw ?_⟩⟩
  · obtain ⟨m, -, hfind⟩ := List.mem_flatMap.1 hc
    rw [← hchars] at hfind
    obtain ⟨k, hk, hraw⟩ := List.infix_map_iff.1 (Matcher.isInfix_of_mem_find hfind)
    exact ⟨k, hk, hraw.symm⟩
  · intro hcontent hmatcher
    obtain ⟨inner, hfill, hinner⟩ := exists_fillIn_of_mem_findAll hc hmatcher
    have hnormal : t.content.toList = normalize s := String.toList_ofList
    rw [hnormal] at hcontent
    rw [hinner] at hkey ⊢
    have hkeys := Extractor.mem_keys_matchPatterns hcatalog hfill hcontent hkey
    rw [← Extractor.vars_prepare hdetector name s] at hkeys
    exact List.mem_map.1 hkeys

/-- A name in two spellings and between underscores, and names that share underscores. -/
def spellings : List Char :=
  "\x7b\x7b a \x7d\x7d \x7b\x7ba\x7d\x7d __\x7b\x7b a \x7d\x7d__ __b__ __a__b__c__d__".toList

/-- A profile with values for all of these names. -/
def speller : Profile := { personalInfo := [("a", "A"), ("b", "!"), ("c", "C")] }

theorem given_speller :
    ∀ v ∈ (({} : Extractor).prepare "" spellings).1.vars, ∃ value,
      speller.personalInfo.given? v.name = some value ∧ ∀ c ∈ value.toList, c ∉ delimiters := by
  have hnames : (({} : Extractor).prepare "" spellings).1.vars.map (·.name) = ["a", "b", "c"] := by
    decide +kernel
  intro v hv
  have hname : v.name ∈ ["a", "b", "c"] := hnames ▸ List.mem_map_of_mem hv
  simp only [List.mem_cons, List.not_mem_nil, or_false] at hname
  rcases hname with hname | hname | hname
  · exact ⟨"A", by rw [hname]; decide, by simp [delimiters]⟩
  · exact ⟨"!", by rw [hname]; decide, by simp [delimiters]⟩
  · exact ⟨"C", by rw [hname]; decide, by simp [delimiters]⟩

theorem personalize_leftOver_spellings :
    let t := (({} : Extractor).prepare "" spellings).1
    let d := Document.personalize t speller none
    (∀ v ∈ t.vars, ∃ value, speller.personalInfo.given? v.name = some value ∧
        ∀ c ∈ value.toList, c ∉ delimiters) ∧
      (Document.inks t speller).map Ink.char = d.content.toList ∧
      ∀ c ∈ Catalog.standard.findAll d.content.toList, key c.name ≠ [] →
        (∃ k, k <:+: Document.inks t speller ∧ k.map Ink.char = c.rawPattern) ∧
        ∀ k, k <:+: Document.inks t speller → k.map Ink.char = c.rawPattern → LeftOver t c k :=
  ⟨given_speller, personalize_leftOver (e := {}) rfl rfl "" spellings speller none given_speller⟩

/-- Every variable is filled in, and three candidates are left over: the other spelling, a name
around the value, and the end of the names that shared underscores, which is no variable. -/
theorem personalize_leaves_candidates :
    let t := (({} : Extractor).prepare "" spellings).1
    let d := Document.personalize t speller none
    (∀ v ∈ t.vars, ∃ value, speller.personalInfo.given? v.name = some value ∧
        ∀ c ∈ value.toList, c ∉ delimiters) ∧
      d.content = "A \x7b\x7ba\x7d\x7d __A__ ! __a!c__d__" ∧
      (Catalog.standard.findAll d.content.toList).map (fun c => (c.rawPattern, key c.name)) =
        [("\x7b\x7ba\x7d\x7d".toList, ['a']), ("__A__".toList, ['a']), ("__d__".toList, ['d'])] ∧
      ∀ v ∈ t.vars, v.key ≠ ['d'] :=
  ⟨given_speller, by decide +kernel, by decide +kernel, by decide +kernel⟩

end Stencil
