import Stencil.Proofs.Document.Bindings

/-!
# Variables that a rule can address

The target of an insertion names a variable in front of its first colon.  Names that are read from
placeholders hold no blanks, so the name of a variable arrives as it is unless it holds a colon
itself; then the target is one for the part in front of that colon, which may be the name of another
variable or of none (`insertText_extracted`).
-/

namespace Stencil

/-! ## Targets -/

theorem isTargetName_of_notBlank {name : String} (hne : name ≠ "") (hcolon : ':' ∉ name.toList)
    (hblank : ∀ c ∈ name.toList, Text.isBlank c = false) : IsTargetName name := by
  have hany (o : Option Char) (ho : ∀ c ∈ o, c ∈ name.toList) : o.any Text.isBlank = false := by
    cases o with
    | none => rfl
    | some c => exact hblank c (ho c rfl)
  exact ⟨hne, hcolon, hany _ fun c => List.mem_of_mem_head?,
    hany _ fun c => List.mem_of_mem_getLast?⟩

/-- Nothing in front of the colon is no name. -/
theorem splitTarget?_colon (text : String) : splitTarget? (.text ("" ++ ":" ++ text)) = none := by
  have hchars : ("" ++ ":" ++ text).toList = [] ++ ':' :: text.toList := by simp
  rw [splitTarget?, hchars, Text.splitFirst?_append List.not_mem_nil]
  rfl

/-- Where names differ, one binding is set and the others stay. -/
theorem Binding.setFirst_append {front back : List Binding} {b : Binding}
    (h : b.name ∉ front.map (·.name)) (value : String) :
    setFirst b.name value (front ++ b :: back) = front ++ { b with value := value } :: back := by
  induction front with
  | nil => exact if_pos rfl
  | cons first front ih =>
    rw [List.map_cons, List.mem_cons, not_or] at h
    rw [List.cons_append, setFirst, if_neg fun hname => h.1 hname.symm, ih h.2, List.cons_append]

namespace Document

/-- The insertion has put a text in the place of a binding's variable: no target was skipped, the
binding has the text as its value, the other bindings are as they were, and the text stands wherever
the placeholder of the variable stood in the template. -/
structure Inserted (t : Template) (bs : List Binding) (b : Binding) (text : String) (o : Outcome) :
    Prop where
  skipped : o.skipped = []
  bindings : ∃ front back, bs = front ++ b :: back ∧
    o.draft.bindings = front ++ { b with value := text } :: back
  content : ∃ v ∈ t.vars, v.bind b.value = b ∧
    o.draft.content = String.ofList
      (Text.replaceAll v.rawPattern.toList text.toList t.content.toList)

section

variable (source : TextSource) (ruleName : String)

theorem insertText_of_fill {target name text : String} {d d' : Draft}
    (hsplit : splitTarget? (.text target) = some (name, text))
    (hfill : d.fill? name text = .ok d') :
    Action.applyNamed source ruleName "insertText" [.text target] d = { draft := d' } := by
  show Action.apply source ruleName .insertText [.text target] d = _
  simp only [Action.apply, Action.attempt, hsplit, hfill, List.append_nil]

theorem insertText_of_skip {target : String} {d : Draft} {reason : SkipReason}
    (hskip : (Action.insertText.attempt source (.text target) d).outcome = .error reason) :
    (Action.applyNamed source ruleName "insertText" [.text target] d).draft = d ∧
      (Action.applyNamed source ruleName "insertText" [.text target] d).skipped =
        [⟨ruleName, "insertText", target, reason⟩] := by
  show (Action.apply source ruleName .insertText [.text target] d).draft = d ∧ _
  simp only [Action.applyNamed, Action.ofName?, Action.apply, hskip]
  exact ⟨trivial, rfl⟩

variable {t : Template} {bs : List Binding} (hbs : Filled t bs)
  (hraw : ∀ v ∈ t.vars, v.rawPattern.toList ≠ [])

include hbs hraw in
/-- A name that can stand in a target addresses its binding. -/
theorem inserted_of_isTargetName {b : Binding} (hb : b ∈ bs) (hname : IsTargetName b.name)
    (text : String) :
    Inserted t bs b text (Action.applyNamed source ruleName "insertText"
      [.text (b.name ++ ":" ++ text)] ⟨t.content, bs⟩) := by
  obtain ⟨front, back, rfl⟩ := List.append_of_mem hb
  obtain ⟨v, hv, value, hbind⟩ := hbs.bound b hb
  have hfind := find?_of_nodup hbs.nodup_names hb
  have hfront : b.name ∉ front.map (·.name) := by
    have hnodup := hbs.nodup_names
    rw [List.map_append, List.nodup_append] at hnodup
    exact fun hmem => hnodup.2.2 _ hmem _ List.mem_cons_self rfl
  have hfill : Draft.fill? b.name text ⟨t.content, front ++ b :: back⟩ =
      .ok ⟨String.ofList (Binding.putAll [{ b with value := text }] t.content.toList),
        front ++ { b with value := text } :: back⟩ := by
    simp only [Draft.fill?, Draft.binding?, hfind, Binding.setFirst_append hfront]
    rfl
  rw [insertText_of_fill source ruleName (splitTarget?_of_isTargetName hname text) hfill]
  have hwritten : { b with value := text } = v.bind text := by
    rw [← hbind]
    rfl
  refine ⟨rfl, ⟨front, back, rfl, rfl⟩, v, hv, by rw [← hbind]; rfl, ?_⟩
  show String.ofList (Binding.putAll [{ b with value := text }] t.content.toList) = _
  rw [hwritten, Variable.putAll_bind, if_neg (by simpa using hraw v hv)]

/-- A name that no binding has, or no name at all, addresses nothing. -/
theorem skipped_of_notMem {name : String} (hcolon : ':' ∉ name.toList)
    (hblank : ∀ c ∈ name.toList, Text.isBlank c = false) (hname : name ∉ bs.map (·.name))
    (text : String) :
    let o := Action.applyNamed source ruleName "insertText" [.text (name ++ ":" ++ text)]
      ⟨t.content, bs⟩
    o.draft = ⟨t.content, bs⟩ ∧ o.skipped = [⟨ruleName, "insertText", name ++ ":" ++ text,
      if name = "" then .noText else .unbound name⟩] := by
  refine insertText_of_skip source ruleName ?_
  by_cases hne : name = ""
  · subst hne
    simp only [Action.attempt, splitTarget?_colon, if_pos]
  · have hsplit := splitTarget?_of_isTargetName (isTargetName_of_notBlank hne hcolon hblank) text
    have hnone : bs.find? (fun b => b.name = name) = none := by
      refine List.find?_eq_none.2 fun b hb => ?_
      simpa using fun heq : b.name = name => hname (heq ▸ List.mem_map_of_mem hb)
    simp only [Action.attempt, hsplit, Draft.fill?, Draft.binding?, hnone, if_neg hne]

end

/-! ## A value for every variable -/

theorem mem_names_fillGiven {t : Template} {draft : List Char × List Binding} {name : String}
    (pair : String × Value) (h : name ∈ draft.2.map (·.name)) :
    name ∈ (fillGiven t draft pair).2.map (·.name) := by
  rcases fillGiven_cases t draft pair with ⟨hstep, -⟩ | ⟨b, -, -, hstep⟩
  · rw [hstep]
    exact h
  · rw [hstep, List.map_append]
    exact List.mem_append_left _ h

theorem name_mem_fillGiven {t : Template} {v : Variable} (hv : v ∈ t.vars)
    (draft : List Char × List Binding) (value : Value) :
    v.name ∈ (fillGiven t draft (v.name, value)).2.map (·.name) := by
  rcases fillGiven_cases t draft (v.name, value) with
    ⟨hstep, hnone | hmem⟩ | ⟨b, hbinding, -, hstep⟩
  · exact absurd hnone (Template.binding?_ne_none hv value)
  · rw [hstep]
    exact hmem
  · rw [hstep, List.map_append]
    exact List.mem_append_right _
      (List.mem_singleton.2 (Template.name_of_binding? hbinding).symm)

/-- With a value for each variable, each variable has a binding. -/
theorem name_mem_create {t : Template} {pairs : List (String × Value)} {v : Variable}
    (hv : v ∈ t.vars) (hpair : v.name ∈ pairs.map Prod.fst) (name : String) :
    v.name ∈ (create t pairs name).bindings.map (·.name) := by
  have hwalk (draft : List Char × List Binding)
      (h : v.name ∈ draft.2.map (·.name) ∨ v.name ∈ pairs.map Prod.fst) :
      v.name ∈ (pairs.foldl (fillGiven t) draft).2.map (·.name) := by
    clear hpair
    induction pairs generalizing draft with
    | nil => simpa using h
    | cons pair pairs ih =>
      refine ih _ ?_
      rcases h with h | h
      · exact .inl (mem_names_fillGiven pair h)
      · rcases List.mem_cons.1 h with h | h
        · obtain ⟨_, value⟩ := pair
          subst h
          exact .inl (name_mem_fillGiven hv draft value)
        · exact .inr h
  exact hwalk (t.content.toList, []) (.inr hpair)

end Document

/-- **Variables that a rule can address.**  In a document of a prepared template, the target of a
binding whose name holds no colon puts its text in the place of that binding's placeholder.  Any
other name stands in a target up to its first colon: the binding of that part, if there is one, is
given the rest and the text, and without one the target is skipped and nothing changes. -/
theorem insertText_extracted {e : Extractor} (hcatalog : e.catalog = .standard)
    (hdetector : e.detector = none) (title : String) (s : List Char)
    (pairs : List (String × Value)) (name : String) :
    let t := (e.prepare title s).1
    let d := Document.create t pairs name
    ((∀ v ∈ t.vars, v.name ∈ pairs.map Prod.fst) →
        ∀ v ∈ t.vars, v.name ∈ d.bindings.map (·.name)) ∧
      ∀ b ∈ d.bindings, ∀ (source : TextSource) (ruleName text : String),
        let target := b.name ++ ":" ++ text
        let o := Action.applyNamed source ruleName "insertText" [.text target]
          ⟨t.content, d.bindings⟩
        (':' ∉ b.name.toList → Document.Inserted t d.bindings b text o) ∧
          ∀ first rest : String, b.name = first ++ ":" ++ rest → ':' ∉ first.toList →
            (∀ b' ∈ d.bindings, b'.name = first →
              Document.Inserted t d.bindings b' (rest ++ ":" ++ text) o) ∧
            (first ∉ d.bindings.map (·.name) →
              o.draft = ⟨t.content, d.bindings⟩ ∧
                o.skipped = [⟨ruleName, "insertText", target,
                  if first = "" then .noText else .unbound first⟩]) := by
  intro t d
  have hbs : Document.Filled t d.bindings := Document.filled_create t pairs name
  have hraw : ∀ v ∈ t.vars, v.rawPattern.toList ≠ [] := fun v hv =>
    Extractor.rawPattern_ne_nil hcatalog hdetector hv
  have hblank : ∀ b ∈ d.bindings, ∀ c ∈ b.name.toList, Text.isBlank c = false := by
    intro b hb c hc
    obtain ⟨v, hv, value, rfl⟩ := hbs.bound b hb
    exact Extractor.notBlank_of_mem_name hcatalog hdetector hv hc
  have hne : ∀ b ∈ d.bindings, b.name ≠ "" := by
    intro b hb
    obtain ⟨v, hv, value, rfl⟩ := hbs.bound b hb
    exact Extractor.name_ne_empty hcatalog hdetector hv
  refine ⟨fun hall v hv => Document.name_mem_create hv (hall v hv) name,
    fun b hb source ruleName text => ⟨fun hcolon => ?_, fun first rest hname hcolon => ?_⟩⟩
  · exact Document.inserted_of_isTargetName source ruleName hbs hraw hb
      (isTargetName_of_notBlank (hne b hb) hcolon (hblank b hb)) text
  · -- the target is one for the part in front of the colon
    have htarget : b.name ++ ":" ++ text = first ++ ":" ++ (rest ++ ":" ++ text) := by
      simp only [hname, String.append_assoc]
    have hfirst : ∀ c ∈ first.toList, Text.isBlank c = false := by
      intro c hc
      refine hblank b hb c ?_
      rw [hname, String.toList_append, String.toList_append]
      exact List.mem_append_left _ (List.mem_append_left _ hc)
    rw [htarget]
    refine ⟨fun b' hb' hname' => ?_, fun hnone => ?_⟩
    · subst hname'
      exact Document.inserted_of_isTargetName source ruleName hbs hraw hb'
        (isTargetName_of_notBlank (hne b' hb') hcolon hfirst) _
    · exact Document.skipped_of_notMem source ruleName hcolon hfirst hnone _

/-- Two names that share the part in front of a colon, and one whose part is no name. -/
def colons : List Char := "\x7b\x7ba\x7d\x7d \x7b\x7ba:b\x7d\x7d \x7b\x7bc:d\x7d\x7d".toList

def colonValues : List (String × Value) :=
  [("a", .text "A"), ("a:b", .text "B"), ("c:d", .text "C")]

theorem insertText_extracted_colons :
    let t := (({} : Extractor).prepare "" colons).1
    let d := Document.create t colonValues "letter"
    let insert (target : String) := Action.applyNamed {} "rule" "insertText" [.text target]
      ⟨t.content, d.bindings⟩
    ∃ b ∈ d.bindings, b.name = "a" ∧
      Document.Inserted t d.bindings b "t" (insert ("a" ++ ":" ++ "t")) ∧
      Document.Inserted t d.bindings b ("b" ++ ":" ++ "t") (insert ("a:b" ++ ":" ++ "t")) ∧
      (insert ("c:d" ++ ":" ++ "t")).draft = ⟨t.content, d.bindings⟩ := by
  intro t d insert
  have hnames : d.bindings.map (·.name) = ["a", "a:b", "c:d"] := by decide +kernel
  have hbinding (name : String) (h : name ∈ ["a", "a:b", "c:d"]) :
      ∃ b ∈ d.bindings, b.name = name := List.mem_map.1 (hnames ▸ h)
  obtain ⟨b, hb, hname⟩ := hbinding "a" (by decide)
  obtain ⟨shadowed, hshadowed, hshadowedName⟩ := hbinding "a:b" (by decide)
  obtain ⟨unbound, hunbound, hunboundName⟩ := hbinding "c:d" (by decide)
  have haddress := (insertText_extracted (e := {}) rfl rfl "" colons colonValues "letter").2
  refine ⟨b, hb, hname, ?_, ?_, ?_⟩
  · have hinserted := (haddress b hb {} "rule" "t").1 (by rw [hname]; decide)
    rw [hname] at hinserted
    exact hinserted
  · have hinserted := ((haddress shadowed hshadowed {} "rule" "t").2 "a" "b"
      (by rw [hshadowedName]; decide) (by decide)).1 b hb hname
    rw [hshadowedName] at hinserted
    exact hinserted
  · have hskipped := ((haddress unbound hunbound {} "rule" "t").2 "c" "d"
      (by rw [hunboundName]; decide) (by decide)).2 (by rw [hnames]; decide)
    rw [hunboundName] at hskipped
    exact hskipped.1

/-- With values for all three names, the target for the second one gives the first a value, and the
target for the third is skipped. -/
theorem insertText_misses_colons :
    let t := (({} : Extractor).prepare "" colons).1
    let d := Document.create t colonValues "letter"
    let insert (target : String) := Action.applyNamed {} "rule" "insertText" [.text target]
      ⟨t.content, d.bindings⟩
    t.vars.map (·.name) = ["a", "a:b", "c:d"] ∧ d.bindings.map (·.name) = ["a", "a:b", "c:d"] ∧
      (insert "a:b:t").skipped = [] ∧
      Binding.values (insert "a:b:t").draft.bindings = [("a", "b:t"), ("a:b", "B"), ("c:d", "C")] ∧
      (insert "a:b:t").draft.content = "b:t \x7b\x7ba:b\x7d\x7d \x7b\x7bc:d\x7d\x7d" ∧
      (insert "c:d:t").skipped = [⟨"rule", "insertText", "c:d:t", .unbound "c"⟩] ∧
      (insert "c:d:t").draft = ⟨t.content, d.bindings⟩ := by
  decide +kernel

end Stencil
