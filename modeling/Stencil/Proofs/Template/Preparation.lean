import Stencil.Proofs.Placeholder.Matchers
import Stencil.Proofs.Template.Extraction

/-!
# Templates and their own variables

The content of a template is normalized, and its variables are read after normalizing once more.
That changes nothing in braces, tags and brackets, so these placeholders stand in the content as
they are written in the variables (`Seeks.isInfix_of_mem_find_joined`).  A name between underscores
may be joined only then, if its opening underscores closed another name that was joined before;
without such a name the variables are those of the text (`prepare_rawPatterns`).
-/

namespace Stencil

open Placeholder Text Pattern

/-! ## Texts of candidates -/

/-- What is found is part of the text. -/
theorem Pattern.isInfix_of_mem_findAll {p : Pattern} {s : List Char} {m : Match}
    (h : m ∈ p.findAll s) : m.text <:+: s := by
  obtain ⟨earlier, later, hsegs⟩ := List.append_of_mem (mem_findAll_iff.1 h)
  refine ⟨earlier.flatMap Segment.text, later.flatMap Segment.text, ?_⟩
  rw [← flatMap_text_segments p s, hsegs, List.flatMap_append, List.flatMap_cons, List.append_assoc]
  rfl

namespace Placeholder

theorem Matcher.isInfix_of_mem_find {m : Matcher} {s : List Char} {c : Candidate}
    (hc : c ∈ m.find s) : c.rawPattern <:+: s := by
  obtain ⟨found, hfound, hraw, -, -⟩ := exists_match_of_mem_find hc
  rw [hraw]
  exact isInfix_of_mem_findAll hfound

/-- A sealed token that is found after joining lines elsewhere stood in the text before. -/
theorem Matcher.Seeks.isInfix_of_mem_find_joined {m : Matcher} {e : Enclosure} {p : Pattern}
    (hm : m.Seeks e p) (he : e.Sealed) {s s' : List Char} (h : Respaced Joins s s')
    (hs : e.Unbroken s) {c : Candidate} (hc : c ∈ m.find s') : c.rawPattern <:+: s := by
  obtain ⟨x', inner', y', rfl, hraw, -, name, hframed⟩ := hm.of_mem_find he hc
  obtain ⟨x, inner, y, rfl, hspells, -, hinner⟩ :=
    he.token_of_respaced tight_joins.symm h.symm (hm.spells inner' name hframed)
  have hsame : inner' = inner :=
    eq_of_respaced_joins hinner.symm (hs x inner y rfl hspells)
  rw [hraw, hsame]
  exact ⟨x, y, List.append_assoc ..⟩

theorem allBlank_normalize (s : List Char) : allBlank (normalize s) = allBlank s := by
  rw [Bool.eq_iff_iff]
  exact ⟨fun h => ((respaced_normalize s).symm.of_allBlank h).2,
    fun h => ((respaced_normalize s).of_allBlank h).2⟩

end Placeholder

namespace Extractor

section

variable {e : Extractor} (hcatalog : e.catalog = .standard) (hdetector : e.detector = none)
  (name : String) (s : List Char)

include hdetector

theorem vars_prepare : (e.prepare name s).1.vars = e.matchPatterns (normalize s) := by
  simp only [prepare, extract, matchPatterns, hdetector]
  split <;> rfl

include hcatalog

/-- The variables of a template are candidates in its content, normalized once more. -/
theorem exists_candidate_of_mem_vars {v : Variable} (hv : v ∈ (e.prepare name s).1.vars) :
    ∃ c ∈ Catalog.standard.findAll (normalize (normalize s)), v = .ofCandidate c := by
  rw [vars_prepare hdetector, matchPatterns] at hv
  split at hv
  · cases hv
  · have hfind := Variable.find?_of_mem_firstClaims hv
    obtain ⟨c, hc, rfl⟩ := List.mem_map.1 (List.mem_of_find?_eq_some hfind)
    exact ⟨c, hcatalog ▸ hc, rfl⟩

end

/-- **Placeholders stand in the content of a template.**  As they are written in the variables, all
of them stand in the content when it is normalized once more, and all but names between underscores
in the content itself.  If no broken name between underscores is left there, all do, and the
variables are those of the text. -/
theorem prepare_rawPatterns {e : Extractor} (hcatalog : e.catalog = .standard)
    (hdetector : e.detector = none) (name : String) (s : List Char) :
    let t := (e.prepare name s).1
    (∀ v ∈ t.vars, v.rawPattern.toList <:+: normalize t.content.toList) ∧
      (∀ v ∈ t.vars, v.rawPattern.toList <:+: t.content.toList ∨
        ∃ c ∈ doubleUnderscoreMatcher.find (normalize t.content.toList), v = .ofCandidate c) ∧
      (brokenUnderscores.pattern.findAll t.content.toList = [] →
        t.vars = e.matchPatterns s ∧ ∀ v ∈ t.vars, v.rawPattern.toList <:+: t.content.toList) := by
  intro t
  have hcontent : t.content.toList = normalize s := String.toList_ofList
  have hraw (c : Candidate) : (Variable.ofCandidate c).rawPattern.toList = c.rawPattern :=
    String.toList_ofList
  have hagain : ∀ v ∈ t.vars, v.rawPattern.toList <:+: normalize (normalize s) := by
    intro v hv
    obtain ⟨c, hc, rfl⟩ := exists_candidate_of_mem_vars hcatalog hdetector name s hv
    obtain ⟨m, -, hfind⟩ := List.mem_flatMap.1 hc
    rw [hraw]
    exact Matcher.isInfix_of_mem_find hfind
  rw [hcontent]
  refine ⟨hagain, ?_, ?_⟩
  · intro v hv
    obtain ⟨c, hc, rfl⟩ := exists_candidate_of_mem_vars hcatalog hdetector name s hv
    have hjoined : Respaced Joins (normalize s) (normalize (normalize s)) := by
      rw [normalize_normalize]
      exact delimited_brokenUnderscores.respaced_join _
    obtain ⟨hbraces, htags, hcaps⟩ := unbroken_normalize s
    rw [hraw]
    rcases mem_findAll_standard.1 hc with hfind | hfind | hfind | hfind
    · left
      exact seeks_doubleBrace.isInfix_of_mem_find_joined sealed_doubleBrace hjoined hbraces hfind
    · left
      exact seeks_variableTag.isInfix_of_mem_find_joined sealed_variableTag hjoined htags hfind
    · left
      exact seeks_capsBracket.isInfix_of_mem_find_joined sealed_capsBracket hjoined hcaps hfind
    · right
      exact ⟨c, hfind, rfl⟩
  · intro hnone
    have hsame : normalize (normalize s) = normalize s := by
      rw [normalize_normalize]
      exact Enclosure.join_eq_self_of_found fun m hm => absurd (hnone ▸ hm) List.not_mem_nil
    refine ⟨?_, fun v hv => hsame ▸ hagain v hv⟩
    show (e.prepare name s).1.vars = _
    rw [vars_prepare hdetector, matchPatterns, matchPatterns, allBlank_normalize, candidates,
      candidates, hsame]

/-- Every kind of placeholder, with broken lines. -/
theorem prepare_rawPatterns_letter :
    let s := "Dear \x7b\x7bclient\nname\x7d\x7d, [OUR\r\n NAME] met __your\nname__.".toList
    let t := (({} : Extractor).prepare "letter" s).1
    (t.vars.map (·.rawPattern) =
        ["\x7b\x7bclient name\x7d\x7d", "[OUR NAME]", "__your name__"] ∧
      brokenUnderscores.pattern.findAll t.content.toList = []) ∧
      t.vars = ({} : Extractor).matchPatterns s ∧
      ∀ v ∈ t.vars, v.rawPattern.toList <:+: t.content.toList := by
  intro s t
  have hnone : brokenUnderscores.pattern.findAll t.content.toList = [] := by decide +kernel
  obtain ⟨-, -, hconsistent⟩ := prepare_rawPatterns (e := {}) rfl rfl "letter" s
  exact ⟨⟨by decide +kernel, hnone⟩, hconsistent hnone⟩

/-- Two broken names that share underscores: only the first one is joined in the content, and the
second one is joined in a variable, which the text does not have. -/
theorem prepare_shared_underscores :
    let s := "__x__a\nb__c\nd__".toList
    let t := (({} : Extractor).prepare "" s).1
    t.content = "__x__a b__c\nd__" ∧ t.vars.map (·.rawPattern) = ["__x__", "__c d__"] ∧
      (({} : Extractor).matchPatterns s).map (·.rawPattern) = ["__x__"] ∧
      t.vars ≠ ({} : Extractor).matchPatterns s ∧
      ¬ ∀ v ∈ t.vars, v.rawPattern.toList <:+: t.content.toList := by
  decide +kernel

end Extractor

end Stencil
