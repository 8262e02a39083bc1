import Stencil.Proofs.Document.Filling
import Stencil.Proofs.Profile.Lookup

/-!
# Personalizing and filling in

A template is personalized with what stands in the two categories or under another name of a
variable.  Filling in asks the memory of a profile before the other names:

    ownValue? p v = current? .or mapped?
    find? v       = current? .or (remembered? .or mapped?)

So what a document is personalized with can be filled in as well (`personalize_within_autofill`),
and with another value only where the categories have none and one is remembered
(`find?_of_ownValue?`).
-/

namespace Stencil.Document

theorem ownValue?_eq (p : Profile) (v : Variable) :
    ownValue? p v = (p.current? v.name).or (p.mapped? v.mappings) := by
  rw [ownValue?, Profile.current?, Option.or_assoc]

/-- For a variable with an own value that value is found, or one that is remembered while the
categories have none. -/
theorem find?_of_ownValue? {p : Profile} {v : Variable} {value : String}
    (h : ownValue? p v = some value) :
    p.find? v = some value ∨
      p.current? v.name = none ∧ ∃ other, p.remembered? v.name = some other ∧
        p.find? v = some other := by
  rw [ownValue?_eq, Option.or_eq_some_iff] at h
  rw [Profile.find?_eq]
  rcases h with hcurrent | ⟨hcurrent, hmapped⟩
  · exact .inl (by rw [hcurrent, Option.some_or])
  · rw [hcurrent, Option.none_or, hmapped]
    cases p.remembered? v.name with
    | none => exact .inl rfl
    | some other => exact .inr ⟨rfl, other, rfl, rfl⟩

/-- **Personalizing stays within filling in.**  Every variable that a document is personalized with
is filled in from the profile.  The values are the same if one of the categories has a value for its
name, and also if no snapshot and no entry of the index has one. -/
theorem personalize_within_autofill (t : Template) (p : Profile) (timestamp : Option Timestamp)
    (hvars : (t.vars.map (·.name)).Nodup) :
    ∀ b ∈ (personalize t p timestamp).bindings,
      b.name ∈ (p.autofill t.vars).keys ∧
      ((p.personalInfo.given? b.name).isSome ∨ (p.preferences.given? b.name).isSome ∨
          ((∀ s ∈ p.snapshots, s.fields.given? b.name = none) ∧
            ∀ f ∈ p.frequent, f.name = b.name → f.value = "") →
        (p.autofill t.vars).lookup b.name = some b.value) := by
  intro b hb
  rw [bindings_personalize] at hb
  obtain ⟨v, hv, hbind⟩ := List.mem_filterMap.1 hb
  obtain ⟨value, hown, rfl⟩ := Option.map_eq_some_iff.1 hbind
  show v.name ∈ (p.autofill t.vars).keys ∧
    (_ → (p.autofill t.vars).lookup v.name = some value)
  rw [Table.mem_keys_iff_lookup, p.lookup_autofill hvars hv]
  rcases find?_of_ownValue? hown with hfind | ⟨hcurrent, other, hremembered, hfind⟩
  · exact ⟨⟨value, hfind⟩, fun _ => hfind⟩
  · refine ⟨⟨other, hfind⟩, fun hsame => ?_⟩
    obtain ⟨hpersonal, hpreferred⟩ := Option.or_eq_none_iff.1 hcurrent
    rcases hsame with hgiven | hgiven | ⟨hsnapshots, hindex⟩
    · exact absurd hpersonal (Option.isSome_iff_ne_none.1 hgiven)
    · exact absurd hpreferred (Option.isSome_iff_ne_none.1 hgiven)
    · have hnone : p.remembered? v.name = none := Profile.remembered?_eq_none hsnapshots hindex
      rw [hnone] at hremembered
      cases hremembered

/-- A name of its own, an address under another name, and a phone number with another one in
memory. -/
theorem personalize_within_autofill_letter :
    let p : Profile :=
      { userId := "ann"
        personalInfo := [("name", "Ann Lee"), ("email", "ann@lee.org"), ("mobile", "555")]
        snapshots := [⟨[("name", "Ann"), ("phone", "444")], "personal_info", none⟩]
        frequent := [⟨"name", "Ann", 2⟩] }
    let name : Variable := { name := "name", rawPattern := "[name]" }
    let address : Variable :=
      { name := "address", rawPattern := "[address]", mappings := ["email"] }
    let phone : Variable := { name := "phone", rawPattern := "[phone]", mappings := ["mobile"] }
    let t : Template :=
      { name := "letter", content := "[name], [address], [phone]", vars := [name, address, phone] }
    (personalize t p none).content = "Ann Lee, ann@lee.org, 555" ∧
      (p.autofill t.vars).lookup "name" = some "Ann Lee" ∧
      (p.autofill t.vars).lookup "address" = some "ann@lee.org" ∧
      "phone" ∈ (p.autofill t.vars).keys ∧
      (p.autofill t.vars).lookup "phone" = some "444" := by
  intro p name address phone t
  have hwithin := personalize_within_autofill t p none (by decide)
  obtain ⟨-, hname⟩ := hwithin (name.bind "Ann Lee") (by decide +kernel)
  obtain ⟨-, haddress⟩ := hwithin (address.bind "ann@lee.org") (by decide +kernel)
  obtain ⟨hphone, -⟩ := hwithin (phone.bind "555") (by decide +kernel)
  exact ⟨by decide +kernel, hname (.inl (by decide +kernel)),
    haddress (.inr (.inr (by decide +kernel))), hphone, by decide +kernel⟩

end Stencil.Document
