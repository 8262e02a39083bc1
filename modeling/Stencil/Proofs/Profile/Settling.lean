import Stencil.Proofs.Profile.Collisions
import Stencil.Proofs.Profile.History

/-!
# Merging settles

A value that is tracked is no duplicate of itself, so the walk passes it over when it comes again
(`step_tracked`).  What was merged is tracked; stored once more it adds nothing to the merge of the
snapshots (`merge_concat_merged`).  So merging a profile again, or merging it after the merged
values were stored in it, gives the same result and the same personal information
(`deduplicate_settles`).
-/

namespace Stencil

namespace Table

variable {α : Type}

/-- Setting a name to the value that it has changes nothing. -/
theorem set_eq_self {t : Table α} {name : String} {a : α} (h : t.lookup name = some a) :
    t.set name a = t := by
  induction t with
  | nil => cases h
  | cons e t ih =>
    obtain ⟨k, old⟩ := e
    rw [List.lookup_cons] at h
    by_cases hk : name = k
    · subst hk
      rw [BEq.rfl] at h
      rw [set, if_pos rfl, Option.some.inj h]
    · have hne : (name == k) = false := by simpa using hk
      rw [hne] at h
      rw [set, if_neg fun heq => hk heq.symm, ih h]

theorem override_eq_self {t new : Table α} (h : ∀ e ∈ new, t.lookup e.1 = some e.2) :
    t.override new = t := by
  induction new with
  | nil => rfl
  | cons e new ih =>
    rw [List.forall_mem_cons] at h
    have hcons : t.override (e :: new) = (t.set e.1 e.2).override new := rfl
    rw [hcons, set_eq_self h.1, ih h.2]

/-- Overriding by the same table once more changes nothing. -/
theorem override_override {new : Table α} (hnodup : new.keys.Nodup) (t : Table α) :
    (t.override new).override new = t.override new := by
  refine override_eq_self fun e he => ?_
  rw [lookup_override hnodup, lookup_of_mem hnodup he, Option.some_or]

end Table

theorem Snapshot.fieldTexts_texts (fields : Table String) :
    Snapshot.fieldTexts (fields.map fun (name, value) => (name, .text value)) = fields := by
  rw [Snapshot.fieldTexts, List.map_map]
  exact List.map_id _

namespace Profile

/-! ## Walking over what is tracked -/

theorem not_duplicates_self (t : Threshold) (value : String) : ¬ Duplicates t value value := by
  simp [Duplicates, isDuplicate]

/-- The tracked value is passed over when it comes again. -/
theorem MergeWalk.step_tracked {t : Threshold} {w : MergeWalk} {field value : String}
    (h : w.tracked.lookup field = some value) : step t w (field, value) = w := by
  rcases step_cases t w field value with
    ⟨hstep, -⟩ | ⟨-, -, hnone⟩ | ⟨existing, -, -, hsome, hduplicate⟩
  · exact hstep
  · rw [h] at hnone
    cases hnone
  · rw [h] at hsome
    cases hsome
    exact absurd hduplicate (not_duplicates_self t value)

theorem MergeWalk.foldl_tracked {t : Threshold} {w : MergeWalk} {entries : List (String × String)}
    (h : ∀ e ∈ entries, w.tracked.lookup e.1 = some e.2) : entries.foldl (step t) w = w := by
  induction entries with
  | nil => rfl
  | cons e entries ih =>
    rw [List.forall_mem_cons] at h
    rw [List.foldl_cons, step_tracked h.1, ih h.2]

/-- A merged value is tracked at the end of the walk. -/
theorem tracked_of_merged {t : Threshold} {snapshots : List (Table String)} {field value : String}
    (h : (merge t snapshots).merged.lookup field = some value) :
    (snapshots.flatten.foldl (MergeWalk.step t) {}).tracked.lookup field = some value := by
  have hknows : (snapshots.flatten.foldl (MergeWalk.step t) {}).Knows field
      (track t field snapshots.flatten) := .foldl ⟨rfl, rfl⟩ _
  rw [lookup_merged] at h
  rw [hknows.tracked_eq, Track.value?_of_merged? h]

/-- A snapshot of the merged values adds nothing to what is merged. -/
theorem merge_concat_merged (t : Threshold) (snapshots : List (Table String)) :
    merge t (snapshots ++ [(merge t snapshots).merged]) = merge t snapshots := by
  have htracked : ∀ e ∈ (merge t snapshots).merged,
      (snapshots.flatten.foldl (MergeWalk.step t) {}).tracked.lookup e.1 = some e.2 :=
    fun _ he => tracked_of_merged (Table.lookup_of_mem (plain_merge t snapshots).nodup he)
  rw [merge, List.flatten_append, List.flatten_singleton, List.foldl_append,
    MergeWalk.foldl_tracked htracked]
  rfl

/-! ## Profiles -/

/-- A table of texts is stored as it is. -/
theorem store_textTable (p : Profile) {fields : Table String} (h : fields ≠ []) (c : Category)
    (timestamp : Option Timestamp) :
    p.store (Wire.textTable fields) (.text c.name) timestamp =
      .ok (p.record c timestamp fields) := by
  have hcategory : Category.ofValue (.text c.name) = .ok c := by cases c <;> rfl
  have htexts := Snapshot.fieldTexts_texts fields
  unfold Wire.textTable
  cases fields with
  | nil => exact absurd rfl h
  | cons e fields =>
    rw [List.map_cons] at htexts ⊢
    simp only [store, hcategory, htexts]
    rfl

/-- **Merging settles.**  After a merge that found duplicates, merging again gives the same profile
and the same result.  The merged values can be stored in the personal information; merging then
gives the same result, and the personal information stays as it was. -/
theorem deduplicate_settles (p : Profile) (t : Threshold) (timestamp : Option Timestamp) :
    let p₁ := (p.deduplicate t).1
    let r := (p.deduplicate t).2
    0 < r.duplicates →
      p₁.deduplicate t = (p₁, r) ∧
      ∃ p₂, p₁.store (Wire.textTable r.merged) (.text "personal_info") timestamp = .ok p₂ ∧
        (p₂.deduplicate t).2 = r ∧
        (p₂.deduplicate t).1.personalInfo = p₁.personalInfo := by
  intro p₁ r hduplicates
  have hr : r = merge t (p.snapshots.map (·.fields)) := deduplicate_snd p t
  have hp₁ : p₁ = { p with personalInfo := p.personalInfo.override r.merged } := by
    rw [hr]
    exact congrArg Prod.fst (deduplicate_eq p t)
  have hoverride : p₁.personalInfo.override r.merged = p₁.personalInfo := by
    rw [hp₁]
    exact Table.override_override (hr ▸ (plain_merge _ _).nodup) _
  have hsnapshots : p₁.snapshots = p.snapshots := by rw [hp₁]
  have hmerge : merge t (p₁.snapshots.map (·.fields)) = r := by rw [hsnapshots, ← hr]
  refine ⟨?_, ?_⟩
  · rw [deduplicate_eq, hmerge, hoverride]
  · have hmerged : r.merged ≠ [] := by
      rw [hr, ne_eq, ← (explained_merge _ _).duplicates_eq_zero_iff, ← hr]
      omega
    have hagain : merge t ((p₁.record .personalInfo timestamp r.merged).snapshots.map (·.fields)) =
        r := by
      have hlater : (p₁.record .personalInfo timestamp r.merged).snapshots.map (·.fields) =
          p.snapshots.map (·.fields) ++ [r.merged] := by
        rw [← hsnapshots]
        exact List.map_append
      rw [hlater, hr, merge_concat_merged]
    have hstored : (p₁.record .personalInfo timestamp r.merged).personalInfo = p₁.personalInfo :=
      hoverride
    refine ⟨_, store_textTable p₁ hmerged .personalInfo timestamp, ?_, ?_⟩
    · rw [deduplicate_snd, hagain]
    · rw [deduplicate_eq, hagain, hstored]
      exact hoverride

/-- A name that is spelled twice, and another one that is stored after the merge. -/
theorem deduplicate_settles_visitor :
    let t : Threshold := ⟨Threshold.standard, by decide⟩
    let p : Profile := replay { userId := "jon" }
      [.store (.field "name" (.text "Jon Smith")) (.text "personal_info") none,
        .store (.field "name" (.text "Jon Smithe")) (.text "preferences") none,
        .store (.field "name" (.text "Maria Lopez")) (.text "personal_info") none]
    let p₁ := (p.deduplicate t).1
    let r := (p.deduplicate t).2
    0 < r.duplicates ∧ p₁.personalInfo = [("name", "Jon Smithe")] ∧
      p₁.deduplicate t = (p₁, r) ∧
      ∃ p₂, p₁.store (Wire.textTable r.merged) (.text "personal_info") none = .ok p₂ ∧
        (p₂.deduplicate t).2 = r ∧ (p₂.deduplicate t).1.personalInfo = p₁.personalInfo := by
  intro t p p₁ r
  have hduplicates : 0 < r.duplicates := by decide +kernel
  have hinfo : p₁.personalInfo = [("name", "Jon Smithe")] := by decide +kernel
  exact ⟨hduplicates, hinfo, deduplicate_settles p t none hduplicates⟩

end Profile

end Stencil
