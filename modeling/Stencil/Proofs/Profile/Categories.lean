import Stencil.Proofs.Profile.Deduplication

/-!
# Merging and the two categories

The snapshots of both categories are merged together, and what comes out is written to the personal
information.  So a preference can get there (`deduplicate_mixes_categories`).  Every value that is
written stands in some snapshot, the personal information loses no field, and of a field without
preferences only personal values are merged (`deduplicate_sources`).
-/

namespace Stencil

theorem Table.mem_keys_override {α : Type} (old new : Table α) (name : String) :
    name ∈ (old.override new).keys ↔ name ∈ old.keys ∨ name ∈ new.keys := by
  induction new generalizing old with
  | nil => simp [override, keys]
  | cons e rest ih =>
    obtain ⟨k, a⟩ := e
    have hcons : old.override ((k, a) :: rest) = (old.set k a).override rest := rfl
    have hset : name ∈ (old.set k a).keys ↔ name ∈ old.keys ∨ name = k := by
      rw [keys_set]
      split
      · rename_i hold
        exact ⟨Or.inl, fun h => h.elim id fun heq => heq ▸ hold⟩
      · rw [List.mem_append, List.mem_singleton]
    rw [hcons, ih, hset, or_assoc]
    simp [keys]

theorem Table.mem_keys_iff_lookup {α : Type} {t : Table α} {name : String} :
    name ∈ t.keys ↔ ∃ a, t.lookup name = some a := by
  refine ⟨exists_lookup_of_mem, ?_⟩
  rintro ⟨a, ha⟩
  by_contra hnotMem
  rw [lookup_eq_none_of_notMem hnotMem] at ha
  cases ha

namespace Profile

/-! ## What is merged -/

theorem mem_valuesOf_flatten {snapshots : List Snapshot}
    (hnodup : ∀ s ∈ snapshots, s.fields.keys.Nodup) {field value : String}
    (h : value ∈ valuesOf field (snapshots.map (·.fields)).flatten) :
    ∃ s ∈ snapshots, s.fields.lookup field = some value := by
  induction snapshots with
  | nil => cases h
  | cons s snapshots ih =>
    rw [List.map_cons, List.flatten_cons, valuesOf_append, List.mem_append,
      valuesOf_of_nodup (hnodup s List.mem_cons_self), Option.mem_toList] at h
    rcases h with h | h
    · exact ⟨s, List.mem_cons_self, h⟩
    · obtain ⟨s', hs', hvalue⟩ := ih (fun s' hs' => hnodup s' (List.mem_cons_of_mem _ hs')) h
      exact ⟨s', List.mem_cons_of_mem _ hs', hvalue⟩

/-- A merged value stands in some snapshot, and is not blank. -/
theorem source_of_merged {t : Threshold} {snapshots : List Snapshot}
    (hnodup : ∀ s ∈ snapshots, s.fields.keys.Nodup) {field value : String}
    (h : (merge t (snapshots.map (·.fields))).merged.lookup field = some value) :
    (∃ s ∈ snapshots, s.fields.lookup field = some value) ∧ Filled value := by
  rw [lookup_merged] at h
  obtain ⟨hmem, hfilled⟩ := mem_of_value?_track (Track.value?_of_merged? h)
  exact ⟨mem_valuesOf_flatten hnodup hmem, hfilled⟩

/-- The fields of the personal information after merging. -/
theorem mem_keys_deduplicate (p : Profile) (t : Threshold) (field : String) :
    field ∈ (p.deduplicate t).1.personalInfo.keys ↔
      field ∈ p.personalInfo.keys ∨ field ∈ (p.deduplicate t).2.merged.keys := by
  simp only [Table.mem_keys_iff_lookup, lookup_deduplicate]
  cases (p.deduplicate t).2.merged.lookup field <;> simp

/-! ## What every call keeps -/

/-- Each snapshot is of one of the categories, and the fields of the personal ones are in the
personal information. -/
structure Covered (p : Profile) : Prop where
  categories : ∀ s ∈ p.snapshots, ∃ c : Category, s.category = c.name
  fields : ∀ s ∈ ofCategory .personalInfo p.snapshots, ∀ field ∈ s.fields.keys,
    field ∈ p.personalInfo.keys

theorem covered_empty (userId : String) : Covered { userId } where
  categories := List.forall_mem_nil _
  fields := List.forall_mem_nil _

theorem Covered.record {p : Profile} (h : p.Covered) (c : Category)
    (timestamp : Option Timestamp) (fields : Table String) :
    (p.record c timestamp fields).Covered := by
  have hsnapshots : (p.record c timestamp fields).snapshots =
      p.snapshots ++ [⟨fields, c.name, timestamp⟩] := rfl
  constructor
  · intro s hs
    rw [hsnapshots, List.mem_append, List.mem_singleton] at hs
    rcases hs with hs | rfl
    · exact h.categories s hs
    · exact ⟨c, rfl⟩
  · intro s hs field hfield
    rw [hsnapshots, ofCategory_append] at hs
    cases c with
    | personalInfo =>
      show field ∈ (p.personalInfo.override fields).keys
      rw [if_pos rfl, List.mem_append, List.mem_singleton] at hs
      rw [Table.mem_keys_override]
      rcases hs with hs | rfl
      · exact .inl (h.fields s hs field hfield)
      · exact .inr hfield
    | preferences =>
      rw [if_neg (by decide)] at hs
      exact h.fields s hs field hfield

theorem Covered.deduplicate {p : Profile} (h : p.Covered) (t : Threshold) :
    (p.deduplicate t).1.Covered := by
  obtain ⟨info, hinfo⟩ := p.deduplicate_fst t
  have hsnapshots : (p.deduplicate t).1.snapshots = p.snapshots := by rw [hinfo]
  refine ⟨fun s hs => h.categories s (hsnapshots ▸ hs), fun s hs field hfield => ?_⟩
  rw [mem_keys_deduplicate]
  exact .inl (h.fields s (hsnapshots ▸ hs) field hfield)

theorem Covered.replay {p : Profile} (h : p.Covered) (calls : List Call) :
    (p.replay calls).Covered :=
  replay_keeps (fun _ c timestamp fields _ h => h.record c timestamp fields)
    (fun _ t _ h => h.deduplicate t) h

/-- A snapshot that is not of the preferences is of the personal information. -/
theorem Covered.mem_personal {p : Profile} (h : p.Covered) {s : Snapshot} (hs : s ∈ p.snapshots)
    (hnot : s ∉ ofCategory .preferences p.snapshots) :
    s ∈ ofCategory .personalInfo p.snapshots := by
  unfold ofCategory at hnot ⊢
  obtain ⟨c, hc⟩ := h.categories s hs
  cases c with
  | personalInfo => exact List.mem_filter.2 ⟨hs, decide_eq_true hc⟩
  | preferences => exact absurd (List.mem_filter.2 ⟨hs, decide_eq_true hc⟩) hnot

/-- **Where merged values come from.**  After any calls merging leaves the preferences as they are.
It takes no field out of the personal information and adds the merged fields, which are new only if
no personal snapshot has them.  Each value that is written stands in some snapshot; without values
in the preferences the field was there before and its value stands in a personal snapshot. -/
theorem deduplicate_sources (userId : String) (calls : List Call) (t : Threshold) :
    let p := replay { userId } calls
    let q := (p.deduplicate t).1
    let merged := (p.deduplicate t).2.merged
    q.preferences = p.preferences ∧
    (∀ field, field ∈ q.personalInfo.keys ↔ field ∈ p.personalInfo.keys ∨ field ∈ merged.keys) ∧
    (∀ field ∈ q.personalInfo.keys, field ∉ p.personalInfo.keys →
      ∀ s ∈ ofCategory .personalInfo p.snapshots, field ∉ s.fields.keys) ∧
    ∀ field value, merged.lookup field = some value →
      q.personalInfo.lookup field = some value ∧
      (∃ s ∈ p.snapshots, s.fields.lookup field = some value) ∧
      ((∀ s ∈ ofCategory .preferences p.snapshots, ∀ preferred,
          s.fields.lookup field = some preferred → ¬ Filled preferred) →
        field ∈ p.personalInfo.keys ∧
          ∃ s ∈ ofCategory .personalInfo p.snapshots, s.fields.lookup field = some value) := by
  intro p q merged
  have htraced : p.Traced := (traced_empty userId).replay calls
  have hcovered : p.Covered := (covered_empty userId).replay calls
  refine ⟨?_, mem_keys_deduplicate p t, ?_, ?_⟩
  · obtain ⟨info, hinfo⟩ := p.deduplicate_fst t
    simp only [q, hinfo]
  · intro field _ hnew s hs hfield
    exact hnew (hcovered.fields s hs field hfield)
  · intro field value hvalue
    have hmerge : (merge t (p.snapshots.map (·.fields))).merged.lookup field = some value := by
      rw [← deduplicate_snd]
      exact hvalue
    obtain ⟨⟨s, hs, hlookup⟩, hfilled⟩ := source_of_merged htraced.fields_nodup hmerge
    refine ⟨?_, ⟨s, hs, hlookup⟩, fun hpreferences => ?_⟩
    · rw [lookup_deduplicate, hvalue]
      rfl
    · have hpersonal : s ∈ ofCategory .personalInfo p.snapshots :=
        hcovered.mem_personal hs fun hs' => hpreferences s hs' value hlookup hfilled
      exact ⟨hcovered.fields s hpersonal field (Table.mem_keys_iff_lookup.2 ⟨value, hlookup⟩),
        s, hpersonal, hlookup⟩

/-- A name that is spelled twice, and a preference that is. -/
theorem deduplicate_sources_visitor :
    let calls : List Call :=
      [.store (.field "name" (.text "Ann Lee")) (.text "personal_info") none,
        .store (.field "name" (.text "Ann Lee, PhD")) (.text "personalInfo") none,
        .store (.field "theme" (.text "dark")) (.text "preferences") none,
        .store (.field "theme" (.text "dark blue")) (.text "preferences") none]
    let p := replay { userId := "ann" } calls
    let q := (p.deduplicate ⟨Threshold.standard, by decide⟩).1
    q.preferences = [("theme", "dark blue")] ∧
      "theme" ∈ q.personalInfo.keys ∧ "theme" ∉ p.personalInfo.keys ∧
      (∀ s ∈ ofCategory .personalInfo p.snapshots, "theme" ∉ s.fields.keys) ∧
      q.personalInfo.lookup "name" = some "Ann Lee, PhD" ∧
      ∃ s ∈ ofCategory .personalInfo p.snapshots,
        s.fields.lookup "name" = some "Ann Lee, PhD" := by
  intro calls p q
  obtain ⟨hpreferences, -, hnew, hvalues⟩ :=
    deduplicate_sources "ann" calls ⟨Threshold.standard, by decide⟩
  have hadded : "theme" ∈ q.personalInfo.keys ∧ "theme" ∉ p.personalInfo.keys := by
    decide +kernel
  have hmerged : (p.deduplicate ⟨Threshold.standard, by decide⟩).2.merged.lookup "name" =
      some "Ann Lee, PhD" := by decide +kernel
  have hunpreferred : ∀ s ∈ ofCategory .preferences p.snapshots, ∀ preferred,
      s.fields.lookup "name" = some preferred → ¬ Filled preferred := by
    have hnone : ∀ s ∈ ofCategory .preferences p.snapshots, s.fields.lookup "name" = none := by
      decide +kernel
    intro s hs preferred hpreferred
    rw [hnone s hs] at hpreferred
    cases hpreferred
  obtain ⟨hwritten, -, hpersonal⟩ := hvalues "name" _ hmerged
  exact ⟨hpreferences.trans (by decide +kernel), hadded.1, hadded.2,
    hnew _ hadded.1 hadded.2, hwritten, (hpersonal hunpreferred).2⟩

/-- A preference gets into the personal information, and one overwrites a personal value. -/
theorem deduplicate_mixes_categories :
    let calls : List Call :=
      [.store (.field "name" (.text "Ann Lee")) (.text "personal_info") none,
        .store (.field "name" (.text "Ann Lee, PhD")) (.text "preferences") none,
        .store (.field "theme" (.text "dark")) (.text "preferences") none,
        .store (.field "theme" (.text "dark blue")) (.text "preferences") none]
    let p := replay {} calls
    let t : Threshold := ⟨Threshold.standard, by decide⟩
    p.personalInfo = [("name", "Ann Lee")] ∧
      (p.deduplicate t).1.personalInfo = [("name", "Ann Lee, PhD"), ("theme", "dark blue")] ∧
      (p.deduplicate t).2.merged = [("name", "Ann Lee, PhD"), ("theme", "dark blue")] ∧
      (∀ s ∈ ofCategory .personalInfo p.snapshots,
        s.fields.lookup "name" ≠ some "Ann Lee, PhD" ∧ s.fields.lookup "theme" = none) := by
  decide +kernel

end Profile

end Stencil
