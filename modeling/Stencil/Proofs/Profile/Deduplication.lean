import Mathlib.Data.List.Induction
import Stencil.Proofs.Profile.History
import Stencil.Proofs.Profile.Merging

/-!
# What merging overwrites

The value that merging writes over a current one is another spelling of it, unless the current value
was stored after the merges and took no part in them (`deduplicate_overwrites`): the tracked value
of a field is replaced by merges only, so a value that is unlike it is passed over, and overwritten
(`deduplicate_overwrites_unrelated`).
-/

namespace Stencil.Profile

/-- One value is another spelling of the other. -/
def Spells (t : Threshold) (written current : String) : Prop :=
  normalizeValue written.toList = normalizeValue current.toList ∨
    isDuplicate t (normalizeValue written.toList) (normalizeValue current.toList) = true

instance (t : Threshold) (written current : String) : Decidable (Spells t written current) :=
  inferInstanceAs (Decidable (_ ∨ _))

/-- A call that stores something in the personal information. -/
def Call.IsPersonal : Call → Prop
  | .store _ category _ => Category.ofValue category = .ok .personalInfo
  | .deduplicate _ => False

/-! ## The last value of a field -/

/-- The tracked value is what was tracked before one more value, or is another spelling of that
value. -/
theorem Track.merged?_step {t : Threshold} {k : Track} {value written : String}
    (h : (k.step t value).merged? = some written) :
    Spells t written value ∨ k.merged? = some written := by
  unfold Track.step at h
  split at h
  · exact .inr h
  · cases k with
    | unseen => cases h
    | seen existing n =>
      dsimp only at h
      split at h
      · rename_i hduplicate
        cases h
        unfold MergeWalk.longer
        split
        · exact .inl (.inl rfl)
        · exact .inl (.inr hduplicate)
      · exact .inr h

/-- The value of a field in the overlay stands in the last snapshot with that field. -/
theorem lookup_overlay {snapshots : List Snapshot}
    (hnodup : ∀ s ∈ snapshots, s.fields.keys.Nodup) {field value : String}
    (h : (overlay snapshots).lookup field = some value) :
    ∃ earlier s later, snapshots = earlier ++ s :: later ∧ s.fields.lookup field = some value ∧
      ∀ s' ∈ later, s'.fields.lookup field = none := by
  induction snapshots using List.reverseRecOn with
  | nil => cases h
  | append_singleton snapshots s ih =>
    rw [overlay_append, Table.lookup_override (hnodup s (by simp))] at h
    cases hs : s.fields.lookup field with
    | some stored =>
      rw [hs] at h
      cases h
      exact ⟨snapshots, s, [], rfl, hs, List.forall_mem_nil _⟩
    | none =>
      rw [hs] at h
      obtain ⟨earlier, s₀, later, rfl, hs₀, hlater⟩ :=
        ih (fun s' hs' => hnodup s' (List.mem_append_left _ hs')) h
      refine ⟨earlier, s₀, later ++ [s], by simp, hs₀, fun s' hs' => ?_⟩
      rcases List.mem_append.1 hs' with hs' | hs'
      · exact hlater s' hs'
      · rw [List.mem_singleton.1 hs']
        exact hs

theorem valuesOf_flatten_of_none {snapshots : List Snapshot} {field : String}
    (hnodup : ∀ s ∈ snapshots, s.fields.keys.Nodup)
    (h : ∀ s ∈ snapshots, s.fields.lookup field = none) :
    valuesOf field (snapshots.map (·.fields)).flatten = [] := by
  induction snapshots with
  | nil => rfl
  | cons s snapshots ih =>
    rw [List.map_cons, List.flatten_cons, valuesOf_append,
      valuesOf_of_nodup (hnodup s List.mem_cons_self), h s List.mem_cons_self,
      ih (fun s' hs' => hnodup s' (List.mem_cons_of_mem _ hs'))
        fun s' hs' => h s' (List.mem_cons_of_mem _ hs')]
    rfl

/-- The last snapshot with a field decides what the walk knows of it. -/
theorem track_last (t : Threshold) {earlier later : List Snapshot} {s : Snapshot}
    {field value : String} (hnodup : ∀ s' ∈ earlier ++ s :: later, s'.fields.keys.Nodup)
    (hs : s.fields.lookup field = some value)
    (hlater : ∀ s' ∈ later, s'.fields.lookup field = none) :
    track t field ((earlier ++ s :: later).map (·.fields)).flatten =
      (track t field (earlier.map (·.fields)).flatten).step t value := by
  have hrest : valuesOf field (later.map (·.fields)).flatten = [] :=
    valuesOf_flatten_of_none (fun s' hs' => hnodup s' (by simp [hs'])) hlater
  have hvalue : valuesOf field s.fields = [value] := by
    rw [valuesOf_of_nodup (hnodup s (by simp)), hs, Option.toList_some]
  rw [track, List.map_append, List.map_cons, List.flatten_append, List.flatten_cons,
    valuesOf_append, valuesOf_append, hvalue, hrest, List.append_nil, List.foldl_append]
  rfl

/-! ## What personal calls leave -/

theorem category_of_isPersonal {call : Call} (h : call.IsPersonal) {s : Snapshot}
    (hs : call.snapshot? = some s) : s.category = Category.personalInfo.name := by
  cases call with
  | deduplicate t => cases hs
  | store data category timestamp =>
    have hcategory : Category.ofValue category = .ok .personalInfo := h
    rcases store_cases {} data category timestamp with
      ⟨c, fields, hc, -, hsnapshot, -⟩ | ⟨hsnapshot, -⟩
    · rw [hcategory] at hc
      rw [hsnapshot] at hs
      rw [← Option.some.inj hs, ← Except.ok.inj hc]
    · rw [hsnapshot] at hs
      cases hs

/-- After personal calls the personal information is what all the snapshots leave. -/
theorem personalInfo_of_isPersonal (userId : String) {calls : List Call}
    (hcalls : ∀ call ∈ calls, call.IsPersonal) :
    (replay { userId } calls).personalInfo = overlay (replay { userId } calls).snapshots := by
  have hunmerged : (replay { userId } calls).Unmerged := by
    refine Unmerged.replay (p := { userId }) rfl fun t ht => ?_
    exact hcalls _ ht
  have hpersonal : ofCategory .personalInfo (replay { userId } calls).snapshots =
      (replay { userId } calls).snapshots := by
    refine List.filter_eq_self.2 fun s hs => ?_
    rw [snapshots_replay, List.nil_append] at hs
    obtain ⟨call, hcall, hsnapshot⟩ := List.mem_filterMap.1 hs
    exact decide_eq_true (category_of_isPersonal (hcalls call hcall) hsnapshot)
  rw [← hpersonal]
  exact hunmerged

/-- **What is overwritten.**  After personal calls merging overwrites the current value of a merged
field by another spelling of it, or by what the snapshots before that value were merged into. -/
theorem deduplicate_overwrites (userId : String) {calls : List Call}
    (hcalls : ∀ call ∈ calls, call.IsPersonal) (t : Threshold) {field current : String} :
    let p := replay { userId } calls
    p.personalInfo.lookup field = some current → field ∈ (p.deduplicate t).2.merged.keys →
    ∃ written, (p.deduplicate t).2.merged.lookup field = some written ∧
      (p.deduplicate t).1.personalInfo.lookup field = some written ∧
      (Spells t written current ∨
        ∃ earlier s later, p.snapshots = earlier ++ s :: later ∧
          s.fields.lookup field = some current ∧ (∀ s' ∈ later, s'.fields.lookup field = none) ∧
          (merge t (earlier.map (·.fields))).merged.lookup field = some written) := by
  intro p hcurrent hmerged
  have htraced : p.Traced := (traced_empty userId).replay calls
  have hpersonal : p.personalInfo = overlay p.snapshots :=
    personalInfo_of_isPersonal userId hcalls
  obtain ⟨earlier, s, later, hsnapshots, hs, hlater⟩ :=
    lookup_overlay htraced.fields_nodup (hpersonal ▸ hcurrent)
  obtain ⟨written, hwritten⟩ := Table.exists_lookup_of_mem hmerged
  refine ⟨written, hwritten, ?_, ?_⟩
  · rw [lookup_deduplicate, hwritten]
    rfl
  · have hnodup : ∀ s' ∈ earlier ++ s :: later, s'.fields.keys.Nodup :=
      hsnapshots ▸ htraced.fields_nodup
    have hstep : ((track t field (earlier.map (·.fields)).flatten).step t current).merged? =
        some written := by
      rw [← track_last t hnodup hs hlater, ← hsnapshots, ← lookup_merged, ← hwritten,
        deduplicate_snd]
    rcases Track.merged?_step hstep with hspells | hearlier
    · exact .inl hspells
    · exact .inr ⟨earlier, s, later, hsnapshots, hs, hlater, by rw [lookup_merged, hearlier]⟩

/-- A name, another spelling of it, and another name, which takes no part in the merge. -/
theorem deduplicate_overwrites_names :
    let calls : List Call :=
      [.store (.field "name" (.text "Jon Smith")) (.text "personal_info") none,
        .store (.field "name" (.text "Jon Smithe")) (.text "personalInfo") none,
        .store (.field "name" (.text "Maria Lopez")) (.text "personal_info") none]
    let p := replay { userId := "jon" } calls
    let t : Threshold := ⟨Threshold.standard, by decide⟩
    (∀ call ∈ calls, call.IsPersonal) ∧
      p.personalInfo.lookup "name" = some "Maria Lopez" ∧
      "name" ∈ (p.deduplicate t).2.merged.keys ∧
      ∃ earlier s later, p.snapshots = earlier ++ s :: later ∧
        s.fields.lookup "name" = some "Maria Lopez" ∧
        (merge t (earlier.map (·.fields))).merged.lookup "name" = some "Jon Smithe" := by
  intro calls p t
  have hcalls : ∀ call ∈ calls, call.IsPersonal := by
    simp [calls, Call.IsPersonal, Category.ofValue, Category.ofName?]
  have hcurrent : p.personalInfo.lookup "name" = some "Maria Lopez" := by decide +kernel
  have hmerged : "name" ∈ (p.deduplicate t).2.merged.keys := by decide +kernel
  have hafter : (p.deduplicate t).1.personalInfo.lookup "name" = some "Jon Smithe" := by
    decide +kernel
  obtain ⟨written, -, hwritten, hspells | ⟨earlier, s, later, hsnapshots, hs, -, hearlier⟩⟩ :=
    deduplicate_overwrites "jon" hcalls t hcurrent hmerged
  · have hunlike : ¬ Spells t "Jon Smithe" "Maria Lopez" := by decide +kernel
    rw [hafter] at hwritten
    cases hwritten
    exact absurd hspells hunlike
  · rw [hafter] at hwritten
    cases hwritten
    exact ⟨hcalls, hcurrent, hmerged, earlier, s, later, hsnapshots, hs, hearlier⟩

/-- The value that is written need not be another spelling of the one that it overwrites. -/
theorem deduplicate_overwrites_unrelated :
    let calls : List Call :=
      [.store (.field "name" (.text "Jon Smith")) (.text "personal_info") none,
        .store (.field "name" (.text "Jon Smithe")) (.text "personal_info") none,
        .store (.field "name" (.text "Maria Lopez")) (.text "personal_info") none]
    let p := replay {} calls
    let t : Threshold := ⟨Threshold.standard, by decide⟩
    (∀ call ∈ calls, call.IsPersonal) ∧
      "name" ∈ (p.deduplicate t).2.merged.keys ∧
      p.personalInfo.lookup "name" = some "Maria Lopez" ∧
      normalizeValue "Maria Lopez".toList ≠ [] ∧
      (p.deduplicate t).1.personalInfo.lookup "name" = some "Jon Smithe" ∧
      ¬ Spells t "Jon Smithe" "Maria Lopez" ∧ ¬ Spells t "Maria Lopez" "Jon Smithe" := by
  intro calls p t
  refine ⟨?_, ?_, ?_, ?_, ?_, ?_, ?_⟩
  · simp [calls, Call.IsPersonal, Category.ofValue, Category.ofName?]
  · decide +kernel
  · decide +kernel
  · decide +kernel
  · decide +kernel
  · decide +kernel
  · decide +kernel

end Stencil.Profile
