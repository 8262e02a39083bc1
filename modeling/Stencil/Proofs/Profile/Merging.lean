import Mathlib.Data.List.Induction
import Stencil.Profile.Store
import Stencil.Proofs.Text.Lowering

/-!
# The merge walk, field by field

One value is passed over, is the first of its field, or is counted as a duplicate (`step_cases`).
The walk treats each field as if there were no other: what it knows of a field (`Track`) comes from
the values of that field alone, in order (`track`).

    (merge t snapshots).merged.lookup field = (track t field snapshots.flatten).merged?
                                                                             (lookup_merged)

Every field that was merged is overwritten by `deduplicate` (`lookup_deduplicate`).
-/

namespace Stencil.Profile

/-- The value is not blank. -/
def Filled (value : String) : Prop := normalizeValue value.toList ≠ []

instance : DecidablePred Filled := fun value =>
  inferInstanceAs (Decidable (normalizeValue value.toList ≠ []))

/-- Normalizing leaves nothing of a blank value and something of every other one. -/
theorem filled_iff {value : String} : Filled value ↔ Text.allBlank value.toList = false := by
  rw [Filled, normalizeValue, ne_eq, Text.collapse_eq_nil_iff, Text.strip_eq_nil_iff,
    Text.allBlank_lower, Bool.not_eq_true]

/-- The second value is a duplicate of the first one. -/
def Duplicates (t : Threshold) (existing value : String) : Prop :=
  isDuplicate t (normalizeValue existing.toList) (normalizeValue value.toList) = true

/-- What the walk makes of one value: it passes it over, as blank or as no duplicate, tracks it as
the first one of its field, or counts it as a duplicate and tracks the longer value. -/
theorem MergeWalk.step_cases (t : Threshold) (w : MergeWalk) (field value : String) :
    (step t w (field, value) = w ∧
      (Filled value → ∃ existing, w.tracked.lookup field = some existing ∧
        ¬ Duplicates t existing value)) ∨
    (step t w (field, value) = { w with tracked := w.tracked.set field value } ∧
      Filled value ∧ w.tracked.lookup field = none) ∨
    ∃ existing, step t w (field, value) = w.collide field (longer existing value) ∧
      Filled value ∧ w.tracked.lookup field = some existing ∧ Duplicates t existing value := by
  unfold step
  dsimp only
  by_cases hblank : (normalizeValue value.toList).isEmpty = true
  · rw [if_pos hblank]
    exact .inl ⟨rfl, fun hfilled => absurd (List.isEmpty_iff.1 hblank) hfilled⟩
  · have hfilled : Filled value := fun hnil => hblank (List.isEmpty_iff.2 hnil)
    rw [if_neg hblank]
    cases htracked : w.tracked.lookup field with
    | none => exact .inr (.inl ⟨rfl, hfilled, rfl⟩)
    | some existing =>
      by_cases hduplicate : Duplicates t existing value
      · exact .inr (.inr ⟨existing, if_pos hduplicate, hfilled, rfl, hduplicate⟩)
      · exact .inl ⟨if_neg hduplicate, fun _ => ⟨existing, rfl, hduplicate⟩⟩

/-- What the walk knows of one field: nothing yet, or the tracked value and the number of
duplicates that were seen. -/
inductive Track
  | unseen
  | seen (value : String) (duplicates : Nat)
  deriving DecidableEq

namespace Track

def value? : Track → Option String
  | unseen => none
  | seen value _ => some value

/-- The merged value: the tracked one after a duplicate. -/
def merged? : Track → Option String
  | unseen => none
  | seen _ 0 => none
  | seen value (_ + 1) => some value

def step (t : Threshold) (k : Track) (value : String) : Track :=
  if (normalizeValue value.toList).isEmpty then k
  else
    match k with
    | unseen => seen value 0
    | seen existing n =>
      if isDuplicate t (normalizeValue existing.toList) (normalizeValue value.toList) then
        seen (MergeWalk.longer existing value) (n + 1)
      else k

end Track

/-- A value of another field leaves what the walk holds of a field. -/
theorem MergeWalk.lookup_step_of_ne (t : Threshold) (w : MergeWalk) {field other : String}
    (hne : field ≠ other) (value : String) :
    (step t w (other, value)).tracked.lookup field = w.tracked.lookup field ∧
      (step t w (other, value)).result.merged.lookup field = w.result.merged.lookup field := by
  rcases step_cases t w other value with ⟨hstep, -⟩ | ⟨hstep, -⟩ | ⟨existing, hstep, -⟩
  · rw [hstep]
    exact ⟨rfl, rfl⟩
  · rw [hstep]
    exact ⟨Table.lookup_set_of_ne hne _ _, rfl⟩
  · rw [hstep]
    exact ⟨Table.lookup_set_of_ne hne _ _, Table.lookup_set_of_ne hne _ _⟩

/-- The values of a field, in order. -/
def valuesOf (field : String) (entries : List (String × String)) : List String :=
  (entries.filter fun e => e.1 = field).map (·.2)

/-- What the walk over some entries knows of a field. -/
def track (t : Threshold) (field : String) (entries : List (String × String)) : Track :=
  (valuesOf field entries).foldl (Track.step t) .unseen

theorem mem_valuesOf_iff {field value : String} {entries : List (String × String)} :
    value ∈ valuesOf field entries ↔ (field, value) ∈ entries := by
  simp [valuesOf]

/-- A tracked value was tracked before, or it is the new value and not blank. -/
theorem Track.value?_step {t : Threshold} {k : Track} {value tracked : String}
    (h : (k.step t value).value? = some tracked) :
    k.value? = some tracked ∨ (tracked = value ∧ Filled value) := by
  unfold Track.step at h
  split at h
  · exact .inl h
  · rename_i hblank
    have hfilled : Filled value := fun hnil => hblank (List.isEmpty_iff.2 hnil)
    cases k with
    | unseen =>
      cases h
      exact .inr ⟨rfl, hfilled⟩
    | seen existing n =>
      dsimp only at h
      split at h
      · cases h
        unfold MergeWalk.longer
        split
        · exact .inr ⟨rfl, hfilled⟩
        · exact .inl rfl
      · exact .inl h

/-- The tracked value is one of the values of the field, and not blank. -/
theorem mem_of_value?_track {t : Threshold} {field tracked : String}
    {entries : List (String × String)} (h : (track t field entries).value? = some tracked) :
    tracked ∈ valuesOf field entries ∧ Filled tracked := by
  unfold track at h
  generalize valuesOf field entries = values at h
  induction values using List.reverseRecOn with
  | nil => cases h
  | append_singleton values value ih =>
    rw [List.foldl_append] at h
    rcases Track.value?_step h with hbefore | ⟨rfl, hfilled⟩
    · obtain ⟨hmem, hfilled⟩ := ih hbefore
      exact ⟨List.mem_append_left _ hmem, hfilled⟩
    · exact ⟨by simp, hfilled⟩

theorem Track.value?_of_merged? {k : Track} {merged : String} (h : k.merged? = some merged) :
    k.value? = some merged := by
  match k with
  | .unseen => cases h
  | .seen _ 0 => cases h
  | .seen _ (_ + 1) => exact h

structure MergeWalk.Knows (w : MergeWalk) (field : String) (k : Track) : Prop where
  tracked_eq : w.tracked.lookup field = k.value?
  merged_eq : w.result.merged.lookup field = k.merged?

namespace MergeWalk.Knows

variable {t : Threshold} {w : MergeWalk} {field : String} {k : Track}

/-- A value of the field. -/
theorem step (h : w.Knows field k) (value : String) :
    (MergeWalk.step t w (field, value)).Knows field (k.step t value) := by
  unfold MergeWalk.step Track.step
  dsimp only
  by_cases hblank : (normalizeValue value.toList).isEmpty = true
  · rw [if_pos hblank, if_pos hblank]
    exact h
  · rw [if_neg hblank, if_neg hblank]
    cases k with
    | unseen =>
      rw [show w.tracked.lookup field = none from h.tracked_eq]
      exact ⟨Table.lookup_set_self _ _ _, h.merged_eq⟩
    | seen existing n =>
      rw [show w.tracked.lookup field = some existing from h.tracked_eq]
      dsimp only
      split
      · exact ⟨Table.lookup_set_self _ _ _, Table.lookup_set_self _ _ _⟩
      · exact h

/-- A value of another field. -/
theorem step_of_ne (h : w.Knows field k) {other : String} (hne : field ≠ other) (value : String) :
    (MergeWalk.step t w (other, value)).Knows field k := by
  obtain ⟨htracked, hmerged⟩ := MergeWalk.lookup_step_of_ne t w hne value
  exact ⟨htracked.trans h.tracked_eq, hmerged.trans h.merged_eq⟩

theorem foldl (h : w.Knows field k) (entries : List (String × String)) :
    (entries.foldl (MergeWalk.step t) w).Knows field
      ((valuesOf field entries).foldl (Track.step t) k) := by
  induction entries generalizing w k with
  | nil => exact h
  | cons e entries ih =>
    obtain ⟨other, value⟩ := e
    rw [List.foldl_cons, valuesOf, List.filter_cons]
    by_cases hfield : other = field
    · subst hfield
      rw [if_pos (by simp)]
      exact ih (h.step value)
    · rw [if_neg (by simpa using hfield)]
      exact ih (h.step_of_ne (fun heq => hfield heq.symm) value)

end MergeWalk.Knows

/-- A field is merged by its own values. -/
theorem lookup_merged (t : Threshold) (field : String) (snapshots : List (Table String)) :
    (merge t snapshots).merged.lookup field = (track t field snapshots.flatten).merged? :=
  MergeWalk.Knows.merged_eq (.foldl ⟨rfl, rfl⟩ _)

theorem valuesOf_append (field : String) (entries more : List (String × String)) :
    valuesOf field (entries ++ more) = valuesOf field entries ++ valuesOf field more := by
  simp [valuesOf]

/-- A snapshot has at most one value of a field. -/
theorem valuesOf_of_nodup {fields : Table String} (h : fields.keys.Nodup) (field : String) :
    valuesOf field fields = (fields.lookup field).toList := by
  induction fields with
  | nil => rfl
  | cons e fields ih =>
    obtain ⟨other, value⟩ := e
    rw [Table.keys, List.map_cons, List.nodup_cons] at h
    rw [valuesOf, List.filter_cons, List.lookup_cons]
    by_cases hfield : field = other
    · subst hfield
      have hrest : valuesOf field fields = [] := by
        rw [ih h.2, Table.lookup_eq_none_of_notMem h.1, Option.toList_none]
      rw [valuesOf] at hrest
      rw [if_pos (by simp), List.map_cons, hrest, BEq.rfl]
      rfl
    · have hne : (field == other) = false := by simpa using hfield
      rw [if_neg (by simpa using fun heq : other = field => hfield heq.symm), hne]
      exact ih h.2

/-! ## What is written -/

/-- Without a duplicate nothing is merged, and no field stands twice among the merged ones. -/
structure MergeResult.Plain (r : MergeResult) : Prop where
  nodup : r.merged.keys.Nodup
  merged_eq_nil : r.duplicates = 0 → r.merged = []

theorem MergeResult.Plain.step {t : Threshold} {w : MergeWalk} (h : w.result.Plain)
    (entry : String × String) : (MergeWalk.step t w entry).result.Plain := by
  rcases MergeWalk.step_cases t w entry.1 entry.2 with
    ⟨hstep, -⟩ | ⟨hstep, -⟩ | ⟨existing, hstep, -⟩
  · rw [hstep]
    exact h
  · rw [hstep]
    exact h
  · rw [hstep]
    exact ⟨Table.nodup_keys_set h.nodup _ _, fun hzero => absurd hzero (Nat.succ_ne_zero _)⟩

theorem plain_merge (t : Threshold) (snapshots : List (Table String)) :
    (merge t snapshots).Plain := by
  have hwalk : ∀ (entries : List (String × String)) (w : MergeWalk), w.result.Plain →
      (entries.foldl (MergeWalk.step t) w).result.Plain := by
    intro entries
    induction entries with
    | nil => exact fun w h => h
    | cons e entries ih => exact fun w h => ih _ (h.step e)
  exact hwalk _ {} ⟨List.nodup_nil, fun _ => rfl⟩

/-- Merging leaves the merged values over the personal information. -/
theorem deduplicate_eq (p : Profile) (t : Threshold) :
    p.deduplicate t =
      ({ p with personalInfo :=
          p.personalInfo.override (merge t (p.snapshots.map (·.fields))).merged },
        merge t (p.snapshots.map (·.fields))) := by
  unfold deduplicate
  dsimp only
  split
  · rename_i hzero
    rw [(plain_merge _ _).merged_eq_nil hzero]
    rfl
  · rfl

theorem deduplicate_snd (p : Profile) (t : Threshold) :
    (p.deduplicate t).2 = merge t (p.snapshots.map (·.fields)) := by
  rw [deduplicate_eq]

/-- The personal information after merging: the merged values over those that were there. -/
theorem lookup_deduplicate (p : Profile) (t : Threshold) (field : String) :
    (p.deduplicate t).1.personalInfo.lookup field =
      ((p.deduplicate t).2.merged.lookup field).or (p.personalInfo.lookup field) := by
  rw [deduplicate_eq]
  exact Table.lookup_override (plain_merge t _).nodup _ _

end Stencil.Profile
