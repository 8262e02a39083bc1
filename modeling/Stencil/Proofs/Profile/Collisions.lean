import Stencil.Proofs.Listing
import Stencil.Proofs.Profile.Merging

/-!
# What the merge walk counts

A collision is an entry at which the count of the walk goes up (`collisions`).  Everything in the
result goes back to the collisions (`explained_merge`): there are as many as were counted, and the
affected fields are theirs, in the order of their first ones.  The value of a field is found among
the first value that is not blank and the values of its collisions (`Keeps`), as the first of the
longest of them (`merge_collisions`).
-/

namespace Stencil.Profile

/-! ## Collisions -/

namespace MergeWalk

def counts (t : Threshold) (w : MergeWalk) (entry : String × String) : Bool :=
  w.result.duplicates < (step t w entry).result.duplicates

/-- The entries that the walk counts as duplicates, in order. -/
def collisions (t : Threshold) : MergeWalk → List (String × String) → List (String × String)
  | _, [] => []
  | w, entry :: entries =>
    (if w.counts t entry then [entry] else []) ++ collisions t (step t w entry) entries

variable {t : Threshold} {w : MergeWalk} {field value : String}

theorem counts_of_step_eq {tracked : Table String}
    (h : step t w (field, value) = { w with tracked }) : w.counts t (field, value) = false := by
  rw [counts, h]
  exact decide_eq_false (Nat.lt_irrefl _)

theorem counts_of_collide {merged : String}
    (h : step t w (field, value) = w.collide field merged) : w.counts t (field, value) = true := by
  rw [counts, h]
  exact decide_eq_true (Nat.lt_succ_self _)

/-- An entry is counted if its value is not blank and a duplicate of what is tracked. -/
theorem counts_iff : w.counts t (field, value) = true ↔
    Filled value ∧ ∃ existing, w.tracked.lookup field = some existing ∧
      Duplicates t existing value := by
  rcases step_cases t w field value with
    ⟨hstep, hpassed⟩ | ⟨hstep, -, hnone⟩ | ⟨existing, hstep, hfilled, hsome, hduplicate⟩
  · rw [counts_of_step_eq hstep]
    refine ⟨fun h => (Bool.false_ne_true h).elim, fun ⟨hfilled, tracked, hsome, hduplicate⟩ => ?_⟩
    obtain ⟨tracked', hsome', hnot⟩ := hpassed hfilled
    rw [hsome] at hsome'
    cases hsome'
    exact absurd hduplicate hnot
  · rw [counts_of_step_eq hstep, hnone]
    exact ⟨fun h => (Bool.false_ne_true h).elim, fun ⟨_, _, hsome, _⟩ => by cases hsome⟩
  · rw [counts_of_collide hstep]
    exact ⟨fun _ => ⟨hfilled, existing, hsome, hduplicate⟩, fun _ => rfl⟩

end MergeWalk

theorem MergeWalk.longer_eq_maxOn (existing value : String) :
    longer existing value = maxOn String.length existing value := by
  unfold longer
  split
  · rw [maxOn_eq_right (by omega)]
  · rw [maxOn_eq_left (by omega)]

/-- The entries of the snapshots that merging counts as duplicates, in order. -/
def collisions (t : Threshold) (snapshots : List (Table String)) : List (String × String) :=
  MergeWalk.collisions t {} snapshots.flatten

/-! ## The result as a whole -/

/-- The result goes back to the entries that were counted. -/
structure MergeResult.Explained (r : MergeResult) (collided : List (String × String)) : Prop where
  duplicates_eq : r.duplicates = collided.length
  affected_eq : r.affected = (collided.map (·.1)).eraseDups
  keys_merged : r.merged.keys = r.affected

namespace MergeResult.Explained

variable {t : Threshold} {w : MergeWalk} {collided : List (String × String)}

theorem step (h : w.result.Explained collided) (entry : String × String) :
    (MergeWalk.step t w entry).result.Explained
      (collided ++ if w.counts t entry then [entry] else []) := by
  obtain ⟨field, value⟩ := entry
  rcases MergeWalk.step_cases t w field value with
    ⟨hstep, -⟩ | ⟨hstep, -⟩ | ⟨existing, hstep, -⟩
  · rw [MergeWalk.counts_of_step_eq hstep, hstep, if_neg Bool.false_ne_true, List.append_nil]
    exact h
  · rw [MergeWalk.counts_of_step_eq hstep, hstep, if_neg Bool.false_ne_true, List.append_nil]
    exact h
  · have haffected : (w.collide field (MergeWalk.longer existing value)).result.affected =
        addNew (fun _ => true) w.result.affected field := by
      unfold MergeWalk.collide addNew
      cases w.result.affected.contains field <;> rfl
    rw [MergeWalk.counts_of_collide hstep, hstep, if_pos rfl]
    refine ⟨?_, ?_, ?_⟩
    · rw [List.length_append, ← h.duplicates_eq]
      rfl
    · rw [haffected, List.map_append, List.map_singleton, eraseDups_concat, h.affected_eq]
    · rw [haffected]
      show (w.result.merged.set field _).keys = _
      rw [Table.keys_set, h.keys_merged]
      split
      case isTrue hmem => rw [addNew_of_mem hmem]
      case isFalse hnew => rw [addNew_of_notMem rfl hnew]

theorem foldl (h : w.result.Explained collided) (entries : List (String × String)) :
    (entries.foldl (MergeWalk.step t) w).result.Explained
      (collided ++ w.collisions t entries) := by
  induction entries generalizing w collided with
  | nil =>
    rw [MergeWalk.collisions, List.append_nil]
    exact h
  | cons entry entries ih =>
    rw [MergeWalk.collisions, ← List.append_assoc]
    exact ih (h.step entry)

/-- Nothing is counted exactly if nothing is merged. -/
theorem duplicates_eq_zero_iff {r : MergeResult} (h : r.Explained collided) :
    r.duplicates = 0 ↔ r.merged = [] := by
  have hkeys : r.merged.map (·.1) = (collided.map (·.1)).eraseDups :=
    h.keys_merged.trans h.affected_eq
  have hmerged : r.merged = [] ↔ (collided.map (·.1)).eraseDups = [] := by
    rw [← hkeys, List.map_eq_nil_iff]
  rw [h.duplicates_eq, List.length_eq_zero_iff, hmerged]
  cases collided with
  | nil => simp
  | cons e collided => simp [List.eraseDups_cons]

end MergeResult.Explained

/-- The result of merging goes back to the collisions. -/
theorem explained_merge (t : Threshold) (snapshots : List (Table String)) :
    (merge t snapshots).Explained (collisions t snapshots) := by
  have hstart : ({} : MergeWalk).result.Explained [] := ⟨rfl, rfl, rfl⟩
  exact hstart.foldl snapshots.flatten

/-! ## The value of a field -/

/-- What the walk holds of a field with some values, of which some collided: the first of the
longest of the first value that is not blank and the others that collided. -/
structure MergeWalk.Keeps (w : MergeWalk) (field : String) (values collided : List String) :
    Prop where
  tracked_eq : w.tracked.lookup field =
    ((values.find? Filled).toList ++ collided).maxOn? String.length
  merged_eq : w.result.merged.lookup field =
    if collided = [] then none else w.tracked.lookup field
  collided_of_none : values.find? Filled = none → collided = []

namespace MergeWalk.Keeps

variable {t : Threshold} {w : MergeWalk} {field : String} {values collided : List String}

/-- A value is tracked if one of the values so far is not blank. -/
theorem tracked_eq_none_iff (h : w.Keeps field values collided) :
    w.tracked.lookup field = none ↔ values.find? Filled = none := by
  rw [h.tracked_eq]
  cases hfirst : values.find? Filled with
  | none =>
    rw [h.collided_of_none hfirst]
    exact ⟨fun _ => rfl, fun _ => rfl⟩
  | some first =>
    rw [Option.toList_some, List.singleton_append, List.maxOn?_cons]
    exact ⟨fun hnone => (Option.some_ne_none _ hnone).elim,
      fun hnone => (Option.some_ne_none _ hnone).elim⟩

/-- Behind a tracked value no value is the first one. -/
theorem find?_concat (h : w.Keeps field values collided) {existing : String}
    (hsome : w.tracked.lookup field = some existing) (value : String) :
    (values ++ [value]).find? Filled = values.find? Filled := by
  have hfirst : values.find? Filled ≠ none := by
    rw [ne_eq, ← h.tracked_eq_none_iff, hsome]
    exact Option.some_ne_none existing
  rw [List.find?_append, Option.or_of_isSome (Option.isSome_iff_ne_none.2 hfirst)]

/-- One more value of the field. -/
theorem step (h : w.Keeps field values collided) (value : String) :
    (MergeWalk.step t w (field, value)).Keeps field (values ++ [value])
      (collided ++ if w.counts t (field, value) then [value] else []) := by
  rcases MergeWalk.step_cases t w field value with
    ⟨hstep, hpassed⟩ | ⟨hstep, hfilled, hnone⟩ | ⟨existing, hstep, hfilled, hsome, -⟩
  · have hfirst : (values ++ [value]).find? Filled = values.find? Filled := by
      by_cases hfilled : Filled value
      · obtain ⟨existing, hsome, -⟩ := hpassed hfilled
        exact h.find?_concat hsome value
      · simp [hfilled]
    rw [MergeWalk.counts_of_step_eq hstep, hstep, if_neg Bool.false_ne_true, List.append_nil]
    exact ⟨hfirst ▸ h.tracked_eq, h.merged_eq, fun hnone => h.collided_of_none (hfirst ▸ hnone)⟩
  · have hbefore := h.tracked_eq_none_iff.1 hnone
    have hcollided := h.collided_of_none hbefore
    have hfirst : (values ++ [value]).find? Filled = some value := by
      simp [hbefore, hfilled]
    rw [MergeWalk.counts_of_step_eq hstep, hstep, if_neg Bool.false_ne_true, List.append_nil]
    refine ⟨?_, ?_, fun hnone => ?_⟩
    · rw [hfirst, hcollided]
      exact (Table.lookup_set_self _ _ _).trans List.maxOn?_singleton.symm
    · rw [if_pos hcollided]
      exact h.merged_eq.trans (if_pos hcollided)
    · rw [hfirst] at hnone
      cases hnone
  · have htracked : (MergeWalk.step t w (field, value)).tracked.lookup field =
        some (longer existing value) := by
      rw [hstep]
      exact Table.lookup_set_self _ _ _
    have hfirst := h.find?_concat hsome value
    rw [MergeWalk.counts_of_collide hstep, if_pos rfl]
    refine ⟨?_, ?_, fun hnone => ?_⟩
    · rw [htracked, hfirst, ← List.append_assoc, List.maxOn?_append, ← h.tracked_eq, hsome,
        List.maxOn?_singleton, longer_eq_maxOn]
      rfl
    · rw [if_neg (by simp), htracked, hstep]
      exact Table.lookup_set_self _ _ _
    · rw [hfirst, ← h.tracked_eq_none_iff, hsome] at hnone
      cases hnone

/-- A value of another field. -/
theorem step_of_ne (h : w.Keeps field values collided) {other : String} (hne : field ≠ other)
    (value : String) : (MergeWalk.step t w (other, value)).Keeps field values collided := by
  obtain ⟨htracked, hmerged⟩ := MergeWalk.lookup_step_of_ne t w hne value
  exact ⟨htracked.trans h.tracked_eq, by rw [hmerged, htracked]; exact h.merged_eq,
    h.collided_of_none⟩

theorem foldl (h : w.Keeps field values collided) (entries : List (String × String)) :
    (entries.foldl (MergeWalk.step t) w).Keeps field (values ++ valuesOf field entries)
      (collided ++ valuesOf field (w.collisions t entries)) := by
  induction entries generalizing w values collided with
  | nil => simpa [valuesOf, MergeWalk.collisions] using h
  | cons entry entries ih =>
    obtain ⟨other, value⟩ := entry
    rw [MergeWalk.collisions, valuesOf_append, ← List.singleton_append, valuesOf_append,
      ← List.append_assoc, ← List.append_assoc]
    by_cases hfield : field = other
    · subst hfield
      have hvalue : valuesOf field [(field, value)] = [value] := by simp [valuesOf]
      have hcollided : valuesOf field (if w.counts t (field, value) then [(field, value)] else []) =
          if w.counts t (field, value) then [value] else [] := by
        split
        · exact hvalue
        · rfl
      rw [hvalue, hcollided]
      exact ih (h.step value)
    · have hother : ∀ b : Bool, valuesOf field (if b then [(other, value)] else []) = [] := by
        have hne : ¬ other = field := fun heq => hfield heq.symm
        intro b
        cases b <;> simp [valuesOf, hne]
      have hvalue : valuesOf field [(other, value)] = [] := hother true
      rw [hvalue, hother, List.append_nil, List.append_nil]
      exact ih (h.step_of_ne hfield value)

end MergeWalk.Keeps

/-- What merging holds of a field. -/
theorem keeps_merge (t : Threshold) (snapshots : List (Table String)) (field : String) :
    (snapshots.flatten.foldl (MergeWalk.step t) {}).Keeps field
      (valuesOf field snapshots.flatten) (valuesOf field (collisions t snapshots)) := by
  have hstart : ({} : MergeWalk).Keeps field [] [] := ⟨rfl, rfl, fun _ => rfl⟩
  exact hstart.foldl snapshots.flatten

/-- The value is the first of the longest of some values. -/
structure FirstLongest (value : String) (values : List String) : Prop where
  length_le : ∀ other ∈ values, other.length ≤ value.length
  first : ∃ shorter rest, values = shorter ++ value :: rest ∧
    ∀ other ∈ shorter, other.length < value.length

theorem firstLongest_of_maxOn? {values : List String} {value : String}
    (h : values.maxOn? String.length = some value) : FirstLongest value values := by
  obtain ⟨shorter, rest, rfl, hshorter, hrest⟩ := exists_split_of_maxOn? h
  refine ⟨fun other hother => ?_, shorter, rest, rfl, hshorter⟩
  rw [List.mem_append, List.mem_cons] at hother
  rcases hother with hother | rfl | hother
  · exact Nat.le_of_lt (hshorter other hother)
  · exact Nat.le_refl _
  · exact hrest other hother

/-- A merged field has a first value that is not blank, and the merged value is the first of the
longest of that one and those that collided. -/
theorem firstLongest_of_merged {t : Threshold} {snapshots : List (Table String)}
    {field value : String} (h : (merge t snapshots).merged.lookup field = some value) :
    ∃ first, (valuesOf field snapshots.flatten).find? Filled = some first ∧
      FirstLongest value (first :: valuesOf field (collisions t snapshots)) := by
  have hkeeps := keeps_merge t snapshots field
  have htracked := hkeeps.merged_eq
  rw [show (snapshots.flatten.foldl (MergeWalk.step t) {}).result.merged.lookup field =
    some value from h] at htracked
  split at htracked
  · cases htracked
  · rename_i hcollided
    obtain ⟨first, hfirst⟩ := Option.ne_none_iff_exists'.1 (mt hkeeps.collided_of_none hcollided)
    rw [hkeeps.tracked_eq, hfirst] at htracked
    exact ⟨first, hfirst, firstLongest_of_maxOn? htracked.symm⟩

/-- **The merge walk.**  The affected fields are those of the collisions, in the order of their
first ones, each of them once, and the merged table has a value for each of them.  Every collision
is counted, so there are as many as affected fields at least, and none exactly if nothing is merged.
A merged value stands in a snapshot: it is the first of the longest of the first value of its field
that is not blank and the values of the field that collided. -/
theorem merge_collisions (t : Threshold) (snapshots : List (Table String)) :
    let r := merge t snapshots
    let collided := collisions t snapshots
    (r.affected.Nodup ∧ r.affected = (collided.map (·.1)).eraseDups ∧
      r.affected = r.merged.keys) ∧
    (r.duplicates = collided.length ∧ r.affected.length ≤ r.duplicates ∧
      (r.duplicates = 0 ↔ r.merged = [])) ∧
    ∀ field value, r.merged.lookup field = some value →
      (∃ fields ∈ snapshots, (field, value) ∈ fields) ∧
      ∃ first, (valuesOf field snapshots.flatten).find? (fun v => !Text.allBlank v.toList) =
          some first ∧
        FirstLongest value (first :: valuesOf field collided) := by
  intro r collided
  have hexplained := explained_merge t snapshots
  have hlength : r.affected.length ≤ r.duplicates := by
    have hcollided := length_eraseDups_le (collided.map (·.1))
    rw [List.length_map, ← hexplained.affected_eq, ← hexplained.duplicates_eq] at hcollided
    exact hcollided
  refine ⟨⟨?_, hexplained.affected_eq, hexplained.keys_merged.symm⟩,
    ⟨hexplained.duplicates_eq, hlength, hexplained.duplicates_eq_zero_iff⟩,
    fun field value hvalue => ⟨?_, ?_⟩⟩
  · rw [hexplained.affected_eq]
    exact nodup_eraseDups _
  · rw [lookup_merged] at hvalue
    obtain ⟨hmem, -⟩ := mem_of_value?_track (Track.value?_of_merged? hvalue)
    obtain ⟨fields, hfields, hentry⟩ := List.mem_flatten.1 (mem_valuesOf_iff.1 hmem)
    exact ⟨fields, hfields, hentry⟩
  · have hblank : (fun v : String => !Text.allBlank v.toList) = fun v => decide (Filled v) := by
      funext v
      simp [filled_iff]
    rw [hblank]
    exact firstLongest_of_merged hvalue

/-- A name after a blank one: another spelling of it, a longer one, one that is as long, and another
name, which is passed over. -/
theorem merge_collisions_spellings :
    let t : Threshold := ⟨Threshold.standard, by decide⟩
    let snapshots : List (Table String) :=
      [[("name", " ")], [("name", "Jon Smith"), ("city", "Rome")], [("name", "jon  smith")],
        [("name", "Jon Smithe"), ("city", "Paris")], [("name", "Jon Smythe")],
        [("name", "Maria Lopez")]]
    let r := merge t snapshots
    r.affected = ["name"] ∧ r.duplicates = 2 ∧ r.merged.lookup "name" = some "Jon Smithe" ∧
      (∃ fields ∈ snapshots, ("name", "Jon Smithe") ∈ fields) ∧
      FirstLongest "Jon Smithe" ["Jon Smith", "Jon Smithe", "Jon Smythe"] := by
  intro t snapshots r
  obtain ⟨⟨-, haffected, -⟩, ⟨hduplicates, -⟩, hvalues⟩ := merge_collisions t snapshots
  have hcollided : collisions t snapshots = [("name", "Jon Smithe"), ("name", "Jon Smythe")] := by
    decide +kernel
  have hmerged : r.merged.lookup "name" = some "Jon Smithe" := by decide +kernel
  obtain ⟨hstored, first, hfirst, hlongest⟩ := hvalues "name" "Jon Smithe" hmerged
  have hname : (valuesOf "name" snapshots.flatten).find? (fun v => !Text.allBlank v.toList) =
      some "Jon Smith" := by decide +kernel
  rw [hname] at hfirst
  cases hfirst
  rw [hcollided] at haffected hduplicates hlongest
  exact ⟨haffected.trans (by decide +kernel), hduplicates, hmerged, hstored, hlongest⟩

end Stencil.Profile
