import Stencil.Profile.Store
import Stencil.Proofs.Listing

/-!
# Counting uses

The index of frequent variables has one entry for each name.  Counting a use changes the entry of
its name and no other (`find?_countUse`); so does counting the uses of a table, for every name that
has a value there (`find?_countFields`).  What the index then says of a name is what the snapshots
say: the latest value and the number of snapshots with a value (`usage?`).
-/

namespace Stencil

theorem Table.given?_of_notMem {t : Table String} {name : String} (h : name ∉ t.keys) :
    t.given? name = none := by
  rw [Table.given?, lookup_eq_none_of_notMem h, Option.filter_none]

namespace FrequentVariable

def find? (index : List FrequentVariable) (name : String) : Option FrequentVariable :=
  List.find? (fun f => f.name = name) index

def frequencyOf (index : List FrequentVariable) (name : String) : Nat :=
  (find? index name).elim 0 (·.frequency)

/-- A name that is counted for the first time is added at the end. -/
theorem names_countUse (name value : String) (index : List FrequentVariable) :
    (countUse name value index).map (·.name) =
      addNew (fun _ => true) (index.map (·.name)) name := by
  induction index with
  | nil => rfl
  | cons g rest ih =>
    rw [countUse]
    by_cases hlast : (g.name = name && rest.all fun g => g.name ≠ name) = true
    · have hname : g.name = name := by
        rw [Bool.and_eq_true] at hlast
        exact of_decide_eq_true hlast.1
      rw [if_pos hlast, List.map_cons, List.map_cons, hname, addNew_of_mem List.mem_cons_self]
    · rw [if_neg hlast, List.map_cons, ih, List.map_cons]
      by_cases hrest : name ∈ rest.map (·.name)
      · rw [addNew_of_mem hrest, addNew_of_mem (List.mem_cons_of_mem _ hrest)]
      · -- the head is not of that name, or it would have been counted
        have hne : name ≠ g.name := by
          rintro rfl
          apply hlast
          rw [Bool.and_eq_true, List.all_eq_true]
          refine ⟨by simp, fun f hf => decide_eq_true fun heq => hrest ?_⟩
          exact heq ▸ List.mem_map_of_mem hf
        have hnotMem : name ∉ g.name :: rest.map (·.name) := by
          rw [List.mem_cons]
          rintro (heq | hmem)
          · exact hne heq
          · exact hrest hmem
        rw [addNew_of_notMem rfl hrest, addNew_of_notMem rfl hnotMem, List.cons_append]

theorem nodup_countUse {index : List FrequentVariable} (h : (index.map (·.name)).Nodup)
    (name value : String) : ((countUse name value index).map (·.name)).Nodup := by
  rw [names_countUse]
  exact nodup_addNew h _ _

/-- Counting a use changes the entry of its name and no other. -/
theorem find?_countUse {index : List FrequentVariable} (h : (index.map (·.name)).Nodup)
    (name value other : String) :
    find? (countUse name value index) other =
      if other = name then some ⟨name, value, frequencyOf index name + 1⟩
      else find? index other := by
  induction index with
  | nil =>
    by_cases hother : other = name
    · subst hother
      simp [countUse, find?, frequencyOf]
    · have hne : name ≠ other := fun heq => hother heq.symm
      simp [countUse, find?, hother, hne]
  | cons g rest ih =>
    rw [List.map_cons, List.nodup_cons] at h
    rw [countUse]
    by_cases hname : g.name = name
    · have hlast : (g.name = name && rest.all fun g => g.name ≠ name) = true := by
        rw [Bool.and_eq_true, List.all_eq_true]
        refine ⟨by simpa using hname, fun f hf => decide_eq_true fun heq => h.1 ?_⟩
        exact hname ▸ heq ▸ List.mem_map_of_mem hf
      have hfreq : frequencyOf (g :: rest) name = g.frequency := by
        simp [frequencyOf, find?, hname]
      rw [if_pos hlast, hfreq]
      by_cases hother : other = name
      · subst hother
        simp [find?]
      · have hne : name ≠ other := fun heq => hother heq.symm
        simp [find?, hother, hne, hname]
    · have hlast : ¬ (g.name = name && rest.all fun g => g.name ≠ name) = true := by
        simp [hname]
      have hfreq : frequencyOf (g :: rest) name = frequencyOf rest name := by
        simp [frequencyOf, find?, hname]
      rw [if_neg hlast, hfreq]
      by_cases hg : g.name = other
      · have hne : other ≠ name := fun heq => hname (hg.trans heq)
        simp [find?, hg, hne]
      · have hskip : ∀ l, find? (g :: l) other = find? l other := fun l => by
          simp [find?, hg]
        rw [hskip, hskip, ih h.2]

theorem nodup_countFields {index : List FrequentVariable} (h : (index.map (·.name)).Nodup)
    (fields : Table String) : ((countFields index fields).map (·.name)).Nodup := by
  induction fields generalizing index with
  | nil => exact h
  | cons e fields ih =>
    rw [countFields, List.foldl_cons]
    refine ih ?_
    split
    · exact h
    · exact nodup_countUse h _ _

/-- Counting the uses of a table changes the entries of the names with a value there. -/
theorem find?_countFields {index : List FrequentVariable} (h : (index.map (·.name)).Nodup)
    {fields : Table String} (hfields : fields.keys.Nodup) (name : String) :
    find? (countFields index fields) name =
      match fields.given? name with
      | some value => some ⟨name, value, frequencyOf index name + 1⟩
      | none => find? index name := by
  induction fields generalizing index with
  | nil => rfl
  | cons e fields ih =>
    obtain ⟨key, value⟩ := e
    rw [Table.keys, List.map_cons, List.nodup_cons] at hfields
    have hcons : countFields index ((key, value) :: fields) =
        countFields (if value.isEmpty then index else countUse key value index) fields := rfl
    by_cases hkey : name = key
    · -- the name stands in no later field
      subst hkey
      have hrest : Table.given? fields name = none := Table.given?_of_notMem hfields.1
      by_cases hvalue : value.isEmpty = true
      · have hgiven : Table.given? ((name, value) :: fields) name = none := by
          simp [Table.given?, String.isEmpty_iff.1 hvalue]
        rw [hcons, if_pos hvalue, ih h hfields.2, hrest, hgiven]
      · have hgiven : Table.given? ((name, value) :: fields) name = some value := by
          simp [Table.given?, hvalue]
        rw [hcons, if_neg hvalue, ih (nodup_countUse h _ _) hfields.2, hrest, hgiven]
        simp only [find?_countUse h, if_true]
    · have hgiven : Table.given? ((key, value) :: fields) name = Table.given? fields name := by
        have hne : (name == key) = false := by simpa using hkey
        rw [Table.given?, Table.given?, List.lookup_cons, hne]
      have hsame : find? (if value.isEmpty then index else countUse key value index) name =
          find? index name := by
        split
        · rfl
        · rw [find?_countUse h, if_neg hkey]
      have hnodup :
          ((if value.isEmpty then index else countUse key value index).map (·.name)).Nodup := by
        split
        · exact h
        · exact nodup_countUse h _ _
      rw [hcons, ih hnodup hfields.2, hgiven, frequencyOf, frequencyOf, hsame]

end FrequentVariable

/-! ## What snapshots say of a name -/

namespace Profile

def timesGiven (name : String) (snapshots : List Snapshot) : Nat :=
  snapshots.countP fun s => (s.fields.given? name).isSome

/-- The entry that a name should have: its latest value and the number of snapshots with one. -/
def usage? (name : String) (snapshots : List Snapshot) : Option FrequentVariable :=
  (latestGiven? name snapshots).map fun value => ⟨name, value, timesGiven name snapshots⟩

theorem latestGiven?_append (name : String) (snapshots : List Snapshot) (s : Snapshot) :
    latestGiven? name (snapshots ++ [s]) =
      (s.fields.given? name).or (latestGiven? name snapshots) := by
  rw [latestGiven?, latestGiven?, List.reverse_append, List.reverse_singleton,
    List.singleton_append, List.findSome?_cons]
  cases s.fields.given? name <;> rfl

theorem latestGiven?_isSome_iff {name : String} {snapshots : List Snapshot} :
    (latestGiven? name snapshots).isSome ↔
      ∃ s ∈ snapshots, (s.fields.given? name).isSome := by
  simp [latestGiven?]

/-- A name without a latest value was never given. -/
theorem timesGiven_of_none {name : String} {snapshots : List Snapshot}
    (h : latestGiven? name snapshots = none) : timesGiven name snapshots = 0 := by
  refine List.countP_eq_zero.2 fun s hs hgiven => ?_
  have hsome := latestGiven?_isSome_iff.2 ⟨s, hs, hgiven⟩
  rw [h] at hsome
  cases hsome

/-- One more snapshot is one more use of the names that have a value in it. -/
theorem usage?_append (name : String) (snapshots : List Snapshot) (s : Snapshot) :
    usage? name (snapshots ++ [s]) =
      match s.fields.given? name with
      | some value => some ⟨name, value, (usage? name snapshots).elim 0 (·.frequency) + 1⟩
      | none => usage? name snapshots := by
  have htimes : (usage? name snapshots).elim 0 (·.frequency) = timesGiven name snapshots := by
    unfold usage?
    cases hlatest : latestGiven? name snapshots with
    | none => exact (timesGiven_of_none hlatest).symm
    | some value => rfl
  rw [htimes, usage?, latestGiven?_append, timesGiven, List.countP_append]
  cases hgiven : s.fields.given? name with
  | none => simp [usage?, timesGiven, hgiven]
  | some value => simp [timesGiven, hgiven]

end Profile

end Stencil
