import Mathlib.Data.List.Forall2
import Mathlib.Data.List.Perm.Basic
import Stencil.Proofs.Profile.Collisions

/-!
# Fields are merged independently

The walk looks at nothing but what it tracks of the field at hand.  So two walks that track the same
values of some fields (`Agree`) collide on the same entries of these fields, and the collisions of
some fields are the collisions that are found without the others (`collisions_only`).  What merging
gives for some fields is then what it gives without the others, and neither the count nor a merged
value depends on the order of the fields inside a snapshot (`merge_independent`).
-/

namespace Stencil

namespace Table

variable {α : Type}

/-- The entries whose names pass. -/
def only (p : String → Bool) (t : Table α) : Table α := t.filter fun e => p e.1

theorem keys_only (p : String → Bool) (t : Table α) : (t.only p).keys = t.keys.filter p := by
  rw [keys, keys, List.filter_map]
  rfl

theorem lookup_only {p : String → Bool} {name : String} (h : p name = true) (t : Table α) :
    (t.only p).lookup name = t.lookup name := by
  induction t with
  | nil => rfl
  | cons e t ih =>
    obtain ⟨k, a⟩ := e
    rw [only] at ih
    rw [only, List.filter_cons, List.lookup_cons]
    by_cases hk : name = k
    · subst hk
      rw [if_pos h, List.lookup_cons, BEq.rfl]
    · have hne : (name == k) = false := by simpa using hk
      split
      · rw [List.lookup_cons, hne, ih]
      · rw [hne, ih]

/-- A table is known by its names, in order, and what is found under them. -/
theorem eq_of_lookup_eq {t t' : Table α} (hkeys : t.keys = t'.keys) (hnodup : t.keys.Nodup)
    (h : ∀ name ∈ t.keys, t.lookup name = t'.lookup name) : t = t' := by
  induction t generalizing t' with
  | nil => exact (List.map_eq_nil_iff.1 hkeys.symm).symm
  | cons e t ih =>
    obtain ⟨k, a⟩ := e
    cases t' with
    | nil => cases hkeys
    | cons e' t' =>
      obtain ⟨k', a'⟩ := e'
      obtain ⟨rfl, hrest⟩ : k = k' ∧ keys t = keys t' := List.cons.inj hkeys
      rw [keys, List.map_cons, List.nodup_cons] at hnodup
      have hfirst := h k List.mem_cons_self
      rw [List.lookup_cons, List.lookup_cons, BEq.rfl] at hfirst
      obtain rfl : a = a' := Option.some.inj hfirst
      refine congrArg _ (ih hrest hnodup.2 fun name hname => ?_)
      have hne : (name == k) = false := by
        rw [beq_eq_false_iff_ne]
        rintro rfl
        exact hnodup.1 hname
      have hlater := h name (List.mem_cons_of_mem k hname)
      rwa [List.lookup_cons, List.lookup_cons, hne] at hlater

/-- Of the fields of one name there is at most one, so their order makes no difference. -/
theorem only_eq_of_perm {t t' : Table α} (h : t.Perm t') (hnodup : t.keys.Nodup) (name : String) :
    t.only (fun k => k = name) = t'.only (fun k => k = name) := by
  have hperm := h.filter fun e => decide (e.1 = name)
  by_cases hmem : ∃ e ∈ t, e.1 = name
  · obtain ⟨e, he, rfl⟩ := hmem
    have hsingle : t.only (fun k => k = e.1) = [e] := filter_of_nodup hnodup he
    rw [only] at hsingle
    rw [hsingle] at hperm
    rw [only, hsingle, only, List.singleton_perm.1 hperm]
  · have hnil : t.only (fun k => k = name) = [] := by
      refine List.filter_eq_nil_iff.2 fun e he heq => hmem ⟨e, he, of_decide_eq_true heq⟩
    rw [only] at hnil
    rw [hnil] at hperm
    rw [only, hnil, only, List.nil_perm.1 hperm]

end Table

namespace Profile

variable {t : Threshold} {p : String → Bool}

/-! ## Walks that track the same values of some fields -/

namespace MergeWalk

/-- The walks track the same values of the fields that pass. -/
def Agree (p : String → Bool) (w w' : MergeWalk) : Prop :=
  ∀ field, p field = true → w.tracked.lookup field = w'.tracked.lookup field

variable {w w' : MergeWalk}

/-- What the walk tracks of a field and whether it counts a value depend on what it has tracked of
that field. -/
theorem step_congr {field : String} (h : w.tracked.lookup field = w'.tracked.lookup field)
    (value : String) :
    (step t w (field, value)).tracked.lookup field =
        (step t w' (field, value)).tracked.lookup field ∧
      w.counts t (field, value) = w'.counts t (field, value) := by
  refine ⟨?_, Bool.eq_iff_iff.2 (by rw [counts_iff, counts_iff, h])⟩
  unfold step
  dsimp only
  split
  · exact h
  · rw [h]
    split
    · rw [Table.lookup_set_self, Table.lookup_set_self]
    · split
      · exact (Table.lookup_set_self _ _ _).trans (Table.lookup_set_self _ _ _).symm
      · exact h

theorem Agree.step (h : Agree p w w') (entry : String × String) :
    Agree p (step t w entry) (step t w' entry) := by
  obtain ⟨other, value⟩ := entry
  intro field hp
  by_cases hfield : field = other
  · subst hfield
    exact (step_congr (h field hp) value).1
  · rw [(lookup_step_of_ne t w hfield value).1, (lookup_step_of_ne t w' hfield value).1, h field hp]

/-- An entry that does not pass leaves the walks in agreement. -/
theorem Agree.step_left (h : Agree p w w') {entry : String × String} (hp : p entry.1 = false) :
    Agree p (MergeWalk.step t w entry) w' := by
  intro field hfield
  have hne : field ≠ entry.1 := by
    rintro rfl
    rw [hp] at hfield
    cases hfield
  rw [(lookup_step_of_ne t w hne entry.2).1, h field hfield]

/-- Without the other entries the walk counts the same entries among those that pass. -/
theorem Agree.collisions_filter (h : Agree p w w') (entries : List (String × String)) :
    w'.collisions t (entries.filter fun e => p e.1) =
      (w.collisions t entries).filter fun e => p e.1 := by
  induction entries generalizing w w' with
  | nil => rfl
  | cons entry entries ih =>
    rw [collisions, List.filter_append, List.filter_cons]
    by_cases hp : p entry.1 = true
    · have hcounts : w'.counts t entry = w.counts t entry :=
        (step_congr (h entry.1 hp) entry.2).2.symm
      have hkept : (if w.counts t entry then [entry] else []).filter (fun e => p e.1) =
          if w.counts t entry then [entry] else [] := by
        split <;> simp [hp]
      rw [if_pos hp, collisions, hcounts, ih (h.step entry), hkept]
    · have hout : (if w.counts t entry then [entry] else []).filter (fun e => p e.1) = [] := by
        split <;> simp [hp]
      rw [if_neg hp, hout, List.nil_append]
      exact ih (h.step_left (Bool.eq_false_iff.2 hp))

end MergeWalk

/-! ## Merging some of the fields -/

variable (t p) (snapshots : List (Table String))

theorem flatten_only :
    (snapshots.map (Table.only p)).flatten = snapshots.flatten.filter fun e => p e.1 :=
  List.filter_flatten.symm

/-- The collisions of some fields are those without the other fields. -/
theorem collisions_only :
    collisions t (snapshots.map (Table.only p)) =
      (collisions t snapshots).filter fun e => p e.1 := by
  have hagree : MergeWalk.Agree p {} {} := fun _ _ => rfl
  rw [collisions, collisions, flatten_only, hagree.collisions_filter]

theorem affected_only :
    (merge t (snapshots.map (Table.only p))).affected = (merge t snapshots).affected.filter p := by
  rw [(explained_merge _ _).affected_eq, (explained_merge _ _).affected_eq, collisions_only,
    ← eraseDups_filter, List.filter_map]
  rfl

theorem merged_only :
    (merge t (snapshots.map (Table.only p))).merged = (merge t snapshots).merged.only p := by
  have hkeys : (merge t (snapshots.map (Table.only p))).merged.keys =
      ((merge t snapshots).merged.only p).keys := by
    rw [(explained_merge _ _).keys_merged, affected_only, Table.keys_only,
      (explained_merge _ _).keys_merged]
  refine Table.eq_of_lookup_eq hkeys (plain_merge _ _).nodup fun field hfield => ?_
  have hp : p field = true := by
    rw [hkeys, Table.keys_only] at hfield
    exact (List.mem_filter.1 hfield).2
  have hvalues : valuesOf field (snapshots.flatten.filter fun e => p e.1) =
      valuesOf field snapshots.flatten := by
    rw [valuesOf, List.filter_filter, valuesOf]
    refine congrArg _ (List.filter_congr fun e _ => ?_)
    by_cases he : e.1 = field
    · simp [he, hp]
    · simp [he]
  rw [Table.lookup_only hp, lookup_merged, lookup_merged, flatten_only, track, hvalues, track]

theorem duplicates_only :
    (merge t snapshots).duplicates = (merge t (snapshots.map (Table.only p))).duplicates +
      (merge t (snapshots.map (Table.only fun field => !p field))).duplicates := by
  rw [(explained_merge _ _).duplicates_eq, (explained_merge _ _).duplicates_eq,
    (explained_merge _ _).duplicates_eq, collisions_only, collisions_only]
  exact List.length_eq_length_filter_add _

/-! ## Other orders of the fields -/

variable {t snapshots} {reordered : List (Table String)}
  (hnodup : ∀ fields ∈ snapshots, fields.keys.Nodup)
  (horder : List.Forall₂ List.Perm snapshots reordered)

include hnodup horder

/-- The entries of one field are the same in any order of the fields. -/
theorem map_only_eq (field : String) :
    snapshots.map (Table.only fun k => k = field) =
      reordered.map (Table.only fun k => k = field) := by
  induction horder with
  | nil => rfl
  | cons hfields _ ih =>
    rw [List.map_cons, List.map_cons,
      Table.only_eq_of_perm hfields (hnodup _ List.mem_cons_self) field,
      ih fun fields hmem => hnodup fields (List.mem_cons_of_mem _ hmem)]

/-- The same entries collide, in some order. -/
theorem collisions_perm : (collisions t snapshots).Perm (collisions t reordered) := by
  -- an entry is counted among the collisions of its own field, which are the same
  refine List.perm_iff_count.2 fun e => ?_
  have hfield : (collisions t snapshots).filter (fun e' => decide (e'.1 = e.1)) =
      (collisions t reordered).filter fun e' => decide (e'.1 = e.1) := by
    rw [← collisions_only t (fun k => k = e.1), ← collisions_only t (fun k => k = e.1),
      map_only_eq hnodup horder]
  have hcount (l : List (String × String)) :
      l.count e = (l.filter fun e' => decide (e'.1 = e.1)).count e :=
    (List.count_filter (by simp)).symm
  rw [hcount, hcount (collisions t reordered), hfield]

theorem lookup_merged_reordered (field : String) :
    (merge t snapshots).merged.lookup field = (merge t reordered).merged.lookup field := by
  have hself (table : Table String) :
      (table.only fun k => k = field).lookup field = table.lookup field :=
    Table.lookup_only (decide_eq_true rfl) table
  rw [← hself, ← merged_only, map_only_eq hnodup horder, merged_only, hself]

omit hnodup horder

/-- **Fields are merged independently.**  The fields that pass a test and the others may be merged
apart: the counts add up, the merged tables have no field in common and make up the merged table,
and the affected fields are those of the one and of the other, in the order that they have there.
So another order of the fields inside the snapshots changes the order of the affected fields
only. -/
theorem merge_independent (t : Threshold) (snapshots : List (Table String)) :
    (∀ p : String → Bool,
      let r := merge t snapshots
      let inside := merge t (snapshots.map (Table.only p))
      let outside := merge t (snapshots.map (Table.only fun field => !p field))
      r.duplicates = inside.duplicates + outside.duplicates ∧
      (inside.merged.keys.Disjoint outside.merged.keys ∧
        r.merged.Perm (inside.merged ++ outside.merged)) ∧
      r.affected.filter p = inside.affected ∧
      r.affected.filter (fun field => !p field) = outside.affected) ∧
    ∀ reordered, (∀ fields ∈ snapshots, fields.keys.Nodup) →
      List.Forall₂ List.Perm snapshots reordered →
      let r := merge t snapshots
      let r' := merge t reordered
      r.duplicates = r'.duplicates ∧
      (∀ field, r.merged.lookup field = r'.merged.lookup field) ∧
      r.affected.Perm r'.affected := by
  constructor
  · intro p r inside outside
    have hinside : inside.merged = r.merged.only p := merged_only t p snapshots
    have houtside : outside.merged = r.merged.only fun field => !p field :=
      merged_only t (fun field => !p field) snapshots
    refine ⟨duplicates_only t p snapshots, ⟨?_, ?_⟩, (affected_only t p snapshots).symm,
      (affected_only t (fun field => !p field) snapshots).symm⟩
    · rw [hinside, houtside, Table.keys_only, Table.keys_only]
      intro field hin hout
      have hp := (List.mem_filter.1 hin).2
      simp [hp] at hout
    · rw [hinside, houtside]
      exact (List.filter_append_perm (fun e => p e.1) r.merged).symm
  · intro reordered hnodup horder r r'
    have hcollided := collisions_perm (t := t) hnodup horder
    refine ⟨?_, lookup_merged_reordered hnodup horder, ?_⟩
    · rw [(explained_merge _ _).duplicates_eq, (explained_merge _ _).duplicates_eq,
        hcollided.length_eq]
    · rw [(explained_merge _ _).affected_eq, (explained_merge _ _).affected_eq]
      refine (List.perm_ext_iff_of_nodup (nodup_eraseDups _) (nodup_eraseDups _)).2 fun field => ?_
      rw [List.mem_eraseDups, List.mem_eraseDups, (hcollided.map _).mem_iff]

/-- A name and a city that are both spelled twice, and the same with the fields the other way
round. -/
theorem merge_independent_places :
    let t : Threshold := ⟨Threshold.standard, by decide⟩
    let snapshots : List (Table String) :=
      [[("name", "Ann Lee"), ("city", "Rome")], [("city", "Rome, Italy"), ("name", "Ann Lee, PhD")],
        [("name", "Bo Li"), ("city", "Rome")]]
    let reordered : List (Table String) :=
      [[("city", "Rome"), ("name", "Ann Lee")], [("name", "Ann Lee, PhD"), ("city", "Rome, Italy")],
        [("name", "Bo Li"), ("city", "Rome")]]
    let r := merge t snapshots
    let r' := merge t reordered
    let names := merge t (snapshots.map (Table.only fun field => field = "name"))
    (r.duplicates = 3 ∧ r.affected = ["city", "name"]) ∧
      r'.duplicates = 3 ∧ r'.merged.lookup "name" = some "Ann Lee, PhD" ∧
      r.affected.Perm r'.affected ∧ r.affected ≠ r'.affected ∧
      names.affected = ["name"] := by
  intro t snapshots reordered r r' names
  obtain ⟨hpartition, hreorder⟩ := merge_independent t snapshots
  obtain ⟨-, -, hnames, -⟩ := hpartition fun field => field = "name"
  have hnodup : ∀ fields ∈ snapshots, fields.keys.Nodup := by decide
  have horder : List.Forall₂ List.Perm snapshots reordered :=
    .cons (.swap _ _ []) (.cons (.swap _ _ []) (.cons (.refl _) .nil))
  obtain ⟨hduplicates, hlookup, hperm⟩ := hreorder reordered hnodup horder
  have hcount : r.duplicates = 3 := by decide +kernel
  have haffected : r.affected = ["city", "name"] := by decide +kernel
  have hvalue : r.merged.lookup "name" = some "Ann Lee, PhD" := by decide +kernel
  refine ⟨⟨hcount, haffected⟩, hduplicates.symm.trans hcount, (hlookup "name").symm.trans hvalue,
    hperm, by decide +kernel, hnames.symm.trans ?_⟩
  rw [show (merge t snapshots).affected = ["city", "name"] from haffected]
  decide

end Profile

end Stencil
