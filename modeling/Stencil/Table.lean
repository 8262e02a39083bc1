/-!
Tables: values under names, in the order in which the names were first set.

A table is a list of pairs.  `Table.set` changes the value of a name in its place or adds the name
at the end; `Table.override` sets the entries of a second table one after the other.  Main
statements: `lookup_set` says what is found after setting a name, and `keys_set` that no name is
lost or moved.  `lookup_override` says what is found after overriding by a table with distinct
names, and `override_of_nodup` that new names are added at the end.
-/

namespace Stencil

/-- Values under names. -/
abbrev Table (α : Type) := List (String × α)

namespace Table

variable {α : Type}

/-- Sets a name. A name that is there already keeps its place. -/
def set (name : String) (a : α) : Table α → Table α
  | [] => [(name, a)]
  | (k, old) :: rest => if k = name then (k, a) :: rest else (k, old) :: set name a rest

/-- Sets every entry of `new` in turn. -/
def override (old new : Table α) : Table α := new.foldl (fun t e => t.set e.1 e.2) old

def keys (t : Table α) : List String := t.map (·.1)

/-! ## Lemmas -/

@[simp] theorem lookup_set_self (name : String) (a : α) (t : Table α) :
    (t.set name a).lookup name = some a := by
  induction t with
  | nil => simp [set]
  | cons e rest ih =>
    obtain ⟨k, old⟩ := e
    by_cases h : k = name
    · simp [set, h]
    · have h' : (name == k) = false := by simpa using fun e : name = k => h e.symm
      simp [set, h, List.lookup_cons, h', ih]

theorem lookup_set_of_ne {name other : String} (h : other ≠ name) (a : α) (t : Table α) :
    (t.set name a).lookup other = t.lookup other := by
  induction t with
  | nil =>
    have h' : (other == name) = false := by simpa using h
    simp [set, List.lookup_cons, h']
  | cons e rest ih =>
    obtain ⟨k, old⟩ := e
    by_cases hk : k = name
    · subst hk
      have h' : (other == k) = false := by simpa using h
      simp [set, List.lookup_cons, h']
    · simp only [set, hk, if_false, List.lookup_cons, ih]

/-- What is found after setting a name. -/
theorem lookup_set (name other : String) (a : α) (t : Table α) :
    (t.set name a).lookup other = if other = name then some a else t.lookup other := by
  by_cases h : other = name
  · subst h; simp
  · rw [lookup_set_of_ne h, if_neg h]

/-- Setting a name adds it at the end if it is new and moves nothing. -/
theorem keys_set (name : String) (a : α) (t : Table α) :
    (t.set name a).keys = if name ∈ t.keys then t.keys else t.keys ++ [name] := by
  induction t with
  | nil => simp [set, keys]
  | cons e rest ih =>
    obtain ⟨k, old⟩ := e
    by_cases hk : k = name
    · subst hk; simp [set, keys]
    · have hk' : ¬ name = k := fun e => hk e.symm
      simp only [keys] at ih
      by_cases hm : name ∈ List.map (·.1) rest <;> simp [set, keys, hk, hk', hm, ih]

theorem set_of_notMem {t : Table α} {name : String} (h : name ∉ t.keys) (a : α) :
    t.set name a = t ++ [(name, a)] := by
  induction t with
  | nil => rfl
  | cons e rest ih =>
    obtain ⟨k, old⟩ := e
    rw [keys, List.map_cons, List.mem_cons, not_or] at h
    rw [set, if_neg fun hk : k = name => h.1 hk.symm, ih h.2, List.cons_append]

theorem nodup_keys_set {t : Table α} (h : t.keys.Nodup) (name : String) (a : α) :
    (t.set name a).keys.Nodup := by
  rw [keys_set]
  split
  · exact h
  · rename_i hnew
    rw [List.nodup_append]
    refine ⟨h, List.nodup_cons.2 ⟨List.not_mem_nil, List.nodup_nil⟩, fun k hk k' hk' heq => ?_⟩
    rw [← List.mem_singleton.1 hk', ← heq] at hnew
    exact hnew hk

theorem lookup_eq_none_of_notMem {t : Table α} {name : String} (h : name ∉ t.keys) :
    t.lookup name = none := by
  refine List.lookup_eq_none_iff.2 fun e he => ?_
  have hne : name ≠ e.1 := fun heq => h (heq ▸ List.mem_map_of_mem he)
  simpa using hne

theorem lookup_of_mem {t : Table α} (hnodup : t.keys.Nodup) {name : String} {a : α}
    (h : (name, a) ∈ t) : t.lookup name = some a := by
  obtain ⟨front, back, rfl⟩ := List.append_of_mem h
  refine List.lookup_eq_some_iff.2 ⟨front, back, rfl, fun e he => ?_⟩
  rw [keys, List.map_append, List.nodup_append] at hnodup
  have hne := hnodup.2.2 e.1 (List.mem_map_of_mem he) name (by simp)
  simpa using hne.symm

theorem exists_lookup_of_mem {t : Table α} {name : String} (h : name ∈ t.keys) :
    ∃ a, t.lookup name = some a := by
  cases hlookup : t.lookup name with
  | some a => exact ⟨a, rfl⟩
  | none =>
    obtain ⟨e, he, rfl⟩ := List.mem_map.1 h
    simpa using List.lookup_eq_none_iff.1 hlookup e he

/-- What is found after overriding: what the new table has, and else what the old one has. -/
theorem lookup_override {new : Table α} (h : new.keys.Nodup) (old : Table α) (name : String) :
    (old.override new).lookup name = (new.lookup name).or (old.lookup name) := by
  induction new generalizing old with
  | nil => rfl
  | cons e rest ih =>
    obtain ⟨k, a⟩ := e
    rw [keys, List.map_cons, List.nodup_cons] at h
    have hcons : old.override ((k, a) :: rest) = (old.set k a).override rest := rfl
    rw [hcons, ih h.2, lookup_set, List.lookup_cons]
    by_cases hk : name = k
    · subst hk
      rw [lookup_eq_none_of_notMem h.1, if_pos rfl, BEq.rfl]
      rfl
    · have hne : (name == k) = false := by simpa using hk
      rw [if_neg hk, hne]

/-- New names are added at the end, in order. -/
theorem override_of_nodup {old new : Table α} (h : (old.keys ++ new.keys).Nodup) :
    old.override new = old ++ new := by
  induction new generalizing old with
  | nil => exact (List.append_nil old).symm
  | cons e rest ih =>
    obtain ⟨k, a⟩ := e
    rw [keys, keys, List.map_cons] at h
    have hnew : k ∉ old.keys := fun hmem =>
      (List.nodup_append.1 h).2.2 _ hmem _ List.mem_cons_self rfl
    have hkeys : keys (old ++ [(k, a)]) = old.keys ++ [k] := List.map_append
    have hcons : old.override ((k, a) :: rest) = (old.set k a).override rest := rfl
    rw [hcons, set_of_notMem hnew, ih (by rw [hkeys]; simpa [keys] using h), List.append_assoc]
    rfl

end Table

end Stencil
