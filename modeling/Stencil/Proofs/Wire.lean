import Stencil.Wire.Record

/-!
# Checks with a result

A sequence of checks has a result exactly when each of them has one, a field has one exactly when
its value (`Wire.value?`) passes the check, and setting a field changes what is read under the names
of that field only.
-/

namespace Stencil

/-! ## Checks in sequence -/

/-- A sequence of checks has a result exactly when both checks have one. -/
theorem Checked.seq_eq_valid_iff {α β : Type} {f : Checked (α → β)} {c : Checked α} {b : β} :
    (f <*> c) = .valid b ↔ ∃ g a, f = .valid g ∧ c = .valid a ∧ g a = b := by
  constructor
  · intro h
    cases f with
    | invalid i => cases c <;> cases h
    | valid g =>
      cases c with
      | invalid j => cases h
      | valid a =>
        cases h
        exact ⟨g, a, rfl, rfl, rfl⟩
  · rintro ⟨g, a, rfl, rfl, rfl⟩
    rfl

theorem Checked.map_eq_valid_iff {α β : Type} {f : α → β} {c : Checked α} {b : β} :
    f <$> c = .valid b ↔ ∃ a, c = .valid a ∧ f a = b := by
  constructor
  · intro h
    cases c with
    | invalid i => cases h
    | valid a =>
      cases h
      exact ⟨a, rfl, rfl⟩
  · rintro ⟨a, rfl, rfl⟩
    rfl

theorem Checked.under_eq_valid_iff {α : Type} {step : String} {c : Checked α} {a : α} :
    c.under step = .valid a ↔ c = .valid a := by
  constructor
  · intro h
    cases c with
    | valid b => exact h
    | invalid issues => cases h
  · rintro rfl
    rfl

/-! ## Fields that are read -/

namespace Wire

/-- The value of a field, under either of its names. -/
def value? {α : Type} (fields : Table α) (name : Name) : Option α := (find? fields name).map (·.2)

/-- What a field is read from stands in the object. -/
theorem mem_of_value? {α : Type} {fields : Table α} {name : Name} {a : α}
    (h : value? fields name = some a) : ∃ key, (key, a) ∈ fields := by
  have hlookup : ∃ key, fields.lookup key = some a := by
    unfold value? find? at h
    cases hwire : fields.lookup name.wire with
    | some b =>
      rw [hwire] at h
      exact ⟨name.wire, by rw [hwire]; exact h⟩
    | none =>
      rw [hwire] at h
      obtain ⟨found, hfound, rfl⟩ := Option.map_eq_some_iff.1 h
      obtain ⟨b, hplain, rfl⟩ := Option.map_eq_some_iff.1 hfound
      exact ⟨name.plain, hplain⟩
  obtain ⟨key, hkey⟩ := hlookup
  obtain ⟨front, back, rfl, -⟩ := List.lookup_eq_some_iff.1 hkey
  exact ⟨key, by simp⟩

theorem required_eq_valid_iff {α : Type} {check : Value → Checked α} {name : Name}
    {fields : Fields} {a : α} :
    required check name fields = .valid a ↔
      ∃ v, value? fields name = some v ∧ check v = .valid a := by
  unfold required value?
  cases find? fields name with
  | none => simp [Checked.fail, Checked.under]
  | some found => simp [Checked.under_eq_valid_iff]

theorem optional_eq_valid_iff {α : Type} {check : Value → Checked α} {absent : α} {name : Name}
    {fields : Fields} {a : α} :
    optional check absent name fields = .valid a ↔
      (value? fields name = none ∧ a = absent) ∨
        ∃ v, value? fields name = some v ∧ check v = .valid a := by
  unfold optional value?
  cases find? fields name with
  | none => simp [eq_comm]
  | some found => simp [Checked.under_eq_valid_iff]

/-! ## Fields that are set -/

variable {α : Type} (check : Value → Checked α) {name : Name} {key : String}
  (hwire : name.wire ≠ key) (hplain : name.plain ≠ key) (v : Value) (fields : Fields)

include hwire hplain

theorem optional_set_of_ne (absent : α) :
    optional check absent name (Table.set key v fields) = optional check absent name fields := by
  simp [optional, find?, Table.lookup_set_of_ne hwire, Table.lookup_set_of_ne hplain]

theorem required_set_of_ne :
    required check name (Table.set key v fields) = required check name fields := by
  simp [required, find?, Table.lookup_set_of_ne hwire, Table.lookup_set_of_ne hplain]

end Wire

end Stencil
