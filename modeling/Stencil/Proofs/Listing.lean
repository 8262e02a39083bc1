import Mathlib.Data.List.Induction
import Mathlib.Data.List.Nodup

/-!
# Lists of what comes first

A walk over a list that adds each member which passes a test and is not listed yet (`addNew`) lists
the members that pass in the order of their first appearances (`foldl_addNew`), each of them once
(`nodup_eraseDups`); it makes no difference whether the others are left out before or after
(`eraseDups_filter`).  In a list without two members of one key each member is the first of its key
(`find?_of_nodup`), and the only one (`filter_of_nodup`).  The members that are kept
under their keys keep the order (`map_filterMap_sublist`).  Of the members of the greatest size the
first is found (`exists_split_of_maxOn?`).
-/

namespace Stencil

variable {α : Type}

section

variable [BEq α] [LawfulBEq α]

/-- Adds a member that passes and is not listed yet. -/
def addNew (p : α → Bool) (listed : List α) (a : α) : List α :=
  if p a && !listed.contains a then listed ++ [a] else listed

theorem addNew_of_mem {p : α → Bool} {listed : List α} {a : α} (h : a ∈ listed) :
    addNew p listed a = listed := by
  simp [addNew, h]

theorem addNew_of_notMem {p : α → Bool} {listed : List α} {a : α} (hp : p a = true)
    (h : a ∉ listed) : addNew p listed a = listed ++ [a] := by
  simp [addNew, hp, h]

theorem foldl_addNew_append (p : α → Bool) (l listed : List α) :
    l.foldl (addNew p) listed =
      listed ++ (l.filter fun a => p a && !listed.contains a).eraseDups := by
  induction l generalizing listed with
  | nil => simp
  | cons a l ih =>
    rw [List.foldl_cons, ih]
    by_cases hnew : (p a && !listed.contains a) = true
    · -- what equals `a` is listed from here on
      have hrest : (l.filter fun b => p b && !(listed ++ [a]).contains b) =
          (l.filter fun b => p b && !listed.contains b).filter fun b => !b == a := by
        rw [List.filter_filter]
        refine List.filter_congr fun b _ => ?_
        simp only [List.contains_append, List.contains_cons, List.contains_nil, Bool.or_false,
          Bool.not_or]
        rw [← Bool.and_assoc, Bool.and_comm]
      have hstep : addNew p listed a = listed ++ [a] := if_pos hnew
      rw [hstep, hrest, List.filter_cons, if_pos hnew, List.eraseDups_cons, List.append_assoc]
      rfl
    · have hstep : addNew p listed a = listed := if_neg hnew
      rw [hstep, List.filter_cons, if_neg hnew]

/-- The walk lists the members that pass, in the order of their first appearances. -/
theorem foldl_addNew (p : α → Bool) (l : List α) :
    l.foldl (addNew p) [] = (l.filter p).eraseDups := by
  rw [foldl_addNew_append]
  simp

theorem nodup_addNew {listed : List α} (h : listed.Nodup) (p : α → Bool) (a : α) :
    (addNew p listed a).Nodup := by
  unfold addNew
  split
  · rename_i hnew
    refine List.nodup_append.2 ⟨h, List.nodup_singleton a, fun b hb c hc hbc => ?_⟩
    rw [List.mem_singleton.1 hc] at hbc
    simp [hbc ▸ hb] at hnew
  · exact h

/-- No member is listed twice. -/
theorem nodup_eraseDups (l : List α) : l.eraseDups.Nodup := by
  have hwalk : ∀ listed : List α, listed.Nodup →
      (l.foldl (addNew fun _ => true) listed).Nodup := by
    induction l with
    | nil => exact fun listed h => h
    | cons a l ih => exact fun listed h => ih _ (nodup_addNew h _ a)
  have h := hwalk [] List.nodup_nil
  rw [foldl_addNew, List.filter_true] at h
  exact h

theorem length_eraseDups_le (l : List α) : l.eraseDups.length ≤ l.length :=
  (nodup_eraseDups l).length_le_of_subset fun _ => List.mem_eraseDups.1

/-- One more member is listed if it is new. -/
theorem eraseDups_concat (l : List α) (a : α) :
    (l ++ [a]).eraseDups = addNew (fun _ => true) l.eraseDups a := by
  have hlisted (l : List α) : l.foldl (addNew fun _ => true) [] = l.eraseDups := by
    rw [foldl_addNew, List.filter_true]
  rw [← hlisted, List.foldl_append, hlisted]
  rfl

/-- What is left out is left out of the list of first appearances. -/
theorem eraseDups_filter (p : α → Bool) (l : List α) :
    (l.filter p).eraseDups = l.eraseDups.filter p := by
  induction l using List.reverseRecOn with
  | nil => rfl
  | append_singleton l a ih =>
    rw [List.filter_append, eraseDups_concat]
    by_cases hp : p a = true
    · rw [List.filter_singleton, hp, cond_true, eraseDups_concat, ih]
      by_cases hlisted : a ∈ l.eraseDups
      · rw [addNew_of_mem hlisted, addNew_of_mem (List.mem_filter.2 ⟨hlisted, hp⟩)]
      · have hnew : a ∉ l.eraseDups.filter p := fun hmem => hlisted (List.mem_filter.1 hmem).1
        rw [addNew_of_notMem rfl hlisted, addNew_of_notMem rfl hnew, List.filter_append,
          List.filter_singleton, hp, cond_true]
    · have hout : l.eraseDups.filter p = (addNew (fun _ => true) l.eraseDups a).filter p := by
        unfold addNew
        split
        · rw [List.filter_append, List.filter_cons_of_neg hp, List.filter_nil, List.append_nil]
        · rfl
      rw [List.filter_cons_of_neg hp, List.filter_nil, List.append_nil, ih, hout]

end

/-- A member is the first of its key if no two members share a key. -/
theorem find?_of_nodup {β : Type} [DecidableEq β] {key : α → β} {l : List α}
    (h : (l.map key).Nodup) {a : α} (ha : a ∈ l) : l.find? (fun b => key b = key a) = some a := by
  induction l with
  | nil => cases ha
  | cons b l ih =>
    rw [List.map_cons, List.nodup_cons] at h
    rcases List.mem_cons.1 ha with rfl | ha
    · simp
    · have hne : key b ≠ key a := fun heq => h.1 (heq ▸ List.mem_map_of_mem ha)
      rw [List.find?_cons_of_neg (by simpa using hne), ih h.2 ha]

/-- A member is the only one of its key if no two members share a key. -/
theorem filter_of_nodup {β : Type} [DecidableEq β] {key : α → β} {l : List α}
    (h : (l.map key).Nodup) {a : α} (ha : a ∈ l) : l.filter (fun b => key b = key a) = [a] := by
  induction l with
  | nil => cases ha
  | cons b l ih =>
    rw [List.map_cons, List.nodup_cons] at h
    rcases List.mem_cons.1 ha with rfl | ha
    · have hnone : l.filter (fun b => key b = key a) = [] := by
        refine List.filter_eq_nil_iff.2 fun c hc => ?_
        have hne : key c ≠ key a := fun heq => h.1 (heq ▸ List.mem_map_of_mem hc)
        simpa using hne
      rw [List.filter_cons_of_pos (by simp), hnone]
    · have hne : key b ≠ key a := fun heq => h.1 (heq ▸ List.mem_map_of_mem ha)
      rw [List.filter_cons_of_neg (by simpa using hne), ih h.2 ha]

/-- What a list keeps, each member under its key, keeps the order of the keys. -/
theorem map_filterMap_sublist {β γ : Type} {f : α → Option β} {key : α → γ} {keyOf : β → γ}
    (h : ∀ a b, f a = some b → keyOf b = key a) (l : List α) :
    ((l.filterMap f).map keyOf).Sublist (l.map key) := by
  induction l with
  | nil => exact .slnil
  | cons a l ih =>
    rw [List.map_cons]
    cases hf : f a with
    | none =>
      rw [List.filterMap_cons_none hf]
      exact ih.cons _
    | some b =>
      rw [List.filterMap_cons_some hf, List.map_cons, h a b hf]
      exact ih.cons_cons _

/-- The greatest member that is found comes after smaller ones only. -/
theorem exists_split_of_maxOn? {size : α → Nat} {l : List α} {a : α}
    (h : l.maxOn? size = some a) :
    ∃ smaller rest, l = smaller ++ a :: rest ∧ (∀ b ∈ smaller, size b < size a) ∧
      ∀ b ∈ rest, size b ≤ size a := by
  induction l generalizing a with
  | nil => cases h
  | cons c l ih =>
    rw [List.maxOn?_cons, Option.some.injEq] at h
    cases hrest : l.maxOn? size with
    | none =>
      rw [hrest, Option.elim_none] at h
      have hnil : l = [] := by
        by_contra hne
        have hsome : (l.maxOn? size).isSome = true := List.isSome_maxOn?_iff.2 hne
        rw [hrest] at hsome
        cases hsome
      rw [h, hnil]
      exact ⟨[], [], rfl, List.forall_mem_nil _, List.forall_mem_nil _⟩
    | some b =>
      obtain ⟨smaller, rest, rfl, hsmaller, hless⟩ := ih hrest
      rw [hrest, Option.elim_some] at h
      by_cases hle : size b ≤ size c
      · -- the head is as great as the greatest member behind it
        rw [maxOn_eq_left hle] at h
        subst h
        refine ⟨[], _, rfl, List.forall_mem_nil _, fun d hd => ?_⟩
        rw [List.mem_append, List.mem_cons] at hd
        rcases hd with hd | rfl | hd
        · have := hsmaller d hd
          omega
        · exact hle
        · have := hless d hd
          omega
      · rw [maxOn_eq_right hle] at h
        subst h
        exact ⟨c :: smaller, rest, rfl, List.forall_mem_cons.2 ⟨by omega, hsmaller⟩, hless⟩

end Stencil
