import Stencil.Proofs.Placeholder.Matchers

/-!
# Runs of letters and digits

A name between double underscores consists of runs of letters and digits with single joints between
them (`Runs`).  In the names that are found, the joints are underscores and spaces
(`spells_underscored_iff`); in each half of a name whose lines are joined, they are underscores only
(`spells_brokenUnderscores_iff`).  Runs can be cut at every joint (`Runs.split`), and no pair of
underscores begins among them (`Runs.noneBegins`).
-/

namespace Stencil.Placeholder

open Text Pattern

/-! ## Runs -/

theorem has_asciiAlnum_iff {c : Char} : CharSet.asciiAlnum.has c = true ↔
    (65 ≤ c.toNat ∧ c.toNat ≤ 90) ∨ (97 ≤ c.toNat ∧ c.toNat ≤ 122) ∨
      (48 ≤ c.toNat ∧ c.toNat ≤ 57) := by
  simp [CharSet.asciiAlnum, CharSet.has, CharItem.has]

theorem isBlank_of_asciiAlnum {c : Char} (h : CharSet.asciiAlnum.has c = true) :
    isBlank c = false := by
  rw [has_asciiAlnum_iff] at h
  simp only [isBlank, Bool.or_eq_false_iff, Bool.and_eq_false_iff, decide_eq_false_iff_not,
    beq_eq_false_iff_ne]
  omega

/-- Letters and digits, at least one. -/
def IsRun (w : List Char) : Prop := w ≠ [] ∧ ∀ c ∈ w, CharSet.asciiAlnum.has c = true

theorem isRun_singleton {c : Char} (h : CharSet.asciiAlnum.has c = true) : IsRun [c] :=
  ⟨List.cons_ne_nil c [], by simpa using h⟩

/-- Runs of letters and digits, and single joints between them. -/
inductive Runs (joint : Char → Prop) : List Char → Prop
  | last {w : List Char} (hw : IsRun w) : Runs joint w
  | next {w s : List Char} {c : Char} (hw : IsRun w) (hc : joint c) (hs : Runs joint s) :
      Runs joint (w ++ c :: s)

namespace Runs

variable {joint joint' : Char → Prop} {s : List Char}

theorem mem (h : Runs joint s) : ∀ c ∈ s, CharSet.asciiAlnum.has c = true ∨ joint c := by
  induction h with
  | last hw => exact fun c hc => .inl (hw.2 c hc)
  | next hw hjoint hs ih =>
    rw [List.forall_mem_append, List.forall_mem_cons]
    exact ⟨fun c hc => .inl (hw.2 c hc), .inr hjoint, ih⟩

theorem mono (h : Runs joint s) (hjoint : ∀ c ∈ s, joint c → joint' c) : Runs joint' s := by
  induction h with
  | last hw => exact .last hw
  | next hw hc hs ih =>
    rw [List.forall_mem_append, List.forall_mem_cons] at hjoint
    exact .next hw (hjoint.2.1 hc) (ih hjoint.2.2)

/-- The first character is a letter or a digit. -/
theorem exists_cons (h : Runs joint s) :
    ∃ c rest, s = c :: rest ∧ CharSet.asciiAlnum.has c = true := by
  have hrun {w : List Char} (hw : IsRun w) :
      ∃ c rest, w = c :: rest ∧ CharSet.asciiAlnum.has c = true := by
    obtain ⟨c, rest, rfl⟩ := List.exists_cons_of_ne_nil hw.1
    exact ⟨c, rest, rfl, hw.2 c List.mem_cons_self⟩
  cases h with
  | last hw => exact hrun hw
  | next hw hc hs =>
    obtain ⟨c, rest, rfl, halnum⟩ := hrun hw
    exact ⟨c, _, rfl, halnum⟩

theorem head_notBlank (h : Runs joint s) : ∀ c ∈ s.head?, isBlank c = false := by
  obtain ⟨c, rest, rfl, hc⟩ := h.exists_cons
  simpa using isBlank_of_asciiAlnum hc

theorem last_notBlank (h : Runs joint s) : ∀ c ∈ s.getLast?, isBlank c = false := by
  induction h with
  | last hw => exact fun c hc => isBlank_of_asciiAlnum (hw.2 c (List.mem_of_getLast? hc))
  | next hw hc hs ih =>
    obtain ⟨d, rest, rfl, -⟩ := hs.exists_cons
    rwa [List.getLast?_append, List.getLast?_cons_cons, Option.or_of_isSome (by simp)]

/-- At a joint the runs can be cut. -/
theorem split {u v : List Char} {c : Char} (h : Runs joint (u ++ c :: v))
    (hc : CharSet.asciiAlnum.has c = false) : Runs joint u ∧ Runs joint v := by
  have hrun {x y : List Char} : ¬ IsRun (x ++ c :: y) := by
    intro hw
    have hcontra := hw.2 c (by simp)
    rw [hc] at hcontra
    cases hcontra
  generalize hs : u ++ c :: v = s at h
  induction h generalizing u with
  | last hw => exact absurd (hs ▸ hw) hrun
  | next hw hjoint hmore ih =>
    rcases cut_cases hs with ⟨rfl, -, rfl⟩ | ⟨k, rfl, -⟩ | ⟨k, rfl, hk⟩
    · exact ⟨.last hw, hmore⟩
    · exact absurd hw hrun
    · exact ⟨.next hw hjoint (ih hk.symm).1, (ih hk.symm).2⟩

/-- Two underscores begin nowhere among the runs, whatever follows. -/
theorem noneBegins (h : Runs joint s) (y : List Char) : NoneBegins ['_', '_'] s y := by
  have hrun {w : List Char} (hw : IsRun w) (y : List Char) : NoneBegins ['_', '_'] w y :=
    noneBegins_of_not_mem (fun hmem => absurd (hw.2 _ hmem) (by decide)) y
  induction h with
  | last hw => exact hrun hw y
  | next hw hc hs ih =>
    obtain ⟨d, rest, rfl, hd⟩ := hs.exists_cons
    refine noneBegins_append.2 ⟨hrun hw _, fun hp => ?_, ih⟩
    obtain rfl : '_' = d := (List.cons_prefix_cons.1 (List.cons_prefix_cons.1 hp).2).1
    exact absurd hd (by decide)

theorem notBlank (h : Runs joint s) (hjoint : ∀ c ∈ s, joint c → isBlank c = false) :
    ∀ c ∈ s, isBlank c = false :=
  fun c hc => (h.mem c hc).elim isBlank_of_asciiAlnum (hjoint c hc)

end Runs

/-- A run and others behind joints, as patterns write it. -/
theorem spells_runs_iff {p : Pattern} {joint : Char → Prop}
    (hp : ∀ w, Spells p w ↔ ∃ c r, joint c ∧ IsRun r ∧ w = c :: r) {s : List Char} :
    Spells (.seq (many1 .asciiAlnum) (.loop p 0 none true)) s ↔ Runs joint s := by
  have hrun {w : List Char} : Spells (many1 .asciiAlnum) w ↔ IsRun w := spells_span_one_iff
  simp only [spells_seq_iff, spells_loop_iff, hrun, hp]
  constructor
  · rintro ⟨w, _, rfl, hw, words, -, hwords, rfl⟩
    induction words generalizing w with
    | nil =>
      rw [List.flatten_nil, List.append_nil]
      exact .last hw
    | cons word words ih =>
      rw [List.forall_mem_cons] at hwords
      obtain ⟨⟨c, r, hc, hr, rfl⟩, hwords⟩ := hwords
      exact .next hw hc (ih r hr hwords)
  · intro h
    induction h with
    | last hw => exact ⟨_, [], (List.append_nil _).symm, hw, [], Nat.zero_le _, by simp, rfl⟩
    | next hw hc hs ih =>
      obtain ⟨r, _, rfl, hr, words, -, hwords, rfl⟩ := ih
      exact ⟨_, _, rfl, hw, _ :: words, Nat.zero_le _,
        List.forall_mem_cons.2 ⟨⟨_, r, hc, hr, rfl⟩, hwords⟩, rfl⟩

theorem spells_behind_single_iff {a : Char} {w : List Char} :
    Spells (.seq (.one (.single a)) (many1 .asciiAlnum)) w ↔
      ∃ c r, c = a ∧ IsRun r ∧ w = c :: r := by
  simp only [spells_seq_iff, spells_one_iff, many1, spells_span_one_iff, CharSet.has_single,
    beq_iff_eq]
  constructor
  · rintro ⟨_, r, rfl, ⟨c, rfl, rfl⟩, hr⟩
    exact ⟨c, r, rfl, hr, rfl⟩
  · rintro ⟨c, r, rfl, hr, rfl⟩
    exact ⟨[c], r, rfl, ⟨c, rfl, rfl⟩, hr⟩

theorem spells_underscoreName_iff {s : List Char} :
    Spells underscoreName s ↔ Runs (· = '_') s :=
  spells_runs_iff fun _ => spells_behind_single_iff

/-- The joints in the names that are found. -/
def IsJoint (c : Char) : Prop := c = '_' ∨ c = ' '

theorem spells_underscored_iff {s : List Char} : Spells underscored.inner s ↔ Runs IsJoint s := by
  refine spells_runs_iff fun w => ?_
  simp only [spells_either_iff, spells_behind_single_iff, IsJoint]
  constructor
  · rintro (⟨c, r, hc, h⟩ | ⟨c, r, hc, h⟩)
    · exact ⟨c, r, .inl hc, h⟩
    · exact ⟨c, r, .inr hc, h⟩
  · rintro ⟨c, r, hc | hc, h⟩
    · exact .inl ⟨c, r, hc, h⟩
    · exact .inr ⟨c, r, hc, h⟩

theorem spells_brokenUnderscores_iff {s : List Char} :
    Spells brokenUnderscores.inner s ↔ ∃ u g r v, s = u ++ (g ++ '\n' :: (r ++ v)) ∧
      Runs (· = '_') u ∧ (∀ c ∈ g, c = ' ' ∨ c = '\t') ∧ allBlank r = true ∧
        Runs (· = '_') v := by
  have hgap {c : Char} : (CharSet.oneOf [' ', '\t']).has c = true ↔ c = ' ' ∨ c = '\t' := by
    rw [← Char.toNat_inj, ← Char.toNat_inj]
    simp [CharSet.oneOf, CharSet.has, CharItem.has]
    omega
  simp only [brokenUnderscores, exactly, all, List.map_cons, List.map_nil, spells_seq_iff,
    spells_one_iff, spells_many_iff, spells_blanks_iff, spells_underscoreName_iff,
    CharSet.has_single, beq_iff_eq, hgap]
  constructor
  · rintro ⟨u, _, rfl, hu, g, _, rfl, hg, _, _, rfl, ⟨c, rfl, rfl⟩, r, v, rfl, hr, hv⟩
    exact ⟨u, g, r, v, rfl, hu, hg, hr, hv⟩
  · rintro ⟨u, g, r, v, rfl, hu, hg, hr, hv⟩
    exact ⟨u, _, rfl, hu, g, _, rfl, hg, ['\n'], _, rfl, ⟨_, rfl, rfl⟩, r, v, rfl, hr, hv⟩

end Stencil.Placeholder
