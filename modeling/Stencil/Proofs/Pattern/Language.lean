import Stencil.Proofs.Pattern.Ends

/-!
# The texts that a pattern spells

A pattern that is plain (`isPlain`) looks at nothing but the text that it matches: it has no groups,
conditions or looks around.  What it matches is then a set of texts (`Spells`), whatever stands
before and behind, and its matches at a place end behind the texts of that set which stand there:

    p.isPlain = true → Reads p.ends (Spells p)                                  (reads_ends)

A group around a plain pattern remembers the text (`mem_ends_enclosed`, `mem_ends_padded`).  Between
the beginning of a text and the end of its last line a plain pattern matches the texts of the set,
behind which one line feed may follow (`matchesStart_whole_iff`).
-/

namespace Stencil.Pattern

/-- Does the pattern look at nothing but the text that it matches, however long that is? -/
def isPlain : Pattern → Bool
  | .empty => true
  | .one _ => true
  | .span _ _ most _ => most.isNone
  | .seq p q => p.isPlain && q.isPlain
  | .either p q => p.isPlain && q.isPlain
  | .loop p _ most _ => p.isPlain && most.isNone
  | _ => false

/-- The plain pattern stands for the text. -/
inductive Spells : Pattern → List Char → Prop
  | empty : Spells .empty []
  | one {set : CharSet} {c : Char} (h : set.has c = true) : Spells (.one set) [c]
  | span {set : CharSet} {least : Nat} {greedy : Bool} {s : List Char} (hleast : least ≤ s.length)
      (h : ∀ c ∈ s, set.has c = true) : Spells (.span set least none greedy) s
  | seq {p q : Pattern} {s s' : List Char} (h : Spells p s) (h' : Spells q s') :
      Spells (.seq p q) (s ++ s')
  | left {p q : Pattern} {s : List Char} (h : Spells p s) : Spells (.either p q) s
  | right {p q : Pattern} {s : List Char} (h : Spells q s) : Spells (.either p q) s
  | loop {p : Pattern} {least : Nat} {greedy : Bool} (words : List (List Char))
      (hleast : least ≤ words.length) (h : ∀ w ∈ words, Spells p w) :
      Spells (.loop p least none greedy) words.flatten

/-- From every state the ends are those behind the texts of `Q` that stand there. -/
def Reads (f : State → List State) (Q : List Char → Prop) : Prop :=
  ∀ before after captures t, t ∈ f ⟨⟨before, after⟩, captures⟩ ↔
    ∃ text rest, after = text ++ rest ∧ Q text ∧ t = ⟨⟨text.reverse ++ before, rest⟩, captures⟩

namespace Reads

variable {f : State → List State} {Q : List Char → Prop}

theorem congr {Q' : List Char → Prop} (h : Reads f Q) (hQ : ∀ text, Q text ↔ Q' text) :
    Reads f Q' := by
  intro before after captures t
  simp only [h before after captures t, hQ]

/-- Reading one text after the other. -/
theorem flatMap {g : State → List State} {Q' : List Char → Prop} (hf : Reads f Q)
    (hg : Reads g Q') :
    Reads (fun s => (f s).flatMap g) fun text => ∃ u v, text = u ++ v ∧ Q u ∧ Q' v := by
  intro before after captures t
  rw [List.mem_flatMap]
  constructor
  · rintro ⟨_, hu, ht⟩
    obtain ⟨u, rest, rfl, hQu, rfl⟩ := (hf _ _ _ _).1 hu
    obtain ⟨v, rest', rfl, hQv, rfl⟩ := (hg _ _ _ _).1 ht
    exact ⟨u ++ v, rest', by simp, ⟨u, v, rfl, hQu, hQv⟩, by simp⟩
  · rintro ⟨_, rest, rfl, ⟨u, v, rfl, hQu, hQv⟩, rfl⟩
    refine ⟨⟨⟨u.reverse ++ before, v ++ rest⟩, captures⟩, (hf _ _ _ _).2 ?_, (hg _ _ _ _).2 ?_⟩
    · exact ⟨u, v ++ rest, by simp, hQu, rfl⟩
    · exact ⟨v, rest, rfl, hQv, by simp⟩

/-- Reading a text of each of some number of words. -/
theorem times (h : Reads f Q) (n : Nat) :
    Reads (timesEnds f n) fun text =>
      ∃ words : List (List Char), words.length = n ∧ (∀ w ∈ words, Q w) ∧ text = words.flatten := by
  induction n with
  | zero =>
    intro before after captures t
    rw [timesEnds, List.mem_singleton]
    constructor
    · rintro rfl
      exact ⟨[], after, rfl, ⟨[], rfl, by simp, rfl⟩, rfl⟩
    · rintro ⟨_, rest, rfl, ⟨words, hlength, -, rfl⟩, rfl⟩
      rw [List.length_eq_zero_iff.1 hlength]
      rfl
  | succ n ih =>
    refine (h.flatMap ih).congr fun text => ?_
    constructor
    · rintro ⟨u, _, rfl, hu, words, rfl, hwords, rfl⟩
      exact ⟨u :: words, rfl, List.forall_mem_cons.2 ⟨hu, hwords⟩, rfl⟩
    · rintro ⟨words, hlength, hwords, rfl⟩
      cases words with
      | nil => cases hlength
      | cons u words =>
        rw [List.forall_mem_cons] at hwords
        exact ⟨u, words.flatten, rfl, hwords.1, words, Nat.succ.inj hlength, hwords.2, rfl⟩

/-- Every end of a repetition stands behind some words. -/
theorem of_mem_iterateEnds (h : Reads f Q) {greedy : Bool} {fuel : Nat} {before after : List Char}
    {captures : List (Nat × Capture)} {t : State}
    (ht : t ∈ iterateEnds f greedy fuel none ⟨⟨before, after⟩, captures⟩) :
    ∃ words : List (List Char), (∀ w ∈ words, Q w) ∧ ∃ rest, after = words.flatten ++ rest ∧
      t = ⟨⟨words.flatten.reverse ++ before, rest⟩, captures⟩ := by
  induction fuel generalizing before after with
  | zero =>
    rw [iterateEnds, List.mem_singleton] at ht
    exact ⟨[], by simp, after, rfl, ht⟩
  | succ fuel ih =>
    have hmem : t = ⟨⟨before, after⟩, captures⟩ ∨ ∃ u ∈ f ⟨⟨before, after⟩, captures⟩,
        t ∈ if u.cursor.after.length = after.length then [u]
          else iterateEnds f greedy fuel none u := by
      simp only [iterateEnds, reduceCtorEq, if_false, Option.map_none] at ht
      cases greedy with
      | true =>
        rw [if_pos rfl, List.mem_append, List.mem_flatMap, List.mem_singleton] at ht
        exact ht.symm
      | false =>
        rw [if_neg Bool.false_ne_true, List.mem_cons, List.mem_flatMap] at ht
        exact ht
    rcases hmem with rfl | ⟨u, hu, ht⟩
    · exact ⟨[], by simp, after, rfl, rfl⟩
    · obtain ⟨w, rest, rfl, hw, rfl⟩ := (h _ _ _ _).1 hu
      split at ht
      · rw [List.mem_singleton] at ht
        exact ⟨[w], by simpa using hw, rest, by simp, by simpa using ht⟩
      · obtain ⟨words, hwords, rest', rfl, rfl⟩ := ih ht
        exact ⟨w :: words, List.forall_mem_cons.2 ⟨hw, hwords⟩, rest', by simp, by simp⟩

/-- With enough fuel there is an end behind any words; those that are empty are passed over. -/
theorem mem_iterateEnds (h : Reads f Q) (greedy : Bool) {fuel : Nat} (before : List Char)
    {words : List (List Char)} (hwords : ∀ w ∈ words, Q w) {rest : List Char}
    (captures : List (Nat × Capture)) (hfuel : (words.flatten ++ rest).length < fuel) :
    (⟨⟨words.flatten.reverse ++ before, rest⟩, captures⟩ : State) ∈
      iterateEnds f greedy fuel none ⟨⟨before, words.flatten ++ rest⟩, captures⟩ := by
  induction words generalizing before fuel with
  | nil =>
    cases fuel with
    | zero => exact absurd hfuel (Nat.not_lt_zero _)
    | succ fuel => cases greedy <;> simp [iterateEnds]
  | cons w words ih =>
    rw [List.forall_mem_cons] at hwords
    by_cases hw : w = []
    · subst hw
      exact ih before hwords.2 hfuel
    · cases fuel with
      | zero => exact absurd hfuel (Nat.not_lt_zero _)
      | succ fuel =>
        have hpos : 0 < w.length := List.length_pos_iff.2 hw
        have hlength : ((w :: words).flatten ++ rest).length =
            w.length + (words.flatten ++ rest).length := by simp
        have hless : (words.flatten ++ rest).length < fuel := by omega
        have hlast := ih (w.reverse ++ before) hwords.2 hless
        have hfirst : (⟨⟨w.reverse ++ before, words.flatten ++ rest⟩, captures⟩ : State) ∈
            f ⟨⟨before, (w :: words).flatten ++ rest⟩, captures⟩ :=
          (h _ _ _ _).2 ⟨w, words.flatten ++ rest, by simp, hwords.1, rfl⟩
        have hshorter :
            ¬ (words.flatten ++ rest).length = ((w :: words).flatten ++ rest).length := by
          omega
        have hmore : (⟨⟨(w :: words).flatten.reverse ++ before, rest⟩, captures⟩ : State) ∈
            (f ⟨⟨before, (w :: words).flatten ++ rest⟩, captures⟩).flatMap fun u =>
              if u.cursor.after.length = ((w :: words).flatten ++ rest).length then [u]
              else iterateEnds f greedy fuel none u := by
          refine List.mem_flatMap.2 ⟨_, hfirst, ?_⟩
          rw [if_neg hshorter]
          simpa using hlast
        simp only [iterateEnds, reduceCtorEq, if_false, Option.map_none]
        cases greedy with
        | true => exact List.mem_append_left _ hmore
        | false => exact List.mem_cons_of_mem _ hmore

end Reads

/-! ## The texts of the constructors -/

theorem spells_empty_iff {s : List Char} : Spells .empty s ↔ s = [] := by
  constructor
  · rintro ⟨⟩
    rfl
  · rintro rfl
    exact .empty

theorem spells_one_iff {set : CharSet} {s : List Char} :
    Spells (.one set) s ↔ ∃ c, set.has c = true ∧ s = [c] := by
  constructor
  · rintro (_ | h)
    exact ⟨_, h, rfl⟩
  · rintro ⟨c, h, rfl⟩
    exact .one h

theorem spells_span_iff {set : CharSet} {least : Nat} {greedy : Bool} {s : List Char} :
    Spells (.span set least none greedy) s ↔ least ≤ s.length ∧ ∀ c ∈ s, set.has c = true := by
  constructor
  · rintro (_ | _ | ⟨hleast, h⟩)
    exact ⟨hleast, h⟩
  · rintro ⟨hleast, h⟩
    exact .span hleast h

theorem spells_many_iff {set : CharSet} {s : List Char} :
    Spells (many set) s ↔ ∀ c ∈ s, set.has c = true := by
  rw [many, spells_span_iff, and_iff_right (Nat.zero_le _)]

theorem spells_span_one_iff {set : CharSet} {greedy : Bool} {s : List Char} :
    Spells (.span set 1 none greedy) s ↔ s ≠ [] ∧ ∀ c ∈ s, set.has c = true := by
  rw [spells_span_iff, Nat.succ_le_iff, List.length_pos_iff]

theorem spells_seq_iff {p q : Pattern} {s : List Char} :
    Spells (.seq p q) s ↔ ∃ u v, s = u ++ v ∧ Spells p u ∧ Spells q v := by
  constructor
  · rintro (_ | _ | _ | ⟨h, h'⟩)
    exact ⟨_, _, rfl, h, h'⟩
  · rintro ⟨u, v, rfl, h, h'⟩
    exact .seq h h'

theorem spells_either_iff {p q : Pattern} {s : List Char} :
    Spells (.either p q) s ↔ Spells p s ∨ Spells q s := by
  constructor
  · rintro (_ | _ | _ | _ | h | h)
    · exact .inl h
    · exact .inr h
  · rintro (h | h)
    · exact .left h
    · exact .right h

theorem spells_loop_iff {p : Pattern} {least : Nat} {greedy : Bool} {s : List Char} :
    Spells (.loop p least none greedy) s ↔
      ∃ words : List (List Char), least ≤ words.length ∧ (∀ w ∈ words, Spells p w) ∧
        s = words.flatten := by
  constructor
  · rintro ⟨⟩
    exact ⟨_, ‹_›, ‹_›, rfl⟩
  · rintro ⟨words, hleast, h, rfl⟩
    exact .loop words hleast h

theorem spells_all_nil_iff {s : List Char} : Spells (all []) s ↔ s = [] := spells_empty_iff

theorem spells_all_cons_iff {p : Pattern} {rest : List Pattern} {s : List Char} :
    Spells (all (p :: rest)) s ↔ ∃ u v, s = u ++ v ∧ Spells p u ∧ Spells (all rest) v := by
  cases rest with
  | nil =>
    simp only [all, spells_empty_iff]
    constructor
    · intro h
      exact ⟨s, [], (List.append_nil s).symm, h, rfl⟩
    · rintro ⟨u, _, rfl, h, rfl⟩
      rwa [List.append_nil]
  | cons q rest => exact spells_seq_iff

theorem spells_exactly_iff {w s : List Char} : Spells (exactly w) s ↔ s = w := by
  unfold exactly
  induction w generalizing s with
  | nil => exact spells_empty_iff
  | cons c w ih =>
    rw [List.map_cons, spells_all_cons_iff]
    simp only [ih, spells_one_iff, CharSet.has_single, beq_iff_eq]
    constructor
    · rintro ⟨_, _, rfl, ⟨_, rfl, rfl⟩, rfl⟩
      rfl
    · rintro rfl
      exact ⟨[c], w, rfl, ⟨c, rfl, rfl⟩, rfl⟩

/-- The places that are left out in front are those behind the shorter texts. -/
theorem mem_drop_reach_iff {set : CharSet} {least : Nat} {before after : List Char} {d : Cursor} :
    d ∈ (Cursor.reach set none before after).drop least ↔
      ∃ text, after = text ++ d.after ∧ (least ≤ text.length ∧ ∀ c ∈ text, set.has c = true) ∧
        d.before = text.reverse ++ before := by
  induction after generalizing before least with
  | nil =>
    cases least with
    | zero =>
      rw [Cursor.reach, List.drop_zero, List.mem_singleton]
      constructor
      · rintro rfl
        exact ⟨[], rfl, ⟨Nat.le_refl 0, by simp⟩, rfl⟩
      · rintro ⟨text, hafter, -, hbefore⟩
        obtain ⟨rfl, hd⟩ := List.append_eq_nil_iff.1 hafter.symm
        rw [show d = ⟨d.before, d.after⟩ from rfl, hbefore, hd]
        rfl
    | succ least =>
      rw [Cursor.reach, List.drop_succ_cons, List.drop_nil]
      constructor
      · exact fun h => absurd h List.not_mem_nil
      · rintro ⟨text, hafter, ⟨hleast, -⟩, -⟩
        rw [(List.append_eq_nil_iff.1 hafter.symm).1] at hleast
        exact absurd hleast (Nat.not_succ_le_zero _)
  | cons c rest ih =>
    have hmore : ∀ n, d ∈ (if set.has c = true then
        Cursor.reach set none (c :: before) rest else []).drop n ↔
        ∃ text, rest = text ++ d.after ∧ (n ≤ text.length ∧ ∀ x ∈ c :: text, set.has x = true) ∧
          d.before = text.reverse ++ c :: before := by
      intro n
      by_cases hc : set.has c = true
      · rw [if_pos hc, ih]
        simp only [List.forall_mem_cons, hc, true_and]
      · rw [if_neg hc, List.drop_nil]
        constructor
        · exact fun h => absurd h List.not_mem_nil
        · rintro ⟨text, -, ⟨-, hall⟩, -⟩
          exact absurd (hall c List.mem_cons_self) hc
    have hreach : Cursor.reach set none before (c :: rest) = ⟨before, c :: rest⟩ ::
        if set.has c = true then Cursor.reach set none (c :: before) rest else [] := by
      simp [Cursor.reach]
    rw [hreach]
    constructor
    · intro h
      cases least with
      | zero =>
        rcases List.mem_cons.1 h with rfl | h
        · exact ⟨[], rfl, ⟨Nat.le_refl 0, by simp⟩, rfl⟩
        · obtain ⟨text, rfl, ⟨-, hall⟩, hbefore⟩ := (hmore 0).1 h
          exact ⟨c :: text, rfl, ⟨Nat.zero_le _, hall⟩, by simpa using hbefore⟩
      | succ least =>
        obtain ⟨text, rfl, ⟨hleast, hall⟩, hbefore⟩ := (hmore least).1 h
        exact ⟨c :: text, rfl, ⟨Nat.succ_le_succ hleast, hall⟩, by simpa using hbefore⟩
    · rintro ⟨text, hafter, ⟨hleast, hall⟩, hbefore⟩
      cases text with
      | nil =>
        obtain rfl := Nat.le_zero.1 hleast
        have hd : d = ⟨before, c :: rest⟩ := by
          rw [show d = ⟨d.before, d.after⟩ from rfl, hbefore, hafter]
          rfl
        rw [hd]
        exact List.mem_cons_self
      | cons x text =>
        obtain ⟨rfl, hrest⟩ := List.cons.inj hafter
        have hbefore' : d.before = text.reverse ++ c :: before := by simpa using hbefore
        cases least with
        | zero =>
          exact List.mem_cons_of_mem _ ((hmore 0).2 ⟨text, hrest, ⟨Nat.zero_le _, hall⟩, hbefore'⟩)
        | succ least =>
          exact (hmore least).2 ⟨text, hrest, ⟨Nat.le_of_succ_le_succ hleast, hall⟩, hbefore'⟩

/-- A plain pattern reads the texts that it spells. -/
theorem reads_ends {p : Pattern} (h : p.isPlain = true) : Reads p.ends (Spells p) := by
  induction p with
  | empty =>
    intro before after captures t
    simp only [ends, List.mem_singleton, spells_empty_iff]
    constructor
    · rintro rfl
      exact ⟨[], after, rfl, rfl, rfl⟩
    · rintro ⟨_, rest, rfl, rfl, rfl⟩
      rfl
  | one set =>
    intro before after captures t
    simp only [spells_one_iff]
    cases after with
    | nil =>
      simp only [ends, List.not_mem_nil, false_iff]
      rintro ⟨_, rest, hafter, ⟨c, -, rfl⟩, -⟩
      cases hafter
    | cons c rest =>
      simp only [ends]
      constructor
      · intro ht
        split at ht
        · rename_i hc
          exact ⟨[c], rest, rfl, ⟨c, hc, rfl⟩, List.mem_singleton.1 ht⟩
        · cases ht
      · rintro ⟨_, rest', hafter, ⟨d, hd, rfl⟩, rfl⟩
        obtain ⟨rfl, rfl⟩ := List.cons.inj hafter
        rw [if_pos hd]
        exact List.mem_singleton_self _
  | span set least most greedy =>
    obtain rfl : most = none := by simpa [isPlain] using h
    intro before after captures t
    have hmem : t ∈ (Pattern.span set least none greedy).ends ⟨⟨before, after⟩, captures⟩ ↔
        ∃ d ∈ (Cursor.reach set none before after).drop least, ⟨d, captures⟩ = t := by
      cases greedy <;> simp [ends, -List.map_drop]
    rw [hmem]
    constructor
    · rintro ⟨d, hd, rfl⟩
      obtain ⟨text, hafter, hall, hbefore⟩ := mem_drop_reach_iff.1 hd
      exact ⟨text, d.after, hafter, spells_span_iff.2 hall, by rw [← hbefore]⟩
    · rintro ⟨text, rest, hafter, hspells, rfl⟩
      exact ⟨_, mem_drop_reach_iff.2 ⟨text, hafter, spells_span_iff.1 hspells, rfl⟩, rfl⟩
  | seq p q hp hq =>
    rw [isPlain, Bool.and_eq_true] at h
    refine ((hp h.1).flatMap (hq h.2)).congr fun text => ?_
    rw [spells_seq_iff]
  | either p q hp hq =>
    rw [isPlain, Bool.and_eq_true] at h
    intro before after captures t
    simp only [ends, List.mem_append, hp h.1 before after captures t,
      hq h.2 before after captures t, spells_either_iff, or_and_right, and_or_left, exists_or]
  | loop p least most greedy hp =>
    rw [isPlain, Bool.and_eq_true, Option.isNone_iff_eq_none] at h
    obtain ⟨hplain, rfl⟩ := h
    intro before after captures t
    have hbody := hp hplain
    simp only [ends, List.mem_flatMap, spells_loop_iff, Option.map_none]
    constructor
    · rintro ⟨_, hu, ht⟩
      obtain ⟨_, rest, rfl, ⟨first, hfirst, hall, rfl⟩, rfl⟩ := (hbody.times least _ _ _ _).1 hu
      obtain ⟨more, hmore, rest', rfl, rfl⟩ := hbody.of_mem_iterateEnds ht
      refine ⟨(first ++ more).flatten, rest', by simp, ⟨first ++ more, ?_, ?_, rfl⟩, by simp⟩
      · rw [List.length_append]
        omega
      · exact List.forall_mem_append.2 ⟨hall, hmore⟩
    · rintro ⟨_, rest, rfl, ⟨words, hleast, hall, rfl⟩, rfl⟩
      have hwords : words.flatten = (words.take least).flatten ++ (words.drop least).flatten := by
        rw [← List.flatten_append, List.take_append_drop]
      have hfirst : ∀ w ∈ words.take least, Spells p w :=
        fun w hw => hall w (List.mem_of_mem_take hw)
      have hmore : ∀ w ∈ words.drop least, Spells p w :=
        fun w hw => hall w (List.mem_of_mem_drop hw)
      refine ⟨_, (hbody.times least _ _ _ _).2 ⟨(words.take least).flatten,
        (words.drop least).flatten ++ rest, by rw [hwords, List.append_assoc],
        ⟨words.take least, List.length_take_of_le hleast, hfirst, rfl⟩, rfl⟩, ?_⟩
      have hend := hbody.mem_iterateEnds greedy ((words.take least).flatten.reverse ++ before)
        hmore captures (Nat.lt_succ_self ((words.drop least).flatten ++ rest).length)
      rw [hwords, List.reverse_append, List.append_assoc]
      exact hend
  | _ => cases h

/-! ## Texts and groups -/

theorem mem_ends_all_cons {p : Pattern} {rest : List Pattern} {s t : State} :
    t ∈ (all (p :: rest)).ends s ↔ ∃ u ∈ p.ends s, t ∈ (all rest).ends u := by
  rw [ends_all_cons, List.mem_flatMap]

theorem mem_ends_exactly {w before after : List Char} {captures : List (Nat × Capture)}
    {t : State} :
    t ∈ (exactly w).ends ⟨⟨before, after⟩, captures⟩ ↔
      ∃ rest, after = w ++ rest ∧ t = ⟨⟨w.reverse ++ before, rest⟩, captures⟩ := by
  by_cases h : w <+: after
  · obtain ⟨rest, rfl⟩ := h
    rw [ends_exactly_append, List.mem_singleton]
    constructor
    · rintro rfl
      exact ⟨rest, rfl, rfl⟩
    · rintro ⟨rest', hrest, rfl⟩
      rw [List.append_cancel_left hrest]
  · rw [ends_exactly_of_not_isPrefix h]
    constructor
    · exact fun ht => absurd ht List.not_mem_nil
    · rintro ⟨rest, rfl, -⟩
      exact absurd (List.prefix_append w rest) h

theorem mem_ends_group {index : Nat} {p : Pattern} {s t : State} :
    t ∈ (Pattern.group index p).ends s ↔ ∃ u ∈ p.ends s,
      t = { u with captures := (index, ⟨s.cursor.after, u.cursor.after⟩) :: u.captures } := by
  simp only [ends, List.mem_map, eq_comm]

theorem spells_blanks_iff {s : List Char} : Spells blanks s ↔ Text.allBlank s = true := by
  rw [blanks, spells_many_iff, Text.allBlank, List.all_eq_true]
  simp only [CharSet.has_kind]
  rfl

theorem reads_blanks : Reads blanks.ends fun s => Text.allBlank s = true :=
  (reads_ends rfl).congr fun _ => spells_blanks_iff

theorem reads_blanks1 : Reads blanks1.ends fun s => Text.allBlank s = true ∧ s ≠ [] := by
  refine (reads_ends rfl).congr fun s => ?_
  rw [blanks1, many1, spells_span_one_iff, ← spells_many_iff, and_comm]
  exact and_congr_left fun _ => spells_blanks_iff

/-- A plain pattern in a group between two given texts. -/
def enclosed (opening : List Char) (p : Pattern) (closing : List Char) : Pattern :=
  all [exactly opening, .group 1 p, exactly closing]

/-- A plain pattern in a group, with blanks around it, between two given texts. -/
def padded (opening : List Char) (p : Pattern) (closing : List Char) : Pattern :=
  all [exactly opening, blanks, .group 1 p, blanks, exactly closing]

section

variable {opening closing : List Char} {p : Pattern} (hp : p.isPlain = true)
  {before after : List Char} {t : State}

include hp

theorem mem_ends_enclosed :
    t ∈ (enclosed opening p closing).ends ⟨⟨before, after⟩, []⟩ ↔
      ∃ inner rest, after = opening ++ (inner ++ (closing ++ rest)) ∧ Spells p inner ∧
        t = ⟨⟨(opening ++ (inner ++ closing)).reverse ++ before, rest⟩,
          [(1, ⟨inner ++ (closing ++ rest), closing ++ rest⟩)]⟩ := by
  simp only [enclosed, mem_ends_all_cons, mem_ends_group]
  constructor
  · rintro ⟨_, hopen, _, ⟨_, hinner, rfl⟩, _, hclose, ht⟩
    obtain ⟨_, rfl, rfl⟩ := mem_ends_exactly.1 hopen
    obtain ⟨inner, _, rfl, hspells, rfl⟩ := (reads_ends hp _ _ _ _).1 hinner
    obtain ⟨rest, rfl, rfl⟩ := mem_ends_exactly.1 hclose
    rw [List.mem_singleton.1 ht]
    exact ⟨inner, rest, rfl, hspells, by simp⟩
  · rintro ⟨inner, rest, rfl, hspells, rfl⟩
    refine ⟨_, mem_ends_exactly.2 ⟨_, rfl, rfl⟩, _,
      ⟨_, (reads_ends hp _ _ _ _).2 ⟨inner, _, rfl, hspells, rfl⟩, rfl⟩, _,
      mem_ends_exactly.2 ⟨rest, rfl, rfl⟩, ?_⟩
    simp [all, ends]

theorem mem_ends_padded :
    t ∈ (padded opening p closing).ends ⟨⟨before, after⟩, []⟩ ↔
      ∃ lead inner trail rest,
        after = opening ++ (lead ++ (inner ++ (trail ++ (closing ++ rest)))) ∧
        Text.allBlank lead = true ∧ Spells p inner ∧ Text.allBlank trail = true ∧
        t = ⟨⟨(opening ++ (lead ++ (inner ++ (trail ++ closing)))).reverse ++ before, rest⟩,
          [(1, ⟨inner ++ (trail ++ (closing ++ rest)), trail ++ (closing ++ rest)⟩)]⟩ := by
  simp only [padded, mem_ends_all_cons, mem_ends_group]
  constructor
  · rintro ⟨_, hopen, _, hlead, _, ⟨_, hinner, rfl⟩, _, htrail, _, hclose, ht⟩
    obtain ⟨_, rfl, rfl⟩ := mem_ends_exactly.1 hopen
    obtain ⟨lead, _, rfl, hleadBlank, rfl⟩ := (reads_blanks _ _ _ _).1 hlead
    obtain ⟨inner, _, rfl, hspells, rfl⟩ := (reads_ends hp _ _ _ _).1 hinner
    obtain ⟨trail, _, rfl, htrailBlank, rfl⟩ := (reads_blanks _ _ _ _).1 htrail
    obtain ⟨rest, rfl, rfl⟩ := mem_ends_exactly.1 hclose
    rw [List.mem_singleton.1 ht]
    exact ⟨lead, inner, trail, rest, rfl, hleadBlank, hspells, htrailBlank, by simp⟩
  · rintro ⟨lead, inner, trail, rest, rfl, hleadBlank, hspells, htrailBlank, rfl⟩
    refine ⟨_, mem_ends_exactly.2 ⟨_, rfl, rfl⟩, _,
      (reads_blanks _ _ _ _).2 ⟨lead, _, rfl, hleadBlank, rfl⟩, _,
      ⟨_, (reads_ends hp _ _ _ _).2 ⟨inner, _, rfl, hspells, rfl⟩, rfl⟩, _,
      (reads_blanks _ _ _ _).2 ⟨trail, _, rfl, htrailBlank, rfl⟩, _,
      mem_ends_exactly.2 ⟨rest, rfl, rfl⟩, ?_⟩
    simp [all, ends]

end

/-! ## Whole texts -/

theorem matchesStart_iff {p : Pattern} {s : List Char} :
    p.matchesStart s = true ↔ ∃ t, t ∈ p.ends ⟨Cursor.start s, []⟩ := by
  rw [matchesStart, matchAt_eq_head?, Option.isSome_map, List.isSome_head?]
  exact ⟨List.exists_mem_of_ne_nil _, fun ⟨_, ht⟩ => List.ne_nil_of_mem ht⟩

/-- A plain pattern between the beginning of the text and the end of its last line matches a text
that it spells, behind which one line feed may follow. -/
theorem matchesStart_whole_iff {ps : List Pattern} (h : (all ps).isPlain = true) {s : List Char} :
    (all (.anchor .textStart :: (ps ++ [.anchor .lastLineEnd]))).matchesStart s = true ↔
      ∃ text rest, s = text ++ rest ∧ Spells (all ps) text ∧ (rest = [] ∨ rest = ['\n']) := by
  have hstart : (Pattern.anchor .textStart).ends ⟨Cursor.start s, []⟩ =
      [⟨Cursor.start s, []⟩] := rfl
  have hlast (t : State) : (∃ u, u ∈ (all [Pattern.anchor .lastLineEnd]).ends t) ↔
      t.cursor.after = [] ∨ t.cursor.after = ['\n'] := by
    simp [all, ends, Anchor.holds]
  rw [matchesStart_iff, ends_all_cons, hstart, List.flatMap_singleton, ends_all_append]
  simp only [List.mem_flatMap]
  constructor
  · rintro ⟨u, t, ht, hu⟩
    obtain ⟨text, rest, rfl, hspells, rfl⟩ := (reads_ends h _ _ _ _).1 ht
    exact ⟨text, rest, rfl, hspells, (hlast _).1 ⟨u, hu⟩⟩
  · rintro ⟨text, rest, rfl, hspells, hrest⟩
    obtain ⟨u, hu⟩ := (hlast ⟨⟨text.reverse ++ [], rest⟩, []⟩).2 hrest
    exact ⟨u, _, (reads_ends h _ _ _ _).2 ⟨text, rest, rfl, hspells, rfl⟩, hu⟩

end Stencil.Pattern
