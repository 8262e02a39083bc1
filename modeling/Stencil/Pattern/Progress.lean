import Stencil.Pattern.Scan

/-!
Patterns go forward.

Whatever `Pattern.run` finds comes from its continuation, at a place that is reached by going on in
the text (`progressive_run`).  So a match is the beginning of what follows its place
(`matchAt_text`), it is not empty where that is asked for (`matchAt_ne_nil`), and the segments of a
text joined are the text (`flatMap_text_segments`).
-/

namespace Stencil

/-- The place `d` is reached from `c` by going on in the same text. -/
def Cursor.Reaches (c d : Cursor) : Prop :=
  ∃ passed, c.after = passed ++ d.after ∧ d.before = passed.reverse ++ c.before

namespace Cursor

theorem Reaches.refl (c : Cursor) : c.Reaches c := ⟨[], rfl, rfl⟩

theorem Reaches.trans {c d e : Cursor} (h : c.Reaches d) (h' : d.Reaches e) : c.Reaches e := by
  obtain ⟨u, hu, hu'⟩ := h
  obtain ⟨v, hv, hv'⟩ := h'
  exact ⟨u ++ v, by rw [hu, hv, List.append_assoc], by simp [hv', hu']⟩

theorem reaches_next (x : Char) (before after : List Char) :
    Reaches ⟨before, x :: after⟩ ⟨x :: before, after⟩ := ⟨[x], rfl, rfl⟩

theorem reaches_of_mem_reach {set : Pattern.CharSet} {most : Option Nat} {before after : List Char}
    {d : Cursor} (h : d ∈ reach set most before after) : Reaches ⟨before, after⟩ d := by
  induction after generalizing most before with
  | nil =>
    rw [reach, List.mem_singleton] at h
    exact h ▸ Reaches.refl _
  | cons c rest ih =>
    rw [reach, List.mem_cons] at h
    rcases h with rfl | h
    · exact Reaches.refl _
    · split at h
      · exact (reaches_next c before rest).trans (ih h)
      · simp at h

end Cursor

namespace Pattern

theorem reaches_of_dropText? {same : Char → Char → Bool} {xs : List Char} {c d : Cursor}
    (h : dropText? same xs c = some d) : c.Reaches d := by
  fun_induction dropText? same xs c with
  | case1 => exact (Option.some.inj h) ▸ Cursor.Reaches.refl _
  | case2 x xs before y after _ ih => exact (Cursor.reaches_next y before after).trans (ih h)
  | case3 => simp at h
  | case4 => simp at h

/-- Whatever is found comes from the continuation, at a place further on in the text. -/
def Progressive (f : Continuation → Continuation) : Prop :=
  ∀ k s t, f k s = some t → ∃ u, k u = some t ∧ s.cursor.Reaches u.cursor

theorem Progressive.times {f : Continuation → Continuation} (hf : Progressive f) (n : Nat) :
    Progressive (times f n) := by
  induction n with
  | zero => exact fun k s t h => ⟨s, h, .refl _⟩
  | succ n ih =>
    intro k s t h
    obtain ⟨u, hu, hr⟩ := hf _ s t h
    obtain ⟨v, hv, hr'⟩ := ih k u t hu
    exact ⟨v, hv, hr.trans hr'⟩

theorem Progressive.iterate {f : Continuation → Continuation} (hf : Progressive f) (greedy : Bool)
    (fuel : Nat) (most : Option Nat) : Progressive fun k => iterate f greedy k fuel most := by
  induction fuel generalizing most with
  | zero => exact fun k s t h => ⟨s, h, .refl _⟩
  | succ fuel ih =>
    intro k s t h
    have once : ∀ {n : Option Nat} {t}, f (fun v => if v.cursor.after.length = s.cursor.after.length
        then k v else Pattern.iterate f greedy k fuel n v) s = some t →
        ∃ u, k u = some t ∧ s.cursor.Reaches u.cursor := by
      intro n t h
      obtain ⟨v, hv, hr⟩ := hf _ s t h
      split at hv
      · exact ⟨v, hv, hr⟩
      · obtain ⟨u, hu, hr'⟩ := ih n k v t hv
        exact ⟨u, hu, hr.trans hr'⟩
    simp only [Pattern.iterate] at h
    split at h
    · exact ⟨s, h, .refl _⟩
    · split at h
      · split at h
        · rename_i hb
          exact once (hb.trans h)
        · exact ⟨s, h, .refl _⟩
      · split at h
        · rename_i hk
          exact ⟨s, hk.trans h, .refl _⟩
        · exact once h

/-- A look at the text around goes on where it is. -/
theorem progressive_look (negated : Bool) (found : State → Option State) :
    Progressive fun k s => look negated (found s) k s := by
  intro k s t h
  simp only [look] at h
  split at h
  · split at h
    · simp at h
    · exact ⟨_, h, .refl _⟩
  · split at h
    · exact ⟨s, h, .refl _⟩
    · simp at h

/-- A pattern goes on from where it starts, and what is found comes from the continuation. -/
theorem progressive_run (p : Pattern) : Progressive p.run := by
  induction p with
  | empty => exact fun k s t h => ⟨s, h, .refl _⟩
  | one set =>
    intro k s t h
    rw [run] at h
    obtain ⟨⟨before, after⟩, captures⟩ := s
    cases after with
    | nil => simp at h
    | cons c rest =>
      simp only at h
      split at h
      · exact ⟨_, h, Cursor.reaches_next c before rest⟩
      · simp at h
  | span set least most greedy =>
    intro k s t h
    rw [run] at h
    obtain ⟨c, hc, hk⟩ := List.exists_of_findSome?_eq_some h
    have hm : c ∈ Cursor.reach set most s.cursor.before s.cursor.after := by
      split at hc
      · exact List.mem_of_mem_drop (List.mem_reverse.1 hc)
      · exact List.mem_of_mem_drop hc
    exact ⟨_, hk, Cursor.reaches_of_mem_reach hm⟩
  | seq p q hp hq =>
    intro k s t h
    obtain ⟨u, hu, hr⟩ := hp _ s t h
    obtain ⟨v, hv, hr'⟩ := hq k u t hu
    exact ⟨v, hv, hr.trans hr'⟩
  | either p q hp hq =>
    intro k s t h
    rw [run] at h
    split at h
    · rename_i hl
      exact hp k s t (hl.trans h)
    · exact hq k s t h
  | loop p least most greedy hp =>
    intro k s t h
    obtain ⟨u, hu, hr⟩ := hp.times least _ s t h
    obtain ⟨v, hv, hr'⟩ := hp.iterate greedy _ _ k u t hu
    exact ⟨v, hv, hr.trans hr'⟩
  | atomic p hp =>
    intro k s t h
    rw [run] at h
    split at h
    · rename_i u hu
      obtain ⟨v, hv, hr⟩ := hp some s u hu
      exact ⟨u, h, Option.some.inj hv ▸ hr⟩
    · simp at h
  | group index p hp =>
    intro k s t h
    obtain ⟨u, hu, hr⟩ := hp _ s t h
    exact ⟨_, hu, hr⟩
  | again index casing =>
    intro k s t h
    rw [run] at h
    split at h
    · simp at h
    · split at h
      · rename_i hd
        exact ⟨_, h, reaches_of_dropText? hd⟩
      · simp at h
  | given index yes no hyes hno =>
    intro k s t h
    rw [run] at h
    split at h
    · exact hyes k s t h
    · exact hno k s t h
  | anchor a =>
    intro k s t h
    rw [run] at h
    split at h
    · exact ⟨s, h, .refl _⟩
    · simp at h
  | ahead negated p _ => exact progressive_look negated (p.run some)
  | behind negated width p _ =>
    exact progressive_look negated fun s =>
      (s.cursor.back? width).bind fun c => p.run some { s with cursor := c }

/-! ## Segments -/

/-- The matched text is the beginning of what follows the place. -/
theorem matchAt_text {p : Pattern} {notEmpty : Bool} {c : Cursor} {m : Match}
    (h : p.matchAt notEmpty c = some m) : m.text <+: c.after := by
  obtain ⟨t, _, rfl⟩ := Option.map_eq_some_iff.1 h
  exact List.take_prefix _ _

/-- A match that may not be empty is not. -/
theorem matchAt_ne_nil {p : Pattern} {c : Cursor} {m : Match} (h : p.matchAt true c = some m) :
    m.text ≠ [] := by
  obtain ⟨t, ht, rfl⟩ := Option.map_eq_some_iff.1 h
  obtain ⟨u, hu, passed, hp, _⟩ := p.progressive_run _ _ t ht
  split at hu
  · simp at hu
  · rename_i hn
    obtain rfl := Option.some.inj hu
    intro hnil
    have hlen := congrArg List.length hp
    have htake := congrArg List.length hnil
    simp only [List.length_append, List.length_take, List.length_nil] at hlen htake
    simp only [Bool.true_and, beq_iff_eq] at hn
    omega

theorem text_append_drop {m : Match} {c : Char} {rest : List Char} (h : m.text <+: c :: rest)
    (hm : m.text ≠ []) : m.text ++ rest.drop (m.text.length - 1) = c :: rest := by
  obtain ⟨more, h⟩ := h
  cases e : m.text with
  | nil => exact absurd e hm
  | cons d ds =>
    rw [e] at h
    obtain ⟨rfl, rfl⟩ := List.cons.inj h
    simp

theorem flatMap_text_segmentsFrom (p : Pattern) (skip : Nat) (before s : List Char) :
    (segmentsFrom p skip before s).flatMap Segment.text = s.drop skip := by
  induction s generalizing skip before with
  | nil =>
    rw [segmentsFrom]
    split
    · rename_i m h
      simpa [Segment.text] using matchAt_text h
    · simp
  | cons c rest ih =>
    cases skip with
    | succ skip => simpa [segmentsFrom] using ih skip (c :: before)
    | zero =>
      rw [segmentsFrom]
      split
      · simp [Segment.text, ih]
      · rename_i m h
        split
        · rename_i he
          rw [List.isEmpty_iff] at he
          split
          · rename_i m' h'
            simp [Segment.text, he, ih, text_append_drop (matchAt_text h') (matchAt_ne_nil h')]
          · simp [Segment.text, he, ih]
        · rename_i he
          rw [List.isEmpty_iff] at he
          simp [Segment.text, ih, text_append_drop (matchAt_text h) he]

/-- Nothing of a text is lost in its segments. -/
theorem flatMap_text_segments (p : Pattern) (s : List Char) :
    (p.segments s).flatMap Segment.text = s := by
  simp [segments, flatMap_text_segmentsFrom]

end Pattern

end Stencil
