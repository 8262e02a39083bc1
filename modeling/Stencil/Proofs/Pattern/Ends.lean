import Stencil.Pattern.Scan

/-!
# All matches of a pattern at one place

`Pattern.run` tries the matches at a place one after the other and stops at the first that the
continuation accepts.  `Pattern.ends` lists the states in which they all end, in the same order of
preference, so that

    p.run k s = (p.ends s).findSome? k                                        (run_eq_findSome?)

and the match that is found is the first of the list.  Below are the ends of the common shapes: a
given text, a run of characters of a set, the shortest text that goes on as it should.
-/

namespace Stencil.Pattern

def timesEnds (body : State → List State) : Nat → State → List State
  | 0, s => [s]
  | n + 1, s => (body s).flatMap (timesEnds body n)

/-- The ends of `body` repeated up to `most` times; one that has matched the empty text is the
last. -/
def iterateEnds (body : State → List State) (greedy : Bool) :
    (fuel : Nat) → (most : Option Nat) → State → List State
  | 0, _, s => [s]
  | fuel + 1, most, s =>
    if most = some 0 then [s]
    else
      let more := (body s).flatMap fun t =>
        if t.cursor.after.length = s.cursor.after.length then [t]
        else iterateEnds body greedy fuel (most.map (· - 1)) t
      if greedy then more ++ [s] else s :: more

/-- The state after a look at the text around, if it goes on. -/
def lookEnds (negated : Bool) (found : Option State) (s : State) : List State :=
  match found with
  | some t => if negated then [] else [{ t with cursor := s.cursor }]
  | none => if negated then [s] else []

@[simp] theorem lookEnds_none (negated : Bool) (s : State) :
    lookEnds negated none s = if negated then [s] else [] := rfl

@[simp] theorem lookEnds_some (negated : Bool) (t s : State) :
    lookEnds negated (some t) s = if negated then [] else [{ t with cursor := s.cursor }] := rfl

/-- The states in which the matches of a pattern end, the preferred one first. -/
def ends : Pattern → State → List State
  | .empty, s => [s]
  | .one set, s =>
    match s.cursor with
    | ⟨before, c :: after⟩ => if set.has c then [{ s with cursor := ⟨c :: before, after⟩ }] else []
    | ⟨_, []⟩ => []
  | .span set least most greedy, s =>
    let places := (Cursor.reach set most s.cursor.before s.cursor.after).drop least
    (if greedy then places.reverse else places).map fun c => { s with cursor := c }
  | .seq p q, s => (p.ends s).flatMap q.ends
  | .either p q, s => p.ends s ++ q.ends s
  | .loop p least most greedy, s =>
    (timesEnds p.ends least s).flatMap fun t =>
      iterateEnds p.ends greedy (t.cursor.after.length + 1) (most.map (· - least)) t
  | .atomic p, s => (p.ends s).head?.toList
  | .group index p, s =>
    (p.ends s).map fun t =>
      { t with captures := (index, ⟨s.cursor.after, t.cursor.after⟩) :: t.captures }
  | .again index casing, s =>
    match s.captures.lookup index with
    | none => []
    | some c =>
      ((dropText? casing.same c.text s.cursor).map fun cursor =>
        { s with cursor := cursor }).toList
  | .given index yes no, s =>
    if (s.captures.lookup index).isSome then yes.ends s else no.ends s
  | .anchor a, s => if a.holds s.cursor then [s] else []
  | .ahead negated p, s => lookEnds negated (p.ends s).head? s
  | .behind negated width p, s =>
    lookEnds negated ((s.cursor.back? width).bind fun c => (p.ends { s with cursor := c }).head?) s

/-! ## The first of the ends is what is found -/

theorem findSome?_some (l : List State) : l.findSome? some = l.head? := by
  cases l <;> rfl

theorem findSome?_flatMap (k : Continuation) (f : State → List State) (l : List State) :
    (l.flatMap f).findSome? k = l.findSome? fun s => (f s).findSome? k := by
  induction l with
  | nil => rfl
  | cons s rest ih =>
    rw [List.flatMap_cons, List.findSome?_append, List.findSome?_cons, ih]
    cases (f s).findSome? k <;> rfl

theorem times_eq_findSome? {f : Continuation → Continuation} {body : State → List State}
    (hf : ∀ k s, f k s = (body s).findSome? k) (n : Nat) (k : Continuation) (s : State) :
    times f n k s = (timesEnds body n s).findSome? k := by
  induction n generalizing k s with
  | zero => simp [times, timesEnds]
  | succ n ih =>
    have hrest : times f n k = fun t => (timesEnds body n t).findSome? k := funext fun t => ih k t
    simp only [times, timesEnds, hf, hrest, findSome?_flatMap]

theorem iterate_eq_findSome? {f : Continuation → Continuation} {body : State → List State}
    (hf : ∀ k s, f k s = (body s).findSome? k) (greedy : Bool) (k : Continuation) (fuel : Nat)
    (most : Option Nat) (s : State) :
    iterate f greedy k fuel most s = (iterateEnds body greedy fuel most s).findSome? k := by
  induction fuel generalizing most s with
  | zero => simp [iterate, iterateEnds]
  | succ fuel ih =>
    by_cases hmost : most = some 0
    · simp [iterate, iterateEnds, hmost]
    · have hnext : (fun t => if t.cursor.after.length = s.cursor.after.length then k t
          else iterate f greedy k fuel (most.map (· - 1)) t) =
          fun t => (if t.cursor.after.length = s.cursor.after.length then [t]
            else iterateEnds body greedy fuel (most.map (· - 1)) t).findSome? k := by
        funext t
        rw [ih]
        split <;> simp
      cases greedy with
      | true =>
        simp only [iterate, iterateEnds, hmost, if_false, if_true, hf, hnext,
          List.findSome?_append, findSome?_flatMap]
        cases (body s).findSome? _ <;> simp
      | false =>
        simp only [iterate, iterateEnds, hmost, if_false, hf, hnext, List.findSome?_cons,
          findSome?_flatMap, Bool.false_eq_true]
        cases k s <;> rfl

theorem look_eq_findSome? (negated : Bool) (found : Option State) (k : Continuation) (s : State) :
    look negated found k s = (lookEnds negated found s).findSome? k := by
  cases found <;> cases negated <;> simp [look]

/-- What is found is what the continuation makes of the first of the ends that it accepts. -/
theorem run_eq_findSome? (p : Pattern) (k : Continuation) (s : State) :
    p.run k s = (p.ends s).findSome? k := by
  induction p generalizing k s with
  | empty => simp [run, ends]
  | one set =>
    obtain ⟨⟨before, after⟩, captures⟩ := s
    cases after with
    | nil => rfl
    | cons c rest =>
      simp only [run, ends]
      split <;> simp
  | span set least most greedy =>
    simp only [run, ends, List.findSome?_map]
    rfl
  | seq p q hp hq =>
    have hrest : q.run k = fun t => (q.ends t).findSome? k := funext fun t => hq k t
    simp only [run, ends, hp, hrest, findSome?_flatMap]
  | either p q hp hq =>
    simp only [run, ends, hp, hq, List.findSome?_append]
    cases (p.ends s).findSome? k <;> rfl
  | loop p least most greedy hp =>
    simp only [run, ends, iterate_eq_findSome? hp, times_eq_findSome? hp, findSome?_flatMap]
  | atomic p hp =>
    simp only [run, ends, hp, findSome?_some]
    cases (p.ends s).head? <;> simp
  | group index p hp =>
    simp only [run, ends, hp, List.findSome?_map]
    rfl
  | again index casing =>
    simp only [run, ends]
    cases s.captures.lookup index with
    | none => rfl
    | some c => cases h : dropText? casing.same c.text s.cursor <;> simp [h]
  | given index yes no hyes hno =>
    simp only [run, ends]
    split
    · exact hyes k s
    · exact hno k s
  | anchor a =>
    simp only [run, ends]
    split <;> simp
  | ahead negated p hp => simp only [run, ends, hp, findSome?_some, look_eq_findSome?]
  | behind negated width p hp => simp only [run, ends, hp, findSome?_some, look_eq_findSome?]

/-- The preferred match at a place ends where the first of the ends is. -/
theorem matchAt_eq_head? (p : Pattern) (c : Cursor) :
    p.matchAt false c = (p.ends ⟨c, []⟩).head?.map fun t =>
      ⟨c.after.take (c.after.length - t.cursor.after.length), t.captures⟩ := by
  simp only [matchAt, run_eq_findSome?, Bool.false_and, Bool.false_eq_true, if_false]
  rw [← findSome?_some]

/-! ## Texts and sequences -/

theorem ends_all_cons (p : Pattern) (rest : List Pattern) (s : State) :
    (all (p :: rest)).ends s = (p.ends s).flatMap (all rest).ends := by
  cases rest with
  | nil =>
    show p.ends s = (p.ends s).flatMap fun t => [t]
    simp
  | cons q rest => rfl

theorem ends_all_append (ps qs : List Pattern) (s : State) :
    (all (ps ++ qs)).ends s = ((all ps).ends s).flatMap (all qs).ends := by
  induction ps generalizing s with
  | nil => simp [all, ends]
  | cons p ps ih =>
    rw [List.cons_append, ends_all_cons, ends_all_cons, List.flatMap_assoc]
    exact congrArg ((p.ends s).flatMap ·) (funext ih)

theorem ends_all_of_nil {p : Pattern} {s : State} (h : p.ends s = []) (rest : List Pattern) :
    (all (p :: rest)).ends s = [] := by
  rw [ends_all_cons, h, List.flatMap_nil]

/-- A given text is matched where it stands. -/
theorem ends_exactly_append (w before rest : List Char) (captures : List (Nat × Capture)) :
    (exactly w).ends ⟨⟨before, w ++ rest⟩, captures⟩ =
      [⟨⟨w.reverse ++ before, rest⟩, captures⟩] := by
  unfold exactly
  induction w generalizing before with
  | nil => rfl
  | cons c w ih =>
    rw [List.map_cons, ends_all_cons]
    simp only [ends, List.cons_append, CharSet.has_single, beq_self_eq_true, if_true,
      List.flatMap_cons, List.flatMap_nil, List.append_nil, ih, List.reverse_cons,
      List.append_assoc, List.nil_append]

/-- A given text is not matched where it does not stand. -/
theorem ends_exactly_of_not_isPrefix {w after : List Char} (h : ¬ w <+: after) (before : List Char)
    (captures : List (Nat × Capture)) : (exactly w).ends ⟨⟨before, after⟩, captures⟩ = [] := by
  unfold exactly
  induction w generalizing before after with
  | nil => exact absurd List.nil_prefix h
  | cons c w ih =>
    rw [List.map_cons, ends_all_cons]
    cases after with
    | nil => rfl
    | cons d after =>
      by_cases hcd : d = c
      · subst hcd
        have hrest : ¬ w <+: after := fun hp => h ((List.prefix_cons_inj d).2 hp)
        simp only [ends, CharSet.has_single, beq_self_eq_true, if_true, List.flatMap_cons,
          List.flatMap_nil, List.append_nil, ih hrest]
      · simp [ends, hcd]

/-! ## Runs of characters of a set -/

/-- The places that are reached through a run of characters of a set: some that are followed by a
character of the set, and the end of the run. -/
theorem reach_run {set : CharSet} {run rest : List Char} (hrun : ∀ c ∈ run, set.has c = true)
    (hrest : ∀ c ∈ rest.head?, set.has c = false) (before : List Char) :
    ∃ places, Cursor.reach set none before (run ++ rest) =
        places ++ [⟨run.reverse ++ before, rest⟩] ∧
      places.length = run.length ∧
      ∀ d ∈ places, ∃ c after, d.after = c :: after ∧ set.has c = true := by
  induction run generalizing before with
  | nil =>
    refine ⟨[], ?_, rfl, by simp⟩
    cases rest with
    | nil => rfl
    | cons c rest =>
      have hc : set.has c = false := hrest c rfl
      simp [Cursor.reach, hc]
  | cons c run ih =>
    have hc := hrun c List.mem_cons_self
    obtain ⟨places, hreach, hlength, hplaces⟩ :=
      ih (fun d hd => hrun d (List.mem_cons_of_mem c hd)) (c :: before)
    refine ⟨⟨before, c :: run ++ rest⟩ :: places, ?_, ?_, ?_⟩
    · simp [Cursor.reach, hc, hreach]
    · rw [List.length_cons, List.length_cons, hlength]
    · intro d hd
      rcases List.mem_cons.1 hd with rfl | hd
      · exact ⟨c, run ++ rest, rfl, hc⟩
      · exact hplaces d hd

section

variable {set : CharSet} {run rest : List Char} (hrun : ∀ c ∈ run, set.has c = true)
  (hrest : ∀ c ∈ rest.head?, set.has c = false) (before : List Char)
  (captures : List (Nat × Capture))

include hrun hrest

/-- The preferred match of a greedy repetition is the whole run; the others leave a character of
the set. -/
theorem ends_many_run :
    ∃ others, (many set).ends ⟨⟨before, run ++ rest⟩, captures⟩ =
        ⟨⟨run.reverse ++ before, rest⟩, captures⟩ :: others ∧
      ∀ t ∈ others, ∃ c after, t.cursor.after = c :: after ∧ set.has c = true := by
  obtain ⟨places, hreach, -, hplaces⟩ := reach_run hrun hrest before
  refine ⟨places.reverse.map fun d => ⟨d, captures⟩, ?_, ?_⟩
  · simp [many, ends, hreach]
  · intro t ht
    obtain ⟨d, hd, rfl⟩ := List.mem_map.1 ht
    exact hplaces d (List.mem_reverse.1 hd)

theorem ends_many1_run (hne : run ≠ []) :
    ∃ others, (many1 set).ends ⟨⟨before, run ++ rest⟩, captures⟩ =
        ⟨⟨run.reverse ++ before, rest⟩, captures⟩ :: others ∧
      ∀ t ∈ others, ∃ c after, t.cursor.after = c :: after ∧ set.has c = true := by
  obtain ⟨places, hreach, hlength, hplaces⟩ := reach_run hrun hrest before
  have hpos : 1 ≤ places.length := by
    have := List.length_pos_iff.2 hne
    omega
  refine ⟨(places.drop 1).reverse.map fun d => ⟨d, captures⟩, ?_, ?_⟩
  · simp [many1, ends, hreach, List.drop_append_of_le_length hpos]
  · intro t ht
    obtain ⟨d, hd, rfl⟩ := List.mem_map.1 ht
    exact hplaces d (List.mem_of_mem_drop (List.mem_reverse.1 hd))

variable {f : State → List State}
  (hf : ∀ s : State, (∃ c after, s.cursor.after = c :: after ∧ set.has c = true) → f s = [])

include hf

/-- Where what follows cannot begin with a character of the set, a repetition takes the whole
run. -/
theorem flatMap_ends_many :
    ((many set).ends ⟨⟨before, run ++ rest⟩, captures⟩).flatMap f =
      f ⟨⟨run.reverse ++ before, rest⟩, captures⟩ := by
  obtain ⟨others, hends, hothers⟩ := ends_many_run hrun hrest before captures
  rw [hends, List.flatMap_cons, List.flatMap_eq_nil_iff.2 fun t ht => hf t (hothers t ht),
    List.append_nil]

theorem flatMap_ends_many1 (hne : run ≠ []) :
    ((many1 set).ends ⟨⟨before, run ++ rest⟩, captures⟩).flatMap f =
      f ⟨⟨run.reverse ++ before, rest⟩, captures⟩ := by
  obtain ⟨others, hends, hothers⟩ := ends_many1_run hrun hrest before captures hne
  rw [hends, List.flatMap_cons, List.flatMap_eq_nil_iff.2 fun t ht => hf t (hothers t ht),
    List.append_nil]

end

/-- Every match of a greedy repetition is a run of characters of the set. -/
theorem eq_append_of_mem_ends_many {set : CharSet} {before after : List Char}
    {captures : List (Nat × Capture)} {t : State}
    (h : t ∈ (many set).ends ⟨⟨before, after⟩, captures⟩) :
    ∃ run, (∀ c ∈ run, set.has c = true) ∧ after = run ++ t.cursor.after ∧
      t.cursor.before = run.reverse ++ before := by
  have hreach : t.cursor ∈ Cursor.reach set none before after := by
    simp only [many, ends, if_true, List.drop_zero] at h
    obtain ⟨d, hd, rfl⟩ := List.mem_map.1 h
    exact List.mem_reverse.1 hd
  clear h
  induction after generalizing before with
  | nil =>
    rw [Cursor.reach, List.mem_singleton] at hreach
    exact ⟨[], by simp, by simp [hreach], by simp [hreach]⟩
  | cons c rest ih =>
    rw [Cursor.reach, List.mem_cons] at hreach
    rcases hreach with hreach | hreach
    · exact ⟨[], by simp, by simp [hreach], by simp [hreach]⟩
    · split at hreach
      · rename_i hc
        obtain ⟨run, hrun, hafter, hbefore⟩ := ih hreach
        have hset : set.has c = true := by simpa using hc
        refine ⟨c :: run, ?_, by rw [hafter]; rfl, by simp [hbefore]⟩
        intro d hd
        rcases List.mem_cons.1 hd with rfl | hd
        · exact hset
        · exact hrun d hd
      · simp at hreach

/-! ## The shortest text that goes on as it should -/

/-- A reluctant repetition stops at the first place from which what follows can be matched. -/
theorem flatMap_ends_few {f : State → List State} {text rest : List Char} {before : List Char}
    {captures : List (Nat × Capture)}
    (h : ∀ u v, text = u ++ v → v ≠ [] → f ⟨⟨u.reverse ++ before, v ++ rest⟩, captures⟩ = []) :
    ∃ others, ((few .any).ends ⟨⟨before, text ++ rest⟩, captures⟩).flatMap f =
      f ⟨⟨text.reverse ++ before, rest⟩, captures⟩ ++ others := by
  have hreach : ((few .any).ends ⟨⟨before, text ++ rest⟩, captures⟩).flatMap f =
      (Cursor.reach .any none before (text ++ rest)).flatMap fun d => f ⟨d, captures⟩ := by
    simp [few, ends, List.flatMap_map]
  rw [hreach]
  clear hreach
  induction text generalizing before with
  | nil =>
    cases rest with
    | nil => exact ⟨[], by simp [Cursor.reach]⟩
    | cons c rest => exact ⟨_, by simp only [List.nil_append, Cursor.reach, List.flatMap_cons]; rfl⟩
  | cons c text ih =>
    have hfirst : f ⟨⟨before, c :: text ++ rest⟩, captures⟩ = [] := h [] (c :: text) rfl (by simp)
    have hlater : ∀ u v, text = u ++ v → v ≠ [] →
        f ⟨⟨u.reverse ++ c :: before, v ++ rest⟩, captures⟩ = [] := by
      intro u v huv hv
      have := h (c :: u) v (by rw [huv]; rfl) hv
      simpa using this
    obtain ⟨others, hothers⟩ := ih hlater
    refine ⟨others, ?_⟩
    rw [List.cons_append] at hfirst ⊢
    simp [Cursor.reach, hfirst, hothers]

/-- A group around a reluctant repetition remembers the text up to the first place from which the
rest can be matched. -/
theorem ends_group_few {index : Nat} {ps : List Pattern} {text rest before : List Char}
    {captures : List (Nat × Capture)}
    (h : ∀ u v, text = u ++ v → v ≠ [] → ∀ captures',
      (all ps).ends ⟨⟨u.reverse ++ before, v ++ rest⟩, captures'⟩ = []) :
    ∃ others, (all (.group index (few .any) :: ps)).ends ⟨⟨before, text ++ rest⟩, captures⟩ =
      (all ps).ends
        ⟨⟨text.reverse ++ before, rest⟩, (index, ⟨text ++ rest, rest⟩) :: captures⟩ ++ others := by
  rw [ends_all_cons]
  simp only [ends, List.flatMap_map]
  exact flatMap_ends_few fun u v huv hv => h u v huv hv _

@[simp] theorem Capture.text_append (text rest : List Char) :
    (Capture.mk (text ++ rest) rest).text = text := by
  simp [Capture.text]

end Stencil.Pattern
