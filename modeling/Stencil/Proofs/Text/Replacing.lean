import Mathlib.Data.List.Induction
import Mathlib.Data.List.Nodup
import Mathlib.Data.List.Pairwise
import Stencil.Text.Literal

/-!
# Several replacements in one text

Texts that are replaced one after the other may as well be replaced all at once (`pieces`), in one
walk from left to right, on two conditions (`Independent`).  In the text, no occurrence of one of
them may share a place with an occurrence of another (`Apart`).  And where a text that is still to
be replaced occurs, it must stand there as it stood from the start, and not be made up of what was
put in and what surrounds it (`OnlyPrinted`).  Then the order of the replacements does not matter
(`Independent.foldl_apply`).
-/

namespace Stencil.Text

/-- A text that is to be replaced and the text that is put in its place. -/
structure Swap where
  part : List Char
  new : List Char
  deriving DecidableEq

def Swap.apply (g : Swap) (s : List Char) : List Char := replaceAll g.part g.new s

/-- A piece of a text in which parts are replaced: a character that was there, or a text that was
put in the place of a part. -/
inductive Piece
  | printed (c : Char)
  | replaced (new : List Char)
  deriving DecidableEq

namespace Piece

def text : Piece → List Char
  | printed c => [c]
  | replaced new => new

/-- Replaces the occurrences of a part among the characters that were there, of which `skip` more
characters belong to the last one. -/
def fillFrom (g : Swap) : Nat → List Piece → List Piece
  | _, [] => []
  | skip + 1, _ :: rest => fillFrom g skip rest
  | 0, p :: rest =>
    if (g.part.map printed).isPrefixOf (p :: rest) then
      replaced g.new :: fillFrom g (g.part.length - 1) rest
    else p :: fillFrom g 0 rest

end Piece

open Piece

/-- The first of several parts that the text begins with. -/
def beginning? (swaps : List Swap) (s : List Char) : Option Swap :=
  swaps.find? fun g => g.part.isPrefixOf s

/-- The pieces of a text in which several parts are replaced at once, the first one that fits at
each place; `skip` more characters belong to the last one. -/
def piecesFrom (swaps : List Swap) : Nat → List Char → List Piece
  | _, [] => []
  | skip + 1, _ :: rest => piecesFrom swaps skip rest
  | 0, c :: rest =>
    match beginning? swaps (c :: rest) with
    | some g => .replaced g.new :: piecesFrom swaps (g.part.length - 1) rest
    | none => .printed c :: piecesFrom swaps 0 rest

/-- The pieces of a text in which several parts are replaced at once. -/
def pieces (swaps : List Swap) (s : List Char) : List Piece := piecesFrom swaps 0 s

/-- No occurrence of the one part in the text shares a place with one of the other. -/
def Apart (s part part' : List Char) : Prop :=
  ∀ n < s.length, ∀ m < s.length, part <+: s.drop n → part' <+: s.drop m →
    n + part.length ≤ m ∨ m + part'.length ≤ n

instance (s part part' : List Char) : Decidable (Apart s part part') :=
  inferInstanceAs (Decidable (∀ n < s.length, ∀ m < s.length, part <+: s.drop n →
    part' <+: s.drop m → n + part.length ≤ m ∨ m + part'.length ≤ n))

/-- Wherever the part occurs in what the pieces read, it is made up of characters that were there,
side by side. -/
def OnlyPrinted (part : List Char) (ps : List Piece) : Prop :=
  ∀ n ≤ (ps.flatMap text).length, part <+: (ps.flatMap text).drop n →
    ∃ k ≤ ps.length, ((ps.take k).flatMap text).length = n ∧ part.map printed <+: ps.drop k

instance (part : List Char) (ps : List Piece) : Decidable (OnlyPrinted part ps) :=
  inferInstanceAs (Decidable (∀ n ≤ (ps.flatMap text).length, part <+: (ps.flatMap text).drop n →
    ∃ k ≤ ps.length, ((ps.take k).flatMap text).length = n ∧ part.map printed <+: ps.drop k))

theorem Apart.symm {s part part' : List Char} (h : Apart s part part') : Apart s part' part :=
  fun n hn m hm hpart hpart' => (h m hm n hn hpart' hpart).symm

theorem Apart.of_cons {c : Char} {s part part' : List Char} (h : Apart (c :: s) part part') :
    Apart s part part' := by
  intro n hn m hm hpart hpart'
  have := h (n + 1) (Nat.succ_lt_succ hn) (m + 1) (Nat.succ_lt_succ hm) hpart hpart'
  omega

/-! ## One part among pieces -/

/-- A text in which no occurrence begins stays. -/
theorem replaceFrom_append {part new a b : List Char}
    (h : ∀ n < a.length, ¬ part <+: (a ++ b).drop n) :
    replaceFrom part new 0 (a ++ b) = a ++ replaceFrom part new 0 b := by
  induction a with
  | nil => rfl
  | cons c a ih =>
    have hc : ¬ part.isPrefixOf (c :: (a ++ b)) = true := fun hpart =>
      h 0 (Nat.succ_pos _) (List.isPrefixOf_iff_prefix.1 hpart)
    rw [List.cons_append, replaceFrom, if_neg hc,
      ih fun n hn => h (n + 1) (Nat.succ_lt_succ hn), List.cons_append]

theorem not_prefix_replaced {part : List Char} (hne : part ≠ []) {ps : List Piece}
    (new : List Char) : ¬ part.map printed <+: replaced new :: ps := by
  obtain ⟨c, rest, rfl⟩ := List.exists_cons_of_ne_nil hne
  exact fun h => absurd (List.cons_prefix_cons.1 h).1 nofun

namespace OnlyPrinted

variable {part : List Char} {ps : List Piece}

theorem prefix_of_printed {c : Char} (h : OnlyPrinted part (printed c :: ps))
    (hpart : part <+: c :: ps.flatMap text) : part.map printed <+: printed c :: ps := by
  obtain ⟨k, -, hlength, hprinted⟩ := h 0 (Nat.zero_le _) hpart
  cases k with
  | zero => exact hprinted
  | succ k => simp [text] at hlength

variable (hne : part ≠ [])

include hne

theorem of_cons {p : Piece} (h : OnlyPrinted part (p :: ps)) : OnlyPrinted part ps := by
  intro n hn hpart
  obtain ⟨k, hk, hlength, hprinted⟩ := h (p.text.length + n)
    (by simpa [List.flatMap_cons] using hn)
    (by rw [List.flatMap_cons, List.drop_append, List.drop_of_length_le (Nat.le_add_right ..)]
        simpa using hpart)
  cases k with
  | zero =>
    -- nothing is in front of the first piece, so it reads nothing
    cases p with
    | printed c => simp [text] at hlength; omega
    | replaced new => exact absurd hprinted (not_prefix_replaced hne new)
  | succ k =>
    refine ⟨k, Nat.le_of_succ_le_succ hk, ?_, hprinted⟩
    rw [List.take_succ_cons, List.flatMap_cons, List.length_append] at hlength
    omega

theorem not_prefix_of_replaced {new : List Char} (h : OnlyPrinted part (replaced new :: ps)) :
    ∀ n < new.length, ¬ part <+: (new ++ ps.flatMap text).drop n := by
  intro n hn hpart
  have hread : (replaced new :: ps).flatMap text = new ++ ps.flatMap text := rfl
  obtain ⟨k, -, hlength, hprinted⟩ := h n
    (by rw [hread, List.length_append]; omega) (by rw [hread]; exact hpart)
  cases k with
  | zero => exact not_prefix_replaced hne new hprinted
  | succ k =>
    rw [List.take_succ_cons, List.flatMap_cons, List.length_append] at hlength
    have : (replaced new).text.length = new.length := rfl
    omega

end OnlyPrinted

theorem prefix_text_of_printed {w : List Char} {ps : List Piece} (h : w.map printed <+: ps) :
    w <+: ps.flatMap text := by
  obtain ⟨rest, rfl⟩ := h
  have hread : (w.map printed).flatMap text = w := by
    rw [List.flatMap_map]
    exact List.flatMap_singleton' w
  exact ⟨rest.flatMap text, by rw [List.flatMap_append, hread]⟩

/-- Where a part occurs only in print, replacing it among the pieces replaces it in what they
read. -/
theorem text_fillFrom {g : Swap} (hne : g.part ≠ []) {ps : List Piece}
    (h : OnlyPrinted g.part ps) {w : List Char} (hw : w.map printed <+: ps) :
    (fillFrom g w.length ps).flatMap text =
      replaceFrom g.part g.new w.length (ps.flatMap text) := by
  induction ps generalizing w with
  | nil => simp [fillFrom, replaceFrom]
  | cons p ps ih =>
    have hps := h.of_cons hne
    have hfree := ih hps (w := []) List.nil_prefix
    cases w with
    | cons c w =>
      obtain ⟨rfl, hrest⟩ := List.cons_prefix_cons.1 hw
      exact ih hps hrest
    | nil =>
      cases p with
      | printed c =>
        have hread (qs : List Piece) : (printed c :: qs).flatMap text = c :: qs.flatMap text := rfl
        rw [hread, List.length_nil, fillFrom, replaceFrom]
        by_cases hpart : g.part.map printed <+: printed c :: ps
        · obtain ⟨first, rest, hcons⟩ := List.exists_cons_of_ne_nil hne
          have hlength : g.part.length - 1 = rest.length := by rw [hcons]; rfl
          have hrest : rest.map printed <+: ps := by
            have hprinted := hpart
            rw [hcons] at hprinted
            exact (List.cons_prefix_cons.1 hprinted).2
          have hbegins : g.part <+: c :: ps.flatMap text := prefix_text_of_printed hpart
          rw [if_pos (List.isPrefixOf_iff_prefix.2 hpart),
            if_pos (List.isPrefixOf_iff_prefix.2 hbegins), hlength, List.flatMap_cons, ih hps hrest]
          rfl
        · have hnone : ¬ g.part <+: c :: ps.flatMap text := fun hp =>
            hpart (h.prefix_of_printed hp)
          rw [if_neg (mt List.isPrefixOf_iff_prefix.1 hpart),
            if_neg (mt List.isPrefixOf_iff_prefix.1 hnone), hread]
          exact congrArg (c :: ·) hfree
      | replaced new =>
        rw [List.length_nil, fillFrom,
          if_neg (mt List.isPrefixOf_iff_prefix.1 (not_prefix_replaced hne new))]
        exact (congrArg (new ++ ·) hfree).trans
          (replaceFrom_append (h.not_prefix_of_replaced hne)).symm

/-! ## One more part -/

section

variable {swaps : List Swap} {c : Char} {s : List Char}

theorem piecesFrom_of_some {g : Swap} (h : beginning? swaps (c :: s) = some g) :
    piecesFrom swaps 0 (c :: s) =
      replaced g.new :: piecesFrom swaps (g.part.length - 1) s := by
  rw [piecesFrom, h]

theorem piecesFrom_of_none (h : beginning? swaps (c :: s) = none) :
    piecesFrom swaps 0 (c :: s) = printed c :: piecesFrom swaps 0 s := by
  rw [piecesFrom, h]

theorem prefix_of_beginning? {g : Swap} (h : beginning? swaps s = some g) :
    g ∈ swaps ∧ g.part <+: s := by
  unfold beginning? at h
  have hfits : g.part.isPrefixOf s = true := by simpa using List.find?_some h
  exact ⟨List.mem_of_find?_eq_some h, List.isPrefixOf_iff_prefix.1 hfits⟩

/-- Characters at which no part begins are printed. -/
theorem printed_prefix_pieces {w s : List Char}
    (hfree : ∀ n < w.length, beginning? swaps (s.drop n) = none) (h : w <+: s) :
    w.map printed <+: piecesFrom swaps 0 s := by
  induction w generalizing s with
  | nil => exact List.nil_prefix
  | cons c w ih =>
    obtain ⟨rest, rfl⟩ := h
    have hnone : beginning? swaps (c :: (w ++ rest)) = none := hfree 0 (Nat.succ_pos _)
    rw [List.cons_append, piecesFrom_of_none hnone]
    refine List.cons_prefix_cons.2 ⟨rfl, ih (fun n hn => ?_) (List.prefix_append w rest)⟩
    exact hfree (n + 1) (Nat.succ_lt_succ hn)

/-- What is printed side by side stands in the text. -/
theorem prefix_of_printed_pieces {w s : List Char} (h : w.map printed <+: piecesFrom swaps 0 s) :
    w <+: s := by
  induction w generalizing s with
  | nil => exact List.nil_prefix
  | cons c w ih =>
    cases s with
    | nil => exact absurd (List.prefix_nil.1 h) nofun
    | cons c' s =>
      cases hbegin : beginning? swaps (c' :: s) with
      | some g =>
        rw [piecesFrom_of_some hbegin] at h
        exact absurd (List.cons_prefix_cons.1 h).1 nofun
      | none =>
        rw [piecesFrom_of_none hbegin] at h
        obtain ⟨hc, hrest⟩ := List.cons_prefix_cons.1 h
        cases hc
        exact List.cons_prefix_cons.2 ⟨rfl, ih hrest⟩

variable (hparts : ∀ h ∈ swaps, h.part ≠ []) {g : Swap}

include hparts in
/-- Where a part stands that is apart from the others, none of them begins. -/
theorem beginning?_of_apart (hapart : ∀ h ∈ swaps, Apart s h.part g.part) (hg : g.part <+: s) :
    ∀ n < g.part.length, beginning? swaps (s.drop n) = none := by
  intro n hn
  refine List.find?_eq_none.2 fun h hh hpart => ?_
  have hlength := hg.length_le
  have hpos := List.length_pos_iff.2 (hparts h hh)
  have := hapart h hh n (by omega) 0 (by omega) (List.isPrefixOf_iff_prefix.1 hpart) hg
  omega

include hparts in
/-- Replacing one more part among the pieces is replacing it along with the others.  The walk is
inside an occurrence of the one (`more`) or of another (`skip`), or in between. -/
theorem fillFrom_piecesFrom (hne : g.part ≠ []) (hapart : ∀ h ∈ swaps, Apart s h.part g.part)
    {skip more : Nat} (hone : skip = 0 ∨ more = 0)
    (hfree : ∀ n < more, beginning? swaps (s.drop n) = none) :
    fillFrom g more (piecesFrom swaps skip s) = piecesFrom (swaps ++ [g]) (skip + more) s := by
  induction s generalizing skip more with
  | nil => simp [piecesFrom, fillFrom]
  | cons c s ih =>
    have hrest : ∀ h ∈ swaps, Apart s h.part g.part := fun h hh => (hapart h hh).of_cons
    have hzero : ∀ n < 0, beginning? swaps (s.drop n) = none := fun n hn => absurd hn n.not_lt_zero
    cases skip with
    | succ skip =>
      obtain rfl : more = 0 := hone.resolve_left (Nat.succ_ne_zero skip)
      exact ih hrest (.inr rfl) hzero
    | zero =>
      cases more with
      | succ more =>
        rw [piecesFrom_of_none (hfree 0 (Nat.succ_pos _)), Nat.zero_add, fillFrom, piecesFrom,
          ih hrest (.inl rfl) fun n hn => hfree (n + 1) (Nat.succ_lt_succ hn), Nat.zero_add]
      | zero =>
        have hbegin : beginning? (swaps ++ [g]) (c :: s) =
            (beginning? swaps (c :: s)).or (beginning? [g] (c :: s)) := List.find?_append
        cases hold : beginning? swaps (c :: s) with
        | some h =>
          rw [hold, Option.some_or] at hbegin
          rw [piecesFrom_of_some hold, Nat.zero_add, piecesFrom_of_some hbegin, fillFrom,
            if_neg (mt List.isPrefixOf_iff_prefix.1 (not_prefix_replaced hne h.new)),
            ih hrest (.inr rfl) hzero]
          rfl
        | none =>
          rw [hold, Option.none_or] at hbegin
          by_cases hg : g.part <+: c :: s
          · have hnew : beginning? [g] (c :: s) = some g := by simpa [beginning?] using hg
            have hnone := beginning?_of_apart hparts hapart hg
            have hprinted := printed_prefix_pieces hnone hg
            rw [piecesFrom_of_none hold] at hprinted ⊢
            rw [Nat.zero_add, piecesFrom_of_some (hbegin.trans hnew), fillFrom,
              if_pos (List.isPrefixOf_iff_prefix.2 hprinted),
              ih hrest (.inl rfl) fun n hn => hnone (n + 1) (by omega), Nat.zero_add]
          · have hnew : beginning? [g] (c :: s) = none := by simpa [beginning?] using hg
            have hprinted : ¬ g.part.map printed <+: printed c :: piecesFrom swaps 0 s :=
              fun hp => hg (prefix_of_printed_pieces (piecesFrom_of_none hold ▸ hp))
            rw [piecesFrom_of_none hold, Nat.zero_add, piecesFrom_of_none (hbegin.trans hnew),
              fillFrom, if_neg (mt List.isPrefixOf_iff_prefix.1 hprinted),
              ih hrest (.inl rfl) hzero]

end

/-! ## Any order -/

section

variable {swaps swaps' : List Swap} {s : List Char}

theorem pieces_nil (s : List Char) : pieces [] s = s.map printed := by
  unfold pieces
  induction s with
  | nil => rfl
  | cons c s ih => exact congrArg (printed c :: ·) ih

theorem piecesFrom_congr
    (h : ∀ n < s.length, beginning? swaps (s.drop n) = beginning? swaps' (s.drop n)) (skip : Nat) :
    piecesFrom swaps skip s = piecesFrom swaps' skip s := by
  induction s generalizing skip with
  | nil => simp [piecesFrom]
  | cons c s ih =>
    have hrest := ih fun n hn => h (n + 1) (Nat.succ_lt_succ hn)
    cases skip with
    | succ skip => exact hrest skip
    | zero =>
      have hbegin : beginning? swaps (c :: s) = beginning? swaps' (c :: s) := h 0 (Nat.succ_pos _)
      cases hnew : beginning? swaps' (c :: s) with
      | some g => rw [piecesFrom_of_some (hbegin.trans hnew), piecesFrom_of_some hnew, hrest]
      | none => rw [piecesFrom_of_none (hbegin.trans hnew), piecesFrom_of_none hnew, hrest]

/-- Of parts that are apart, the order of the list does not matter, for one at most begins at each
place. -/
theorem pieces_perm (hparts : ∀ g ∈ swaps, g.part ≠ [])
    (hapart : swaps.Pairwise fun g h => Apart s g.part h.part) (hperm : swaps.Perm swaps') :
    pieces swaps s = pieces swaps' s := by
  refine piecesFrom_congr (fun n hn => ?_) 0
  have honly {g h : Swap} (hg : g ∈ swaps) (hh : h ∈ swaps) (hgn : g.part <+: s.drop n)
      (hhn : h.part <+: s.drop n) : g = h := by
    by_contra hne
    have : Std.Symm fun g h : Swap => Apart s g.part h.part := ⟨fun _ _ => Apart.symm⟩
    have hsep := hapart.forall hg hh hne n hn n hn hgn hhn
    have hgpos := List.length_pos_iff.2 (hparts g hg)
    have hhpos := List.length_pos_iff.2 (hparts h hh)
    omega
  cases hnew : beginning? swaps' (s.drop n) with
  | none =>
    refine List.find?_eq_none.2 fun g hg => ?_
    exact List.find?_eq_none.1 hnew g (hperm.mem_iff.1 hg)
  | some h =>
    obtain ⟨hh, hhn⟩ := prefix_of_beginning? hnew
    cases hold : beginning? swaps (s.drop n) with
    | none =>
      have hnone := List.find?_eq_none.1 hold h (hperm.mem_iff.2 hh)
      exact absurd (List.isPrefixOf_iff_prefix.2 hhn) hnone
    | some g =>
      obtain ⟨hg, hgn⟩ := prefix_of_beginning? hold
      rw [honly hg (hperm.mem_iff.2 hh) hgn hhn]

end

section

variable {α : Type}

/-- The replacements do not touch each other: no two of the parts share a place in the text, and
whichever replacements have been made, a part of another one occurs only where the text has it. -/
structure Independent (swap : α → Swap) (given : List α) (s : List Char) : Prop where
  apart : given.Pairwise fun a b => Apart s (swap a).part (swap b).part
  onlyPrinted : ∀ filled : List α, filled.Sublist given → ∀ a ∈ given, a ∉ filled →
    OnlyPrinted (swap a).part (pieces (filled.map swap) s)

variable {swap : α → Swap} {given : List α} {s : List Char} (h : Independent swap given s)
  (hparts : ∀ a ∈ given, (swap a).part ≠ []) (hnodup : given.Nodup)

namespace Independent

include h hparts in
theorem pieces_perm {filled filled' : List α} (hsub : filled.Sublist given)
    (hperm : filled.Perm filled') :
    pieces (filled.map swap) s = pieces (filled'.map swap) s := by
  refine Text.pieces_perm ?_ (List.pairwise_map.2 (h.apart.sublist hsub)) (hperm.map swap)
  intro g hg
  obtain ⟨a, ha, rfl⟩ := List.mem_map.1 hg
  exact hparts a (hsub.subset ha)

include h hparts hnodup

/-- One more replacement, after others that were made all at once. -/
theorem apply_pieces [DecidableEq α] {filled : List α} {a : α} (hsub : filled ++ [a] ⊆ given)
    (hnew : (filled ++ [a]).Nodup) :
    (swap a).apply ((pieces (filled.map swap) s).flatMap text) =
      (pieces ((filled ++ [a]).map swap) s).flatMap text := by
  have ha : a ∈ given := hsub (List.mem_append_right filled List.mem_cons_self)
  have hsubset : filled ⊆ given := fun b hb => hsub (List.mem_append_left [a] hb)
  obtain ⟨hfilled, -, hne⟩ := List.nodup_append.1 hnew
  have hmem : a ∉ filled := fun hmem => hne a hmem a List.mem_cons_self rfl
  have honly : OnlyPrinted (swap a).part (pieces (filled.map swap) s) := by
    have hselected : (given.filter (· ∈ filled)).Perm filled := by
      refine (List.perm_ext_iff_of_nodup (hnodup.filter _) hfilled).2 fun b => ?_
      simpa using fun hb : b ∈ filled => hsubset hb
    rw [← h.pieces_perm hparts List.filter_sublist hselected]
    exact h.onlyPrinted _ List.filter_sublist a ha fun hsel => hmem (hselected.mem_iff.1 hsel)
  have hothers : ∀ g ∈ filled.map swap, g.part ≠ [] ∧ Apart s g.part (swap a).part := by
    intro g hg
    obtain ⟨b, hb, rfl⟩ := List.mem_map.1 hg
    have : Std.Symm fun a b : α => Apart s (swap a).part (swap b).part := ⟨fun _ _ => Apart.symm⟩
    exact ⟨hparts b (hsubset hb),
      h.apart.forall (hsubset hb) ha fun heq => hmem (heq ▸ hb)⟩
  have hfill : fillFrom (swap a) 0 (pieces (filled.map swap) s) =
      pieces (filled.map swap ++ [swap a]) s :=
    fillFrom_piecesFrom (fun g hg => (hothers g hg).1) (hparts a ha)
      (fun g hg => (hothers g hg).2) (.inl rfl) fun n hn => absurd hn n.not_lt_zero
  rw [List.map_append, List.map_singleton, ← hfill]
  exact (text_fillFrom (hparts a ha) honly (w := []) List.nil_prefix).symm

/-- Independent replacements come to the same in any order: all of them are made at once. -/
theorem foldl_apply [DecidableEq α] {order : List α} (hperm : order.Perm given) :
    order.foldl (fun s a => (swap a).apply s) s = (pieces (given.map swap) s).flatMap text := by
  have hwalk (filled : List α) (hfilled : filled <+: order) :
      filled.foldl (fun s a => (swap a).apply s) s =
        (pieces (filled.map swap) s).flatMap text := by
    induction filled using List.reverseRecOn with
    | nil =>
      rw [List.map_nil, pieces_nil, List.flatMap_map]
      exact (List.flatMap_singleton' s).symm
    | append_singleton filled a ih =>
      have hsub : filled ++ [a] ⊆ given := fun b hb => hperm.subset (hfilled.subset hb)
      have hnew : (filled ++ [a]).Nodup := (hperm.nodup_iff.2 hnodup).sublist hfilled.sublist
      rw [List.foldl_append, ih ((List.prefix_append filled [a]).trans hfilled)]
      exact h.apply_pieces hparts hnodup hsub hnew
  rw [h.pieces_perm hparts (List.Sublist.refl given) hperm.symm]
  exact hwalk order List.prefix_rfl

end Independent

end

end Stencil.Text
