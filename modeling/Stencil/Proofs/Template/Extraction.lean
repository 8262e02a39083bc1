import Stencil.Proofs.Listing
import Stencil.Proofs.Wire
import Stencil.Template.Extraction

/-!
# The variables of a text

A variable claims its key unless the key is empty or claimed before.  So the variables that are kept
are the first ones of each key among those that are offered (`mem_keys_firstClaims`,
`find?_of_mem_firstClaims`), and offering more behind them takes nothing away
(`firstClaims_append`).  What is offered for a text are its placeholders and, behind them, what a
detector's answer describes (`extract_vars`).
-/

namespace Stencil

open Placeholder

namespace Variable

/-! ## First claims -/

/-- A claim is lost, to no key or to an earlier claim, or it counts. -/
theorem claim_cases (known : List Variable) (v : Variable) :
    (claim known v = known ∧ (v.key = [] ∨ ∃ w ∈ known, w.key = v.key)) ∨
      (claim known v = known ++ [v] ∧ v.key ≠ [] ∧ ∀ w ∈ known, w.key ≠ v.key) := by
  unfold claim
  split
  · rename_i hlost
    refine Or.inl ⟨rfl, ?_⟩
    simpa using hlost
  · rename_i hcounts
    refine Or.inr ⟨rfl, ?_⟩
    simpa using hcounts

/-- The keys that are claimed are listed in turn. -/
theorem keys_claim (known : List Variable) (v : Variable) :
    (claim known v).map key = addNew (fun k => !k.isEmpty) (known.map key) v.key := by
  unfold addNew
  rcases claim_cases known v with ⟨hclaim, hkey | ⟨w, hw, hkey⟩⟩ | ⟨hclaim, hkey, hnew⟩
  · simp [hclaim, hkey]
  · have hthere : v.key ∈ known.map key := hkey ▸ List.mem_map_of_mem hw
    simp [hclaim, hthere]
  · have hthere : v.key ∉ known.map key := by simpa using hnew
    rw [hclaim, if_pos (by simp [hkey, hthere])]
    simp

theorem keys_firstClaims (vs : List Variable) :
    (firstClaims vs).map key = ((vs.map key).filter fun k => !k.isEmpty).eraseDups := by
  have hwalk : ∀ known : List Variable, (vs.foldl claim known).map key =
      (vs.map key).foldl (addNew fun k => !k.isEmpty) (known.map key) := by
    induction vs with
    | nil => exact fun known => rfl
    | cons v vs ih =>
      intro known
      rw [List.foldl_cons, ih, keys_claim]
      rfl
  rw [← foldl_addNew]
  exact hwalk []

/-- Under a key a claim is found that counts, or else an earlier one. -/
theorem find?_claim {k : List Char} (hk : k ≠ []) (known : List Variable) (v : Variable) :
    (claim known v).find? (fun w => w.key = k) = (known ++ [v]).find? (fun w => w.key = k) := by
  rcases claim_cases known v with ⟨hclaim, hlost⟩ | ⟨hclaim, -, -⟩
  · rw [hclaim, List.find?_append]
    by_cases hv : v.key = k
    · -- the claim is lost to an earlier one, which is found
      obtain ⟨w, hw, hkey⟩ : ∃ w ∈ known, w.key = v.key :=
        hlost.resolve_left fun hnil => hk (hv ▸ hnil)
      have hsome : (known.find? fun w => w.key = k).isSome = true := by
        rw [List.find?_isSome]
        exact ⟨w, hw, by simp [hkey, hv]⟩
      rw [Option.or_of_isSome hsome]
    · simp [hv]
  · rw [hclaim]

theorem find?_firstClaims {k : List Char} (hk : k ≠ []) (vs : List Variable) :
    (firstClaims vs).find? (fun w => w.key = k) = vs.find? (fun w => w.key = k) := by
  have hwalk : ∀ known : List Variable, (vs.foldl claim known).find? (fun w => w.key = k) =
      (known ++ vs).find? (fun w => w.key = k) := by
    induction vs with
    | nil => simp
    | cons v vs ih =>
      intro known
      rw [List.foldl_cons, ih, List.find?_append, find?_claim hk, ← List.find?_append,
        List.append_assoc]
      rfl
  exact hwalk []

/-- What has been claimed stays in front. -/
theorem prefix_foldl_claim (vs known : List Variable) : known <+: vs.foldl claim known := by
  induction vs generalizing known with
  | nil => exact List.prefix_rfl
  | cons v vs ih =>
    have hclaim : known <+: claim known v := by
      rcases claim_cases known v with ⟨hclaim, -⟩ | ⟨hclaim, -, -⟩
      · exact ⟨[], by rw [hclaim, List.append_nil]⟩
      · exact ⟨[v], hclaim.symm⟩
    exact hclaim.trans (ih _)

/-- Offering more variables behind takes nothing away. -/
theorem firstClaims_append (vs more : List Variable) :
    firstClaims vs <+: firstClaims (vs ++ more) := by
  unfold firstClaims
  rw [List.foldl_append]
  exact prefix_foldl_claim more _

theorem nodup_keys_firstClaims (vs : List Variable) : ((firstClaims vs).map key).Nodup := by
  rw [keys_firstClaims]
  exact nodup_eraseDups _

/-- The keys that are claimed are those that are offered and not empty. -/
theorem mem_keys_firstClaims {k : List Char} {vs : List Variable} :
    k ∈ (firstClaims vs).map key ↔ k ≠ [] ∧ k ∈ vs.map key := by
  rw [keys_firstClaims, List.mem_eraseDups, List.mem_filter, and_comm]
  simp

theorem key_ne_nil_of_mem_firstClaims {vs : List Variable} {v : Variable}
    (hv : v ∈ firstClaims vs) : v.key ≠ [] :=
  (mem_keys_firstClaims.1 (List.mem_map_of_mem hv)).1

/-- Who has claimed a key was the first to offer it. -/
theorem find?_of_mem_firstClaims {vs : List Variable} {v : Variable} (hv : v ∈ firstClaims vs) :
    vs.find? (fun w => w.key = v.key) = some v := by
  rw [← find?_firstClaims (key_ne_nil_of_mem_firstClaims hv),
    find?_of_nodup (nodup_keys_firstClaims vs) hv]

end Variable

/-! ## What is offered -/

def Placeholder.Candidate.fields (c : Candidate) : Wire.Fields :=
  [("name", .text (String.ofList c.name)), ("raw_pattern", .text (String.ofList c.rawPattern)),
    ("source", .text VariableSource.patternMatch.name)]

/-- Every placeholder has a name. -/
theorem Placeholder.name_ne_nil_of_mem_findAll {catalog : Catalog} {s : List Char} {c : Candidate}
    (h : c ∈ catalog.findAll s) : c.name ≠ [] := by
  obtain ⟨m, -, hfind⟩ := List.mem_flatMap.1 h
  obtain ⟨found, -, hsome⟩ := List.mem_filterMap.1 hfind
  simp only [Matcher.candidate?] at hsome
  split at hsome
  · cases hsome
  · rename_i hname
    cases hsome
    simpa using hname

/-- A placeholder with a name is a variable without any issue. -/
theorem Variable.checkFields_candidate {c : Candidate} (h : c.name ≠ []) :
    Variable.checkFields c.fields = .valid (.ofCandidate c) := by
  have hname : (String.ofList c.name).isEmpty = false := by
    simpa using h
  simp [Variable.checkFields, Variable.checkSource, Variable.ofCandidate, Candidate.fields,
    VariableSource.name, Wire.required, Wire.optional, Wire.find?, Wire.Name.same, Wire.text,
    Wire.nonemptyText, List.lookup_cons, hname]

@[simp] theorem Variable.key_ofCandidate (c : Candidate) :
    (ofCandidate c).key = Placeholder.key c.name := by
  simp [key, ofCandidate]

namespace Extractor

/-- What the detector answers for a text, if there is a detector. -/
def answer? (e : Extractor) (s : List Char) : Option (Except String Value) :=
  e.detector.map fun detect => detect (String.ofList (Text.leading e.maxChars s))

/-- The entries of the detector's answer, which are none unless the answer is a list. -/
def entries (e : Extractor) (s : List Char) : List Value :=
  match e.answer? s with
  | some (.ok (.list items)) => items
  | _ => []

/-- The variables that are offered for a text, in order. -/
def offered (e : Extractor) (s : List Char) : List Variable :=
  e.candidates s ++ (e.entries s).filterMap Variable.ofDetected?

/-- An answer without the entries that are not kept. -/
def pruned (keep : Value → Bool) : Value → Value
  | .list items => .list (items.filter keep)
  | v => v

/-- The extractor whose detector leaves out the entries that are not kept. -/
def keeping (keep : Value → Bool) (e : Extractor) : Extractor :=
  { e with detector := e.detector.map fun detect text => (detect text).map (pruned keep) }

/-- A key is offered by a placeholder or by an entry that describes a variable. -/
theorem mem_keys_offered {e : Extractor} {s k : List Char} :
    k ∈ (e.offered s).map Variable.key ↔
      (∃ c ∈ e.catalog.findAll (normalize s), key c.name = k) ∨
        ∃ entry ∈ e.entries s, ∃ v, Variable.ofDetected? entry = some v ∧ v.key = k := by
  rw [offered, List.map_append, List.mem_append, candidates, List.map_map]
  constructor
  · rintro (h | h)
    · obtain ⟨c, hc, hkey⟩ := List.mem_map.1 h
      exact Or.inl ⟨c, hc, by rw [← hkey, Function.comp_apply, Variable.key_ofCandidate]⟩
    · obtain ⟨v, hv, hkey⟩ := List.mem_map.1 h
      obtain ⟨entry, hentry, hsome⟩ := List.mem_filterMap.1 hv
      exact Or.inr ⟨entry, hentry, v, hsome, hkey⟩
  · rintro (⟨c, hc, hkey⟩ | ⟨entry, hentry, v, hsome, hkey⟩)
    · refine Or.inl (List.mem_map.2 ⟨c, hc, ?_⟩)
      rw [Function.comp_apply, Variable.key_ofCandidate, hkey]
    · exact Or.inr (List.mem_map.2 ⟨v, List.mem_filterMap.2 ⟨entry, hentry, hsome⟩, hkey⟩)

/-- No entry counts unless the detector answers with a list. -/
theorem entries_of_not_list {e : Extractor} {s : List Char}
    (h : ∀ items, e.answer? s ≠ some (.ok (.list items))) : e.entries s = [] := by
  unfold entries
  split
  · rename_i items hitems
    exact absurd hitems (h items)
  · rfl

theorem detected_answer (e : Extractor) (s : List Char) {answer : Except String Value}
    (h : e.answer? s = some answer) :
    detected answer = (e.entries s).filterMap Variable.ofDetected? := by
  unfold entries
  rw [h]
  rcases answer with cause | v
  · rfl
  · cases v <;> rfl

theorem extract_vars (e : Extractor) {s : List Char} (hs : Text.allBlank s = false) :
    (e.extract s).vars = Variable.firstClaims (e.offered s) := by
  cases hdetector : e.detector with
  | none =>
    have hnone : e.entries s = [] := entries_of_not_list fun items => by simp [answer?, hdetector]
    simp [extract, hs, hdetector, offered, hnone]
  | some detect =>
    have hanswer : e.answer? s = some (detect (String.ofList (Text.leading e.maxChars s))) := by
      rw [answer?, hdetector, Option.map_some]
    simp only [extract, hs, hdetector, offered, detected_answer e s hanswer, Bool.false_eq_true,
      if_false]

theorem matchPatterns_eq (e : Extractor) {s : List Char} (hs : Text.allBlank s = false) :
    e.matchPatterns s = Variable.firstClaims (e.candidates s) := by
  simp [matchPatterns, hs]

/-- With one more matcher at the end nothing that was found is lost. -/
theorem matchPatterns_withMatcher (e : Extractor) (s : List Char) {m : Matcher}
    {extended : Catalog} (h : e.catalog.withMatcher m = .ok extended) :
    e.matchPatterns s <+: ({ e with catalog := extended } : Extractor).matchPatterns s := by
  have hmatchers : extended.matchers = e.catalog.matchers ++ [m] := by
    unfold Catalog.withMatcher Catalog.ofMatchers at h
    split at h
    · cases h
      rfl
    · cases h
  have hcandidates : ({ e with catalog := extended } : Extractor).candidates s =
      e.candidates s ++ (m.find (normalize s)).map .ofCandidate := by
    simp [candidates, Catalog.findAll, hmatchers]
  unfold matchPatterns
  split
  · exact List.prefix_rfl
  · rw [hcandidates]
    exact Variable.firstClaims_append _ _

theorem detected_pruned {keep : Value → Bool}
    (h : ∀ entry v, Variable.ofDetected? entry = some v → keep entry = true)
    (answer : Except String Value) : detected (answer.map (pruned keep)) = detected answer := by
  rcases answer with cause | v
  · rfl
  · cases v with
    | list items =>
      show (items.filter keep).filterMap Variable.ofDetected? = items.filterMap Variable.ofDetected?
      rw [List.filterMap_filter]
      refine List.filterMap_congr fun entry _ => ?_
      cases hentry : Variable.ofDetected? entry with
      | none => exact ite_self none
      | some v => rw [h entry v hentry, if_pos rfl]
    | _ => rfl

/-- Entries that describe no variable may be left out. -/
theorem extract_keeping (e : Extractor) (s : List Char) {keep : Value → Bool}
    (h : ∀ entry v, Variable.ofDetected? entry = some v → keep entry = true) :
    (e.keeping keep).extract s = e.extract s := by
  obtain ⟨catalog, detector, maxChars⟩ := e
  cases detector with
  | none => rfl
  | some detect => simp only [extract, keeping, candidates, Option.map_some, detected_pruned h]

/-- **The variables of a text are the first ones of their keys.**  Every placeholder makes a
variable.  The keys that are found are not empty, all different, and those of the placeholders and
of the entries that describe variables; each is found with the variable that is offered first.  The
placeholders' variables stand in front, also of those of a larger catalog, and are all there is
unless the detector answers with a list, of which the entries that describe nothing may be left
out. -/
theorem extract_firstClaims (e : Extractor) {s : List Char} (hs : Text.allBlank s = false) :
    (∀ c ∈ e.catalog.findAll (normalize s),
        Variable.checkFields c.fields = .valid (.ofCandidate c)) ∧
      (∀ v ∈ (e.extract s).vars, v.key ≠ []) ∧
      ((e.extract s).vars.map Variable.key).Nodup ∧
      (∀ k, k ≠ [] → (k ∈ (e.extract s).vars.map Variable.key ↔
        (∃ c ∈ e.catalog.findAll (normalize s), key c.name = k) ∨
          ∃ entry ∈ e.entries s, ∃ v, Variable.ofDetected? entry = some v ∧ v.key = k)) ∧
      (∀ v ∈ (e.extract s).vars, (e.offered s).find? (fun w => w.key = v.key) = some v) ∧
      e.matchPatterns s <+: (e.extract s).vars ∧
      (∀ m extended, e.catalog.withMatcher m = .ok extended →
        e.matchPatterns s <+: ({ e with catalog := extended } : Extractor).matchPatterns s) ∧
      ((∀ items, e.answer? s ≠ some (.ok (.list items))) →
        (e.extract s).vars = e.matchPatterns s) ∧
      ∀ keep : Value → Bool, (∀ entry v, Variable.ofDetected? entry = some v → keep entry = true) →
        (e.keeping keep).extract s = e.extract s := by
  have hvars := extract_vars e hs
  have hpatterns := matchPatterns_eq e hs
  refine ⟨fun c hc => Variable.checkFields_candidate (name_ne_nil_of_mem_findAll hc),
    ?_, ?_, ?_, ?_, ?_, fun m extended h => matchPatterns_withMatcher e s h,
    ?_, fun keep h => extract_keeping e s h⟩
  · intro v hv
    rw [hvars] at hv
    exact Variable.key_ne_nil_of_mem_firstClaims hv
  · rw [hvars]
    exact Variable.nodup_keys_firstClaims _
  · intro k hk
    rw [hvars, Variable.mem_keys_firstClaims, and_iff_right hk, mem_keys_offered]
  · intro v hv
    rw [hvars] at hv
    exact Variable.find?_of_mem_firstClaims hv
  · rw [hvars, hpatterns]
    exact Variable.firstClaims_append _ _
  · intro h
    rw [hvars, hpatterns, offered, entries_of_not_list h, List.filterMap_nil, List.append_nil]

/-- A letter that names the client twice. -/
def letter : List Char :=
  "Dear \x7b\x7bclient name\x7d\x7d, [OUR_NAME] greets __client_name__.".toList

/-- An extractor whose detector reports a text, a known name, a name without a key and a new
name. -/
def letterExtractor : Extractor where
  detector := some fun _ => .ok (.list
    [.text "just a text", .object [("name", .text "Client-Name")], .object [("name", .text "--")],
      .object [("name", .text "start date"), ("source", .text "letter")]])

/-- Names after a dollar sign. -/
def dollarMatcher : Matcher :=
  ⟨"dollar", Pattern.all [Pattern.exactly ['$'], .group 1 (Pattern.many1 .asciiAlnum)]⟩

theorem extract_firstClaims_letter :
    (letterExtractor.extract letter).vars.map (·.name) = ["client_name", "OUR_NAME", "start date"] ∧
      ((letterExtractor.extract letter).vars.map Variable.key).Nodup ∧
      "startdate".toList ∈ (letterExtractor.extract letter).vars.map Variable.key ∧
      letterExtractor.matchPatterns letter <+: (letterExtractor.extract letter).vars ∧
      (∃ extended, letterExtractor.catalog.withMatcher dollarMatcher = .ok extended ∧
        letterExtractor.matchPatterns letter <+:
          ({ letterExtractor with catalog := extended } : Extractor).matchPatterns letter) ∧
      (({ detector := some fun _ => .error "timeout" } : Extractor).extract letter).vars =
        letterExtractor.matchPatterns letter ∧
      (letterExtractor.keeping fun entry => (Variable.ofDetected? entry).isSome).extract letter =
        letterExtractor.extract letter := by
  have hletter : Text.allBlank letter = false := by decide
  obtain ⟨-, -, hnodup, hkeys, -, hprefix, hextended, -, hkeeping⟩ :=
    extract_firstClaims letterExtractor hletter
  obtain ⟨-, -, -, -, -, -, -, hfailing, -⟩ :=
    extract_firstClaims { detector := some fun _ => .error "timeout" } hletter
  refine ⟨by decide +kernel, hnodup, ?_, hprefix, ?_, hfailing (by simp [answer?]),
    hkeeping _ fun entry v h => by rw [h]; rfl⟩
  · refine (hkeys _ (by decide)).2 (Or.inr ⟨.object [("name", .text "start date"), ("source",
      .text "letter")], by simp [entries, answer?, letterExtractor], _, rfl, by decide⟩)
  · have hnames : ((letterExtractor.catalog.matchers ++ [dollarMatcher]).map (·.name)).Nodup := by
      decide
    have hcatalog : letterExtractor.catalog.withMatcher dollarMatcher = .ok ⟨_, hnames⟩ := by
      unfold Catalog.withMatcher Catalog.ofMatchers
      exact dif_pos hnames
    exact ⟨_, hcatalog, hextended dollarMatcher _ hcatalog⟩

end Extractor

end Stencil
