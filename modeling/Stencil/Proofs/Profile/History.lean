import Stencil.Proofs.Profile.Merging
import Stencil.Proofs.Profile.Usage

/-!
# A profile is the replay of its history

Data is stored in a profile and what was stored is merged, in any order (`Call`, `replay`).  A call
records one table of fields in one category, is refused, or changes the personal information only
(`after_cases`); what recording and merging keep, any calls keep (`replay_keeps`).  So what a
profile holds goes back to its snapshots (`Traced`); without merging, this is so for the personal
information too (`replay_agrees`).
-/

namespace Stencil

/-- Data as it is handed in to be stored; an object has a field of a name once. -/
structure Payload where
  value : Value
  names_nodup : ∀ fields, value = .object fields → (Table.keys fields).Nodup

def Payload.field (name : String) (v : Value) : Payload where
  value := .object [(name, v)]
  names_nodup := by
    rintro _ ⟨⟩
    exact List.nodup_cons.2 ⟨List.not_mem_nil, List.nodup_nil⟩

theorem Snapshot.keys_fieldTexts (fields : Table Value) :
    (fieldTexts fields).keys = fields.keys := by
  rw [fieldTexts, Table.keys, Table.keys, List.map_map]
  rfl

theorem Category.name_inj {c c' : Category} : c.name = c'.name ↔ c = c' := by
  cases c <;> cases c' <;> decide

namespace Profile

inductive Call
  | store (data : Payload) (category : Value) (timestamp : Option Timestamp)
  | deduplicate (t : Threshold)

/-- The profile after a call.  A call that is refused leaves it as it was. -/
def after (p : Profile) : Call → Profile
  | .store data category timestamp =>
    match p.store data.value category timestamp with
    | .ok stored => stored
    | .error _ => p
  | .deduplicate t => (p.deduplicate t).1

def replay (p : Profile) (calls : List Call) : Profile := calls.foldl after p

/-- The snapshot that a call leaves: to store some fields in one of the categories leaves one. -/
def Call.snapshot? : Call → Option Snapshot
  | .store ⟨.object fields, _⟩ category timestamp =>
    if fields.isEmpty then none
    else (Category.ofValue category).toOption.map fun c =>
      ⟨Snapshot.fieldTexts fields, c.name, timestamp⟩
  | _ => none

def ofCategory (c : Category) (snapshots : List Snapshot) : List Snapshot :=
  snapshots.filter fun s => s.category = c.name

/-- The fields of the snapshots, those of a later one over those of an earlier one. -/
def overlay (snapshots : List Snapshot) : Table String :=
  snapshots.foldl (fun t s => t.override s.fields) []

theorem ofCategory_append (c : Category) (snapshots : List Snapshot) (fields : Table String)
    (c' : Category) (timestamp : Option Timestamp) :
    ofCategory c (snapshots ++ [⟨fields, c'.name, timestamp⟩]) =
      if c' = c then ofCategory c snapshots ++ [⟨fields, c'.name, timestamp⟩]
      else ofCategory c snapshots := by
  rw [ofCategory, List.filter_append, ofCategory]
  by_cases hc : c' = c
  · simp [hc]
  · simp [hc, Category.name_inj]

theorem overlay_append (snapshots : List Snapshot) (s : Snapshot) :
    overlay (snapshots ++ [s]) = (overlay snapshots).override s.fields := by
  rw [overlay, List.foldl_append]
  rfl

/-! ## One call -/

/-- Storing succeeds if it leaves a snapshot, and records the fields of that snapshot. -/
theorem store_cases (p : Profile) (data : Payload) (category : Value)
    (timestamp : Option Timestamp) :
    (∃ c fields, Category.ofValue category = .ok c ∧ fields.keys.Nodup ∧
      (Call.store data category timestamp).snapshot? = some ⟨fields, c.name, timestamp⟩ ∧
      p.store data.value category timestamp = .ok (p.record c timestamp fields)) ∨
    ((Call.store data category timestamp).snapshot? = none ∧
      ∃ e, p.store data.value category timestamp = .error e) := by
  obtain ⟨value, hnodup⟩ := data
  cases value with
  | object fields =>
    cases fields with
    | nil => exact .inr ⟨rfl, _, rfl⟩
    | cons e fields =>
      cases hcategory : Category.ofValue category with
      | ok c =>
        refine .inl ⟨c, Snapshot.fieldTexts (e :: fields), rfl, ?_, ?_, ?_⟩
        · rw [Snapshot.keys_fieldTexts]
          exact hnodup _ rfl
        · simp [Call.snapshot?, hcategory, Except.toOption]
        · simp only [store, hcategory]
          rfl
      | error cause =>
        refine .inr ⟨?_, cause, ?_⟩
        · simp [Call.snapshot?, hcategory, Except.toOption]
        · simp only [store, hcategory]
          rfl
  | _ => exact .inr ⟨rfl, _, rfl⟩

/-- Merging changes nothing but the personal information. -/
theorem deduplicate_fst (p : Profile) (t : Threshold) :
    ∃ info, (p.deduplicate t).1 = { p with personalInfo := info } :=
  ⟨_, congrArg Prod.fst (deduplicate_eq p t)⟩

/-- What a call can do: record fields and leave a snapshot, nothing, or merge. -/
theorem after_cases (p : Profile) (call : Call) :
    (∃ c timestamp fields, fields.keys.Nodup ∧
      call.snapshot? = some ⟨fields, c.name, timestamp⟩ ∧
      p.after call = p.record c timestamp fields) ∨
    (call.snapshot? = none ∧ p.after call = p) ∨
    ∃ t, call = .deduplicate t ∧ p.after call = (p.deduplicate t).1 := by
  cases call with
  | store data category timestamp =>
    rcases store_cases p data category timestamp with
      ⟨c, fields, -, hnodup, hsnapshot, hstore⟩ | ⟨hsnapshot, cause, hstore⟩
    · exact .inl ⟨c, timestamp, fields, hnodup, hsnapshot, by rw [after, hstore]⟩
    · exact .inr (.inl ⟨hsnapshot, by rw [after, hstore]⟩)
  | deduplicate t => exact .inr (.inr ⟨t, rfl, rfl⟩)

theorem snapshots_after (p : Profile) (call : Call) :
    (p.after call).snapshots = p.snapshots ++ call.snapshot?.toList := by
  rcases after_cases p call with
    ⟨c, timestamp, fields, -, hsnapshot, hafter⟩ | ⟨hsnapshot, hafter⟩ | ⟨t, rfl, hafter⟩
  · rw [hafter, hsnapshot]
    rfl
  · rw [hafter, hsnapshot, Option.toList_none, List.append_nil]
  · obtain ⟨info, hinfo⟩ := p.deduplicate_fst t
    rw [hafter, hinfo]
    exact (List.append_nil _).symm

/-- The snapshots are those that the calls left, in order. -/
theorem snapshots_replay (p : Profile) (calls : List Call) :
    (p.replay calls).snapshots = p.snapshots ++ calls.filterMap Call.snapshot? := by
  induction calls generalizing p with
  | nil => simp [replay]
  | cons call calls ih =>
    have hcons : p.replay (call :: calls) = (p.after call).replay calls := rfl
    rw [hcons, ih, snapshots_after, List.filterMap_cons, List.append_assoc]
    cases call.snapshot? <;> rfl

/-! ## What every call keeps -/

/-- What recording fields keeps, and merging if that is called, any calls keep. -/
theorem replay_keeps {motive : Profile → Prop} {calls : List Call}
    (hrecord : ∀ p c timestamp fields, (Table.keys fields).Nodup →
      motive p → motive (record p c timestamp fields))
    (hmerge : ∀ p t, .deduplicate t ∈ calls → motive p → motive (p.deduplicate t).1)
    {p : Profile} (h : motive p) : motive (p.replay calls) := by
  induction calls generalizing p with
  | nil => exact h
  | cons call calls ih =>
    have hafter : motive (p.after call) := by
      rcases after_cases p call with
        ⟨c, timestamp, fields, hfields, -, hafter⟩ | ⟨-, hafter⟩ | ⟨t, rfl, hafter⟩
      · rw [hafter]
        exact hrecord p c timestamp fields hfields h
      · rw [hafter]
        exact h
      · rw [hafter]
        exact hmerge p t List.mem_cons_self h
    exact ih (fun p t ht => hmerge p t (List.mem_cons_of_mem _ ht)) hafter

/-- What a profile holds goes back to its snapshots. -/
structure Traced (p : Profile) : Prop where
  fields_nodup : ∀ s ∈ p.snapshots, s.fields.keys.Nodup
  preferences_eq : p.preferences = overlay (ofCategory .preferences p.snapshots)
  names_nodup : (p.frequent.map (·.name)).Nodup
  find?_frequent : ∀ name, FrequentVariable.find? p.frequent name =
    usage? name (ofCategory .personalInfo p.snapshots)

theorem traced_empty (userId : String) : Traced { userId } where
  fields_nodup := List.forall_mem_nil _
  preferences_eq := rfl
  names_nodup := List.nodup_nil
  find?_frequent := fun _ => rfl

theorem Traced.record {p : Profile} (h : p.Traced) (c : Category) (timestamp : Option Timestamp)
    {fields : Table String} (hfields : fields.keys.Nodup) :
    (p.record c timestamp fields).Traced := by
  have hsnapshots : (p.record c timestamp fields).snapshots =
      p.snapshots ++ [⟨fields, c.name, timestamp⟩] := rfl
  have hnodup : ∀ s ∈ (p.record c timestamp fields).snapshots, s.fields.keys.Nodup := by
    intro s hs
    rw [hsnapshots, List.mem_append, List.mem_singleton] at hs
    rcases hs with hs | rfl
    · exact h.fields_nodup s hs
    · exact hfields
  cases c with
  | personalInfo =>
    refine ⟨hnodup, ?_, FrequentVariable.nodup_countFields h.names_nodup fields, fun name => ?_⟩
    · rw [hsnapshots, ofCategory_append, if_neg (by decide)]
      exact h.preferences_eq
    · rw [hsnapshots, ofCategory_append, if_pos rfl, usage?_append, ← h.find?_frequent name]
      exact FrequentVariable.find?_countFields h.names_nodup hfields name
  | preferences =>
    refine ⟨hnodup, ?_, h.names_nodup, fun name => ?_⟩
    · rw [hsnapshots, ofCategory_append, if_pos rfl, overlay_append, ← h.preferences_eq]
      rfl
    · rw [hsnapshots, ofCategory_append, if_neg (by decide)]
      exact h.find?_frequent name

theorem Traced.withPersonalInfo {p : Profile} (h : p.Traced) (info : Table String) :
    Traced { p with personalInfo := info } :=
  ⟨h.fields_nodup, h.preferences_eq, h.names_nodup, h.find?_frequent⟩

theorem Traced.deduplicate {p : Profile} (h : p.Traced) (t : Threshold) :
    (p.deduplicate t).1.Traced := by
  obtain ⟨info, hinfo⟩ := p.deduplicate_fst t
  rw [hinfo]
  exact h.withPersonalInfo info

theorem Traced.replay {p : Profile} (h : p.Traced) (calls : List Call) :
    (p.replay calls).Traced :=
  replay_keeps (fun _ c timestamp _ hfields h => h.record c timestamp hfields)
    (fun _ t _ h => h.deduplicate t) h

/-- A name is in the index if a snapshot of the personal information has a value for it. -/
theorem Traced.mem_names_iff {p : Profile} (h : p.Traced) (name : String) :
    name ∈ p.frequent.map (·.name) ↔
      ∃ s ∈ ofCategory .personalInfo p.snapshots, (s.fields.given? name).isSome := by
  rw [← latestGiven?_isSome_iff, ← Option.isSome_map, ← usage?, ← h.find?_frequent name,
    FrequentVariable.find?, List.find?_isSome]
  simp

/-- An entry of the index has the latest value of its name and the number of its uses. -/
theorem Traced.entry_eq {p : Profile} (h : p.Traced) {f : FrequentVariable} (hf : f ∈ p.frequent) :
    f.frequency = timesGiven f.name (ofCategory .personalInfo p.snapshots) ∧
      latestGiven? f.name (ofCategory .personalInfo p.snapshots) = some f.value := by
  have hfind : usage? f.name (ofCategory .personalInfo p.snapshots) = some f := by
    rw [← h.find?_frequent]
    exact find?_of_nodup h.names_nodup hf
  obtain ⟨value, hlatest, hvalue⟩ := Option.map_eq_some_iff.1 hfind
  rw [hlatest, ← hvalue]
  exact ⟨rfl, rfl⟩

/-! ## Without merging -/

/-- The personal information goes back to the snapshots as well. -/
def Unmerged (p : Profile) : Prop := p.personalInfo = overlay (ofCategory .personalInfo p.snapshots)

theorem Unmerged.record {p : Profile} (h : p.Unmerged) (c : Category)
    (timestamp : Option Timestamp) (fields : Table String) :
    (p.record c timestamp fields).Unmerged := by
  have heq : p.personalInfo = overlay (ofCategory .personalInfo p.snapshots) := h
  show _ = overlay (ofCategory .personalInfo (p.snapshots ++ [⟨fields, c.name, timestamp⟩]))
  cases c with
  | personalInfo =>
    rw [ofCategory_append, if_pos rfl, overlay_append, ← heq]
    rfl
  | preferences =>
    rw [ofCategory_append, if_neg (by decide), ← heq]
    rfl

/-- As long as nothing is merged, the personal information goes back to the snapshots. -/
theorem Unmerged.replay {p : Profile} (h : p.Unmerged) {calls : List Call}
    (hcalls : ∀ t, .deduplicate t ∉ calls) : (p.replay calls).Unmerged :=
  replay_keeps (fun _ c timestamp fields _ h => h.record c timestamp fields)
    (fun _ t ht _ => absurd ht (hcalls t)) h

/-- **Replay.**  After any calls on an empty profile there is one snapshot for each store that
succeeded, in order; the preferences are the snapshots of the preferences, a later one over an
earlier one, and so is the personal information as long as nothing was merged.  The index has one
entry for each name that a snapshot of the personal information gives a value, with the latest of
these values and their number. -/
theorem replay_agrees (userId : String) (calls : List Call) :
    let p := replay { userId } calls
    let personal := ofCategory .personalInfo p.snapshots
    (p.snapshots = calls.filterMap Call.snapshot? ∧
      ∀ (q : Profile) (data : Payload) (category : Value) (timestamp : Option Timestamp),
        (∃ stored, q.store data.value category timestamp = .ok stored) ↔
          (Call.store data category timestamp).snapshot?.isSome) ∧
    p.preferences = overlay (ofCategory .preferences p.snapshots) ∧
    ((∀ t, .deduplicate t ∉ calls) → p.personalInfo = overlay personal) ∧
    (p.frequent.map (·.name)).Nodup ∧
    (∀ name, name ∈ p.frequent.map (·.name) ↔
      ∃ s ∈ personal, (s.fields.given? name).isSome) ∧
    ∀ f ∈ p.frequent,
      f.frequency = timesGiven f.name personal ∧ latestGiven? f.name personal = some f.value := by
  intro p personal
  have htraced : p.Traced := (traced_empty userId).replay calls
  refine ⟨⟨?_, ?_⟩, htraced.preferences_eq, ?_, htraced.names_nodup, htraced.mem_names_iff,
    fun f hf => htraced.entry_eq hf⟩
  · exact snapshots_replay _ calls
  · intro q data category timestamp
    rcases store_cases q data category timestamp with
      ⟨c, fields, -, -, hsnapshot, hstore⟩ | ⟨hsnapshot, cause, hstore⟩
    · rw [hsnapshot, hstore]
      exact ⟨fun _ => rfl, fun _ => ⟨_, rfl⟩⟩
    · rw [hsnapshot, hstore]
      constructor
      · rintro ⟨stored, hstored⟩
        cases hstored
      · intro hsome
        cases hsome
  · exact fun hcalls => Unmerged.replay (p := { userId }) rfl hcalls

/-- A name with a blank note: in both categories, in one that is unknown, and once more. -/
theorem replay_agrees_visitor :
    let data : String → Payload := fun name =>
      ⟨.object [("name", .text name), ("note", .null)], by rintro _ ⟨⟩; simp [Table.keys]⟩
    let calls : List Call :=
      [.store (data "Ada") (.text "personal_info") none,
        .store (data "A.") (.text "preferences") none,
        .store (data "Ada B.") (.text "hobbies") none,
        .store (data "Ada L.") (.text "personalInfo") none]
    let p := replay { userId := "ada" } calls
    (∀ t, .deduplicate t ∉ calls) ∧
      p.snapshots.map (·.fields.lookup "name") = [some "Ada", some "A.", some "Ada L."] ∧
      p.preferences = [("name", "A."), ("note", "")] ∧
      p.personalInfo = [("name", "Ada L."), ("note", "")] ∧
      "name" ∈ p.frequent.map (·.name) ∧ "note" ∉ p.frequent.map (·.name) ∧
      ∀ f ∈ p.frequent, f.name = "name" → f.frequency = 2 ∧ f.value = "Ada L." := by
  intro data calls p
  obtain ⟨⟨hsnapshots, -⟩, hpreferences, hpersonal, -, hnames, hentries⟩ :=
    replay_agrees "ada" calls
  have hcalls : ∀ t, .deduplicate t ∉ calls := by
    intro t ht
    simp [calls] at ht
  refine ⟨hcalls, ?_, ?_, ?_, ?_, ?_, ?_⟩
  · rw [hsnapshots]
    decide +kernel
  · rw [hpreferences, hsnapshots]
    decide +kernel
  · rw [hpersonal hcalls, hsnapshots]
    decide +kernel
  · rw [hnames, hsnapshots]
    decide +kernel
  · rw [hnames, hsnapshots]
    decide +kernel
  · intro f hf hname
    obtain ⟨hfrequency, hvalue⟩ := hentries f hf
    rw [hname, hsnapshots] at hfrequency hvalue
    have hlatest : latestGiven? "name" (ofCategory .personalInfo
        (calls.filterMap Call.snapshot?)) = some "Ada L." := by decide +kernel
    have htimes : timesGiven "name" (ofCategory .personalInfo
        (calls.filterMap Call.snapshot?)) = 2 := by decide +kernel
    rw [hlatest] at hvalue
    exact ⟨hfrequency.trans htimes, (Option.some.inj hvalue).symm⟩

end Profile

end Stencil
