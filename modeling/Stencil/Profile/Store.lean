import Stencil.Profile.Merging
import Stencil.Template.Basic
import Stencil.InvalidInput

/-!
Storing values in a profile and finding them again.

`record` adds a snapshot, overrides the data of its category and counts the use of personal values;
`find?` looks a variable up, in a fixed order of places.
-/

namespace Stencil

/-- The value of a name, if it has one that is not empty. -/
def Table.given? (t : Table String) (name : String) : Option String :=
  (t.lookup name).filter fun s => !s.isEmpty

def Category.ofValue (v : Value) : Except InvalidInput Category :=
  match v with
  | .text s =>
    match Category.ofName? s with
    | some c => .ok c
    | none => .error (.unknownCategory s)
  | v => .error (.unknownCategory v.display)

namespace FrequentVariable

/-- Counts one more use of a name and remembers the value. Where a name stands more than once, its
last entry counts. -/
def countUse (name value : String) : List FrequentVariable → List FrequentVariable
  | [] => [⟨name, value, 1⟩]
  | f :: rest =>
    if f.name = name && rest.all (fun g => g.name ≠ name) then
      ⟨name, value, f.frequency + 1⟩ :: rest
    else f :: countUse name value rest

def countFields (index : List FrequentVariable) (fields : Table String) : List FrequentVariable :=
  fields.foldl (fun index e => if e.2.isEmpty then index else countUse e.1 e.2 index) index

/-- The value of each name, the last one where a name stands more than once. -/
def values (index : List FrequentVariable) : Table String :=
  index.foldl (fun t f => t.set f.name f.value) []

/-- The variables by falling frequency; equals stay in order. -/
def ranked (index : List FrequentVariable) : List FrequentVariable :=
  index.mergeSort fun f g => g.frequency ≤ f.frequency

end FrequentVariable

namespace Profile

def withData (p : Profile) (data : Table String) : Category → Profile
  | .personalInfo => { p with personalInfo := data }
  | .preferences => { p with preferences := data }

def record (p : Profile) (category : Category) (timestamp : Option Timestamp)
    (fields : Table String) : Profile :=
  let stored := p.withData ((p.data category).override fields) category
  { stored with
    snapshots := p.snapshots ++ [⟨fields, category.name, timestamp⟩]
    frequent :=
      match category with
      | .personalInfo => FrequentVariable.countFields p.frequent fields
      | .preferences => p.frequent }

def store (p : Profile) (data category : Value) (timestamp : Option Timestamp) :
    Except InvalidInput Profile :=
  match data with
  | .object fields@(_ :: _) => do
    let category ← Category.ofValue category
    return p.record category timestamp (Snapshot.fieldTexts fields)
  | _ => .error .noData

/-- The data of a category, of the wanted names only if some are given. -/
def retrieve (p : Profile) (category : Category) (wanted : Option (List String)) : Table String :=
  match wanted with
  | none => p.data category
  | some names => (p.data category).filter fun (k, _) => names.contains k

/-- The latest value that a snapshot holds for a name. -/
def latestGiven? (name : String) (snapshots : List Snapshot) : Option String :=
  snapshots.reverse.findSome? fun s => s.fields.given? name

/-- The value of the first of some other names that has one in the personal information. -/
def mapped? (p : Profile) (mappings : List String) : Option String :=
  mappings.findSome? fun m => p.personalInfo.given? m

/-- A value for a variable: from the personal information, the preferences, the latest snapshot that
has one, the index of frequent variables, or under one of its other names. -/
def find? (p : Profile) (v : Variable) : Option String :=
  (p.personalInfo.given? v.name).or <|
    (p.preferences.given? v.name).or <|
      (latestGiven? v.name p.snapshots).or <|
        ((FrequentVariable.values p.frequent).given? v.name).or <| p.mapped? v.mappings

/-- The values of the variables that have one. -/
def autofill (p : Profile) (vars : List Variable) : Table String :=
  vars.foldl
    (fun filled v =>
      match p.find? v with
      | some value => filled.set v.name value
      | none => filled)
    []

/-- The frequent variables, most frequent first, at most as many as the limit says. -/
def frequentVariables (p : Profile) (limit : Option Int) : List FrequentVariable :=
  let ranked := FrequentVariable.ranked p.frequent
  match limit with
  | none => ranked
  | some n => Text.leading n ranked

/-- Overrides the personal information by the merged values of all snapshots. -/
def deduplicate (t : Threshold) (p : Profile) : Profile × MergeResult :=
  let result := merge t (p.snapshots.map (·.fields))
  if result.duplicates = 0 then (p, result)
  else ({ p with personalInfo := p.personalInfo.override result.merged }, result)

end Profile

end Stencil
