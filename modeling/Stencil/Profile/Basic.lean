import Stencil.Timestamp

/-! Profiles: what a user has entered before, as it is now and as it was at each time. -/

namespace Stencil

open Wire

/-- The two kinds of data that a profile keeps apart. -/
inductive Category
  | personalInfo
  | preferences
  deriving DecidableEq

def Category.name : Category → String
  | .personalInfo => "personal_info"
  | .preferences => "preferences"

def Category.ofName? : String → Option Category
  | "personal_info" => some .personalInfo
  | "personalInfo" => some .personalInfo
  | "preferences" => some .preferences
  | _ => none

/-- The values that were stored at one time. -/
structure Snapshot where
  fields : Table String := []
  category : String := Category.personalInfo.name
  timestamp : Option Timestamp := none
  deriving DecidableEq

namespace Snapshot

/-- Field values as texts, nothing for null. -/
def fieldTexts (fields : Table Value) : Table String := fields.map fun (k, v) => (k, v.storedText)

def checkTexts : Value → Checked (Table String)
  | .object fields => .valid (fieldTexts fields)
  | _ => .fail .dictType

def check : Value → Checked Snapshot :=
  record fun fields =>
    Snapshot.mk
      <$> optional checkTexts [] (.same "fields") fields
      <*> optional text Category.personalInfo.name (.same "category") fields
      <*> optional Timestamp.check? none (.same "timestamp") fields

def toValue (s : Snapshot) : Value :=
  .object [("fields", textTable s.fields), ("category", .text s.category),
    ("timestamp", Timestamp.toValue? s.timestamp)]

end Snapshot

/-- How often a field was stored, and its latest value. -/
structure FrequentVariable where
  name : String
  value : String
  frequency : Nat := 1
  deriving DecidableEq

namespace FrequentVariable

/-- A count, which is not negative. -/
def count (v : Value) : Checked Nat :=
  Int.toNat <$> require (fun i => 0 ≤ i) .greaterThanEqual (whole v)

def check : Value → Checked FrequentVariable :=
  record fun fields =>
    FrequentVariable.mk
      <$> required text (.same "name") fields
      <*> required text (.same "value") fields
      <*> optional count 1 (.same "frequency") fields

def toValue (f : FrequentVariable) : Value :=
  .object [("name", .text f.name), ("value", .text f.value), ("frequency", .int f.frequency)]

end FrequentVariable

/-- The data of one user; the snapshots are in the order of time. -/
structure Profile where
  userId : String := ""
  personalInfo : Table String := []
  preferences : Table String := []
  snapshots : List Snapshot := []
  frequent : List FrequentVariable := []
  deriving DecidableEq

namespace Profile

def empty : Profile := {}

def check : Value → Checked Profile :=
  record fun fields =>
    Profile.mk
      <$> optional text "" ⟨"userId", "user_id"⟩ fields
      <*> optional (table text) [] ⟨"personalInfo", "personal_info"⟩ fields
      <*> optional (table text) [] (.same "preferences") fields
      <*> optional (tuple Snapshot.check) [] (.same "snapshots") fields
      <*> optional (tuple FrequentVariable.check) []
        ⟨"frequentlyUsedVariables", "frequently_used_variables"⟩ fields

def toValue (p : Profile) : Value :=
  .object [("userId", .text p.userId), ("personalInfo", textTable p.personalInfo),
    ("preferences", textTable p.preferences),
    ("snapshots", .list (p.snapshots.map Snapshot.toValue)),
    ("frequentlyUsedVariables", .list (p.frequent.map FrequentVariable.toValue))]

def data (p : Profile) : Category → Table String
  | .personalInfo => p.personalInfo
  | .preferences => p.preferences

end Profile

end Stencil
