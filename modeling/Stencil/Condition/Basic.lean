import Stencil.Wire.Record

/-!
Conditions on the values of variables, and how they are read.

A condition compares one variable with a text, or joins other conditions.  Reading never fails: what
cannot be read, at any depth, becomes `Condition.absent` in its place, and names of operators are
kept whether they mean something or not.
-/

namespace Stencil

inductive Condition
  /-- Nothing that can be read as a condition; it never holds. -/
  | absent
  /-- Compares the value of a variable. -/
  | simple (variableName operator value : String)
  /-- Joins conditions. -/
  | compound (operator : Option String) (parts : List Condition)

namespace Condition

open Wire

instance : Inhabited Condition := ⟨.absent⟩

def typeName : Name := .same "type"
def variableName : Name := .same "variable"
def operatorName : Name := .same "operator"
def valueName : Name := .same "value"
def partsName : Name := ⟨"subConditions", "sub_conditions"⟩
def joinName : Name := ⟨"logicalOperator", "logical_operator"⟩

/-- The text with which a value is compared: truth values in lower case, nothing for null. -/
def comparedText : Value → String
  | .null => ""
  | .bool true => "true"
  | .bool false => "false"
  | v => v.display

def literal (s : String) : Value → Checked Unit
  | .text t => if t = s then .valid () else .fail .literal
  | _ => .fail .literal

def checkSimple (fields : Fields) : Checked Condition :=
  (fun _ v op value => .simple v op value)
    <$> optional (literal "simple") () typeName fields
    <*> required text variableName fields
    <*> required text operatorName fields
    <*> optional (fun v => .valid (comparedText v)) "" valueName fields

/-- The joined conditions: those of the field that holds them, none if there is no such field. -/
def checkParts (parts : Table (Option (List Condition))) : Checked (List Condition) :=
  match find? parts partsName with
  | none => .valid []
  | some (_, some cs) => .valid cs
  | some (found, none) => (Checked.fail .tupleType).under found

/-- A joint of conditions. Its fields have been read as lists of conditions where they are lists. -/
def checkCompound (fields : Fields) (parts : Table (Option (List Condition))) : Checked Condition :=
  (fun _ cs op => .compound op cs)
    <$> optional (literal "compound") () typeName fields
    <*> checkParts parts
    <*> optional text? none joinName fields

/-- The type of a condition: the one it names, or the one that its fields suggest. -/
def typeOf (fields : Fields) : Value :=
  match fields.lookup "type" with
  | some v => v
  | none => .text (if (find? fields partsName).isSome then "compound" else "simple")

/-- The condition that an object writes. -/
def ofFields (fields : Fields) (parts : Table (Option (List Condition))) : Condition :=
  match typeOf fields with
  | .text "compound" => (checkCompound fields parts).toOption.getD .absent
  | .text "simple" => (checkSimple fields).toOption.getD .absent
  | _ => .absent

mutual

def ofValue : Value → Condition
  | .object fields => ofFields fields (partsOfFields fields)
  | _ => .absent

def ofItems : List Value → List Condition
  | [] => []
  | v :: rest => ofValue v :: ofItems rest

def partsOf : Value → Option (List Condition)
  | .list items => some (ofItems items)
  | _ => none

def partsOfFields : List (String × Value) → Table (Option (List Condition))
  | [] => []
  | (k, v) :: rest => (k, partsOf v) :: partsOfFields rest

end

mutual

def toValue : Condition → Value
  | .absent => .null
  | .simple v op value =>
    .object [("type", .text "simple"), ("variable", .text v), ("operator", .text op),
      ("value", .text value)]
  | .compound op parts =>
    .object [("type", .text "compound"), ("subConditions", .list (toValues parts)),
      ("logicalOperator", textOrNull op)]

def toValues : List Condition → List Value
  | [] => []
  | c :: rest => toValue c :: toValues rest

end

/-! ## Lemmas -/

theorem ofItems_eq_map (items : List Value) : ofItems items = items.map ofValue := by
  induction items with
  | nil => simp [ofItems]
  | cons v rest ih => simp [ofItems, ih]

theorem lookup_partsOfFields (name : String) (fields : List (String × Value)) :
    (partsOfFields fields).lookup name = (fields.lookup name).map partsOf := by
  induction fields with
  | nil => simp [partsOfFields]
  | cons e rest ih =>
    obtain ⟨k, v⟩ := e
    by_cases h : (name == k) <;> simp [partsOfFields, List.lookup_cons, h, ih]

end Condition

end Stencil
