import Stencil.Value.Basic

/-!
Checking free-form data, with every complaint and not only the first.

`Checked α` is a result or a list of issues.  Sequencing two checks keeps the issues of both, in
order, so that `mk <$> a <*> b <*> c` reports what is wrong with each of the fields `a`, `b`, `c`.
Main statements: no issue gets lost (`issueCount_seq`), and a list is read as it was written if its
members are (`members_map`).
-/

namespace Stencil

/-- What is wrong with a piece of data. -/
inductive IssueKind
  | missing
  | stringType
  | stringTooShort
  | boolType
  | boolParsing
  | intType
  | intParsing
  | intParsingSize
  | intFromFloat
  | floatType
  | floatParsing
  | finiteNumber
  | greaterThan
  | greaterThanEqual
  | lessThanEqual
  | listType
  | tupleType
  | dictType
  | modelType
  | enumeration
  | literal
  | pathType
  | datetimeType
  | datetimeParsing
  | datetimeFromDateParsing
  deriving DecidableEq

def IssueKind.code : IssueKind → String
  | .missing => "missing"
  | .stringType => "string_type"
  | .stringTooShort => "string_too_short"
  | .boolType => "bool_type"
  | .boolParsing => "bool_parsing"
  | .intType => "int_type"
  | .intParsing => "int_parsing"
  | .intParsingSize => "int_parsing_size"
  | .intFromFloat => "int_from_float"
  | .floatType => "float_type"
  | .floatParsing => "float_parsing"
  | .finiteNumber => "finite_number"
  | .greaterThan => "greater_than"
  | .greaterThanEqual => "greater_than_equal"
  | .lessThanEqual => "less_than_equal"
  | .listType => "list_type"
  | .tupleType => "tuple_type"
  | .dictType => "dict_type"
  | .modelType => "model_type"
  | .enumeration => "enum"
  | .literal => "literal_error"
  | .pathType => "path_type"
  | .datetimeType => "datetime_type"
  | .datetimeParsing => "datetime_parsing"
  | .datetimeFromDateParsing => "datetime_from_date_parsing"

/-- An issue and the way to the data it is about, from the outside in. -/
structure Issue where
  path : List String
  kind : IssueKind
  deriving DecidableEq

/-- The issue as one text: the path with dots, a bar, the code. -/
def Issue.text (i : Issue) : String := ".".intercalate i.path ++ "|" ++ i.kind.code

def Issue.textOfAll (issues : List Issue) : String := "; ".intercalate (issues.map Issue.text)

/-- A result, or what is wrong with the data. -/
inductive Checked (α : Type)
  | valid (a : α)
  | invalid (issues : List Issue)

namespace Checked

variable {α β : Type}

/-- Applies a function to the result. -/
def map (f : α → β) : Checked α → Checked β
  | .valid a => .valid (f a)
  | .invalid issues => .invalid issues

/-- Applies the result of one check to the result of another; the issues of both are kept. -/
def seq : Checked (α → β) → Checked α → Checked β
  | .valid f, .valid a => .valid (f a)
  | .valid _, .invalid i => .invalid i
  | .invalid i, .valid _ => .invalid i
  | .invalid i, .invalid j => .invalid (i ++ j)

instance : Functor Checked := ⟨fun f c => c.map f, fun a c => c.map fun _ => a⟩

instance : Seq Checked := ⟨fun f c => f.seq (c ())⟩

/-- One issue, about the data itself. -/
def fail (kind : IssueKind) : Checked α := .invalid [⟨[], kind⟩]

/-- Says where the checked data is found. -/
def under (step : String) : Checked α → Checked α
  | .valid a => .valid a
  | .invalid issues => .invalid (issues.map fun i => { i with path := step :: i.path })

/-- The result, if there is one. -/
def toOption : Checked α → Option α
  | .valid a => some a
  | .invalid _ => none

def issueCount : Checked α → Nat
  | .valid _ => 0
  | .invalid issues => issues.length

/-- Checks the members of a list, whose places count from `index`. -/
def members (check : Value → Checked α) (index : Nat) : List Value → Checked (List α)
  | [] => .valid []
  | v :: rest =>
    List.cons <$> (check v).under (toString index) <*> members check (index + 1) rest

/-! ## Lemmas -/

@[simp] theorem map_valid (f : α → β) (a : α) : f <$> Checked.valid a = .valid (f a) := rfl

@[simp] theorem seq_valid (f : α → β) (a : α) :
    (Checked.valid f <*> Checked.valid a) = .valid (f a) := rfl

@[simp] theorem under_valid (step : String) (a : α) : (Checked.valid a).under step = .valid a := rfl

/-- Every issue of two checks is an issue of their sequence. -/
theorem issueCount_seq (f : Checked (α → β)) (c : Checked α) :
    (f <*> c).issueCount = f.issueCount + c.issueCount := by
  cases f <;> cases c <;> simp [Seq.seq, Checked.seq, issueCount]

/-- A list is read as it was written if each of its members is. -/
theorem members_map {check : Value → Checked α} {write : α → Value} (items : List α)
    (h : ∀ a ∈ items, check (write a) = .valid a) (index : Nat) :
    members check index (items.map write) = .valid items := by
  induction items generalizing index with
  | nil => rfl
  | cons a rest ih =>
    have hrest := ih (fun b hb => h b (List.mem_cons_of_mem _ hb)) (index + 1)
    simp [members, h a List.mem_cons_self, hrest]

end Checked

end Stencil
