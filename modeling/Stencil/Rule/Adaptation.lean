import Stencil.Rule.Basic

/-! Adaptations: rules that were derived from a document's context and may lack a name. -/

namespace Stencil.Rule

/-- What an adaptation without a description is described as. -/
def adaptationDescription : String := "Document adapted based on context analysis"

/-- Sets a field to a text if its value counts as missing. -/
def fillField (name text : String) (fields : Table Value) : Table Value :=
  if ((fields.lookup name).getD .null).isGiven then fields else fields.set name (.text text)

/-- The rule of the adaptation at a position, if it is one. -/
def ofAdaptation? (position : Nat) : Value → Option Rule
  | .object fields =>
    let named := fillField "name" ("Adaptation_" ++ toString position) fields
    (checkFields (fillField "description" adaptationDescription named)).toOption
  | _ => none

/-- The rules of the adaptations that are some, whose positions count from `position`. -/
def ofAdaptationsFrom : (position : Nat) → List Value → List Rule
  | _, [] => []
  | position, v :: rest =>
    match ofAdaptation? position v with
    | some r => r :: ofAdaptationsFrom (position + 1) rest
    | none => ofAdaptationsFrom (position + 1) rest

/-- The rules of the adaptations that are some. -/
def ofAdaptations (adaptations : List Value) : List Rule := ofAdaptationsFrom 0 adaptations

end Stencil.Rule
