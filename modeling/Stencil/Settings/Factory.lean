import Stencil.Settings.Basic

/-!
Building the parts of the program from settings, each at most once.

A part is built when it is first asked for and kept.  A collaborator can be asked for under another
strategy than the settings name; what is built then is kept in place of the old one.  Every part
that is built has a serial number, so that two answers can be told to be the same part.
-/

namespace Stencil

/-- The services behind a chat model. -/
inductive Service
  | detector
  | generator
  | suggester
  deriving DecidableEq

namespace Service

/-- What a service is called where its type is unknown. -/
def label : Service → String
  | .detector => "detector"
  | .generator => "generator"
  | .suggester => "rule suggester"

/-- The name under which a service talks to its model. -/
def clientName : Service → String
  | .detector => "semantic detector"
  | .generator => "text generator"
  | .suggester => "rule suggester"

def strategy (s : Settings) : Service → String
  | .detector => s.detectorType
  | .generator => s.generatorType
  | .suggester => s.suggesterType

end Service

/-- A service with access to its model. -/
structure Client where
  service : Service
  model : String
  baseUrl : String
  apiKey : String
  timeout : Float
  /-- Only text is generated at a temperature of its own. -/
  temperature : Option Float

/-- The client of a service, if there is a key for its model. -/
def Settings.client? (s : Settings) (service : Service) : Option Client :=
  if s.apiKey.isEmpty then none
  else
    some
      { service := service
        model := s.model
        baseUrl := s.baseUrl
        apiKey := s.apiKey
        timeout := s.timeout
        temperature := if service = .generator then some s.generationTemperature else none }

/-- A part of the program. -/
inductive Component
  | client (c : Client)
  | extractor (detector : Option Client) (maxChars : Int)
  | engine (generator : Option Client) (contextChars : Int)
  | deduplicator (threshold : Float)
  | store (threshold : Float)
  | personalizer
  | validator

def Component.client? : Component → Option Client
  | .client c => some c
  | _ => none

/-- What can be asked for. -/
inductive Part
  | service (s : Service)
  | extractor
  | engine
  | deduplicator
  | store
  | personalizer
  | validator
  deriving DecidableEq

/-- A component that was built. -/
structure Built where
  serial : Nat
  component : Component

/-- A strategy that no service has. -/
structure UnknownStrategy where
  service : Service
  strategy : String
  deriving DecidableEq

def UnknownStrategy.message (u : UnknownStrategy) : String :=
  "Unknown " ++ u.service.label ++ " type: " ++ u.strategy ++ ". Valid options: 'openai', 'none'"

/-- The settings, the number of components that were built and what is kept, the latest first. A
service may be kept as missing. -/
structure Factory where
  settings : Settings
  count : Nat := 0
  kept : List (Part × Option Built) := []

namespace Factory

def keep (f : Factory) (part : Part) (built : Option Built) : Factory :=
  { f with kept := (part, built) :: f.kept }

def build (f : Factory) (part : Part) (component : Component) : Built × Factory :=
  let built : Built := ⟨f.count, component⟩
  (built, { f with count := f.count + 1, kept := (part, some built) :: f.kept })

def find? (f : Factory) (part : Part) : Option (Option Built) := f.kept.lookup part

/-- Builds a service under a strategy: a client, or nothing without a key or by choice. -/
def buildService (f : Factory) (service : Service) (strategy : String) :
    Except UnknownStrategy (Option Built × Factory) :=
  if strategy = "openai" then
    match f.settings.client? service with
    | some client =>
      let (built, f) := f.build (.service service) (.client client)
      .ok (some built, f)
    | none => .ok (none, f.keep (.service service) none)
  else if strategy = "none" then .ok (none, f.keep (.service service) none)
  else .error ⟨service, strategy⟩

/-- The service, under another strategy than that of the settings if one is given. -/
def service (f : Factory) (service : Service) (override : Option String) :
    Except UnknownStrategy (Option Built × Factory) :=
  match f.find? (.service service), override with
  | some kept, none => .ok (kept, f)
  | _, _ =>
    let given := override.getD ""
    f.buildService service (if given.isEmpty then service.strategy f.settings else given)

def client (f : Factory) (service : Service) :
    Except UnknownStrategy (Option Client × Factory) := do
  let (built, f) ← f.service service none
  return (built.bind fun b => b.component.client?, f)

/-- A part that is kept, or else is built from what `make` gives. -/
def keptOr (f : Factory) (part : Part)
    (make : Factory → Except UnknownStrategy (Component × Factory)) :
    Except UnknownStrategy (Option Built × Factory) :=
  match f.find? part with
  | some (some built) => .ok (some built, f)
  | _ => do
    let (component, f) ← make f
    let (built, f) := f.build part component
    return (some built, f)

def deduplicator (f : Factory) : Except UnknownStrategy (Option Built × Factory) :=
  f.keptOr .deduplicator fun f => .ok (.deduplicator f.settings.similarityThreshold, f)

/-- A part; only services have another strategy. -/
def get (f : Factory) (part : Part) (override : Option String) :
    Except UnknownStrategy (Option Built × Factory) :=
  match part with
  | .service s => f.service s override
  | .extractor => f.keptOr .extractor fun f => do
    let (detector, f) ← f.client .detector
    return (.extractor detector f.settings.detectorMaxChars, f)
  | .engine => f.keptOr .engine fun f => do
    let (generator, f) ← f.client .generator
    return (.engine generator f.settings.generatorContextChars, f)
  | .deduplicator => f.deduplicator
  | .store => f.keptOr .store fun f => do
    let (_, f) ← f.deduplicator
    return (.store f.settings.similarityThreshold, f)
  | .personalizer => f.keptOr .personalizer fun f => .ok (.personalizer, f)
  | .validator => f.keptOr .validator fun f => .ok (.validator, f)

/-- Forgets everything that is kept. -/
def clear (f : Factory) : Factory := { f with kept := [] }

end Factory

inductive FactoryCall
  | get (part : Part) (override : Option String)
  | clear

namespace Factory

/-- Makes one call; a call that fails changes nothing. -/
def call (f : Factory) : FactoryCall → Except UnknownStrategy (Option Built) × Factory
  | .clear => (.ok none, f.clear)
  | .get part override =>
    match f.get part override with
    | .ok (built, f) => (.ok built, f)
    | .error unknown => (.error unknown, f)

/-- Makes calls one after the other. -/
def calls (f : Factory) : List FactoryCall → List (Except UnknownStrategy (Option Built))
  | [] => []
  | c :: rest =>
    let (answer, f) := f.call c
    answer :: f.calls rest

/-- The component that an answer is, if it is one. -/
def answered? : Except UnknownStrategy (Option Built) → Option Built
  | .ok built => built
  | .error _ => none

/-- The place of the first of all answers that is the same component; an answer without a component
is only the same as itself, at its own place. -/
def firstSame (answers : List (Except UnknownStrategy (Option Built))) (place : Nat)
    (answer : Except UnknownStrategy (Option Built)) : Nat :=
  match answered? answer with
  | none => place
  | some built =>
    (answers.findIdx? fun a => (answered? a).any fun b => b.serial = built.serial).getD place

end Factory

end Stencil
