import Stencil.Settings.Factory

/-!
# Parts around services

A service is built under a strategy (`buildService_of_known`), and the extractor and the engine are
built around the client of one (`BuiltAround`).  All other parts have nothing to do with a service:
asking for one leaves everything else as it was (`get_alike`).
-/

namespace Stencil

def Service.strategies : List String := ["openai", "none"]

namespace Settings

/-- The settings name a strategy for each service that it can have. -/
def StrategiesKnown (s : Settings) : Prop :=
  ∀ service : Service, service.strategy s ∈ Service.strategies

/-- The strategy that a text stands for: the empty one stands for the strategy of the settings. -/
def strategyFor (s : Settings) (service : Service) (given : String) : String :=
  if given = "" then service.strategy s else given

def clientUnder? (s : Settings) (service : Service) (strategy : String) : Option Client :=
  if strategy = "openai" then s.client? service else none

theorem clientUnder?_isSome_iff (s : Settings) (service : Service) (strategy : String) :
    (s.clientUnder? service strategy).isSome ↔ strategy = "openai" ∧ s.apiKey ≠ "" := by
  by_cases hstrategy : strategy = "openai" <;> by_cases hkey : s.apiKey = "" <;>
    simp [clientUnder?, client?, hstrategy, hkey]

end Settings

/-- The part has nothing to do with a service. -/
def Part.isPlain : Part → Bool
  | .service _ | .extractor | .engine => false
  | .deduplicator | .store | .personalizer | .validator => true

/-- The parts that are built around the client of a service, and how they are built. -/
inductive BuiltAround : Part → Service → (Settings → Option Client → Component) → Prop
  | extractor : BuiltAround .extractor .detector fun s c => .extractor c s.detectorMaxChars
  | engine : BuiltAround .engine .generator fun s c => .engine c s.generatorContextChars

namespace BuiltAround

variable {part : Part} {service service' : Service}
  {make make' : Settings → Option Client → Component}

theorem isPlain_eq (h : BuiltAround part service make) : part.isPlain = false := by
  cases h <;> rfl

theorem ne_service (h : BuiltAround part service make) (other : Service) :
    part ≠ .service other := by
  cases h <;> exact Part.noConfusion

theorem unique (h : BuiltAround part service make) (h' : BuiltAround part service' make') :
    service' = service ∧ make' = make := by
  cases h <;> cases h' <;> exact ⟨rfl, rfl⟩

end BuiltAround

namespace Factory

/-! ## What one call builds -/

/-- One factory is another with something kept for a part. -/
structure Keeps (f : Factory) (part : Part) (built : Option Built) (f' : Factory) : Prop where
  settings_eq : f'.settings = f.settings
  find?_self : f'.find? part = some built
  find?_of_ne : ∀ {other : Part}, other ≠ part → f'.find? other = f.find? other

theorem keeps_of_cons {f f' : Factory} {part : Part} {built : Option Built}
    (hsettings : f'.settings = f.settings) (hkept : f'.kept = (part, built) :: f.kept) :
    f.Keeps part built f' where
  settings_eq := hsettings
  find?_self := by rw [find?, hkept, List.lookup_cons_self]
  find?_of_ne := fun {other} hne => by
    have hother : (other == part) = false := by simpa using hne
    rw [find?, hkept, List.lookup_cons, hother, find?]

theorem keeps_keep (f : Factory) (part : Part) (built : Option Built) :
    f.Keeps part built (f.keep part built) := keeps_of_cons rfl rfl

theorem keeps_build (f : Factory) (part : Part) (component : Component) :
    f.Keeps part (some (f.build part component).1) (f.build part component).2 :=
  keeps_of_cons rfl rfl

/-- A service is built under each strategy that there is. -/
theorem buildService_of_known (f : Factory) (service : Service) {strategy : String}
    (h : strategy ∈ Service.strategies) :
    ∃ built f', f.buildService service strategy = .ok (built, f') ∧
      f.Keeps (.service service) built f' ∧
      built.map (·.component) = (f.settings.clientUnder? service strategy).map .client := by
  have hstrategy : strategy = "openai" ∨ strategy = "none" := by
    simpa [Service.strategies] using h
  rcases hstrategy with rfl | rfl
  · cases hclient : f.settings.client? service with
    | some client =>
      refine ⟨_, _, by simp [buildService, hclient], f.keeps_build _ (.client client), ?_⟩
      simp [Settings.clientUnder?, hclient, build]
    | none =>
      refine ⟨_, _, by simp [buildService, hclient], f.keeps_keep _ none, ?_⟩
      simp [Settings.clientUnder?, hclient]
  · refine ⟨_, _, by simp [buildService], f.keeps_keep _ none, ?_⟩
    simp [Settings.clientUnder?]

theorem buildService_of_unknown (f : Factory) (service : Service) {strategy : String}
    (h : strategy ∉ Service.strategies) :
    f.buildService service strategy = .error ⟨service, strategy⟩ := by
  have hstrategy : strategy ≠ "openai" ∧ strategy ≠ "none" := by
    simpa [Service.strategies] using h
  simp [buildService, hstrategy]

theorem service_of_kept {f : Factory} {service : Service} {built : Option Built}
    (h : f.find? (.service service) = some built) : f.service service none = .ok (built, f) := by
  simp only [Factory.service, h]

theorem service_of_missing {f : Factory} {service : Service}
    (h : f.find? (.service service) = none) :
    f.service service none = f.buildService service (service.strategy f.settings) := by
  simp only [Factory.service, h]
  rfl

theorem service_given (f : Factory) (service : Service) (given : String) :
    f.service service (some given) =
      f.buildService service (f.settings.strategyFor service given) := by
  simp [Factory.service, Settings.strategyFor]

/-- The client is what the service is. -/
theorem client_of_service {f f' : Factory} {service : Service} {built : Option Built}
    {client : Option Client} (h : f.service service none = .ok (built, f'))
    (hbuilt : built.map (·.component) = client.map .client) :
    f.client service = .ok (client, f') := by
  have hclient : (built.bind fun b => b.component.client?) = client := by
    have hcomponent : (built.bind fun b => b.component.client?) =
        (built.map (·.component)).bind Component.client? := by
      rw [Option.bind_map]
      rfl
    rw [hcomponent, hbuilt]
    cases client <;> rfl
  rw [Factory.client, h, ← hclient]
  rfl

section

variable {f f' : Factory} {part : Part} {override : Option String}

theorem call_of_ok {built : Option Built} (h : f.get part override = .ok (built, f')) :
    f.call (.get part override) = (.ok built, f') := by
  rw [call, h]

theorem call_of_error {unknown : UnknownStrategy} (h : f.get part override = .error unknown) :
    f.call (.get part override) = (.error unknown, f) := by
  rw [call, h]

end

section

variable {part : Part} {service : Service} {make : Settings → Option Client → Component}
  (hpart : BuiltAround part service make) {f f' : Factory}

include hpart

theorem get_of_builtAround (f : Factory) (override : Option String) :
    f.get part override = f.keptOr part fun f => do
      let (client, f) ← f.client service
      return (make f.settings client, f) := by
  cases hpart <;> rfl

theorem get_of_kept {built : Built} (h : f.find? part = some (some built))
    (override : Option String) : f.get part override = .ok (some built, f) := by
  rw [get_of_builtAround hpart, keptOr, h]

theorem get_of_missing {client : Option Client} (h : f.find? part = none)
    (hclient : f.client service = .ok (client, f')) (override : Option String) :
    f.get part override = .ok (some ⟨f'.count, make f'.settings client⟩,
      (f'.build part (make f'.settings client)).2) := by
  rw [get_of_builtAround hpart, keptOr, h]
  simp only [hclient]
  rfl

end

/-! ## Parts without a service -/

/-- One factory keeps the same as another of every part that has to do with a service. -/
structure Alike (f f' : Factory) : Prop where
  settings_eq : f'.settings = f.settings
  find?_eq : ∀ {part : Part}, part.isPlain = false → f'.find? part = f.find? part

theorem Alike.refl (f : Factory) : f.Alike f := ⟨rfl, fun _ => rfl⟩

theorem Alike.trans {f f' f'' : Factory} (h : f.Alike f') (h' : f'.Alike f'') : f.Alike f'' :=
  ⟨h'.settings_eq.trans h.settings_eq, fun hpart => (h'.find?_eq hpart).trans (h.find?_eq hpart)⟩

theorem Keeps.alike {f f' : Factory} {part : Part} {built : Option Built}
    (h : f.Keeps part built f') (hpart : part.isPlain = true) : f.Alike f' where
  settings_eq := h.settings_eq
  find?_eq := fun {other} hother => h.find?_of_ne fun heq => by
    rw [heq, hpart] at hother
    cases hother

theorem keptOr_alike (part : Part) (hpart : part.isPlain = true)
    (make : Factory → Except UnknownStrategy (Component × Factory)) (f : Factory)
    (hmake : ∃ component f', make f = .ok (component, f') ∧ f.Alike f') :
    ∃ built f', f.keptOr part make = .ok (built, f') ∧ f.Alike f' := by
  obtain ⟨component, f', hmade, halike⟩ := hmake
  have hbuild := halike.trans ((f'.keeps_build part component).alike hpart)
  rcases hkept : f.find? part with _ | _ | built
  · exact ⟨_, _, by simp only [keptOr, hkept, hmade]; rfl, hbuild⟩
  · exact ⟨_, _, by simp only [keptOr, hkept, hmade]; rfl, hbuild⟩
  · exact ⟨some built, f, by simp only [keptOr, hkept], .refl f⟩

theorem deduplicator_alike (f : Factory) :
    ∃ built f', f.deduplicator = .ok (built, f') ∧ f.Alike f' :=
  keptOr_alike .deduplicator rfl _ f ⟨_, f, rfl, .refl f⟩

/-- A part without a service is never refused. -/
theorem get_alike {part : Part} (hpart : part.isPlain = true) (f : Factory)
    (override : Option String) :
    ∃ built f', f.get part override = .ok (built, f') ∧ f.Alike f' := by
  cases part with
  | service _ => cases hpart
  | extractor => cases hpart
  | engine => cases hpart
  | deduplicator => exact f.deduplicator_alike
  | store =>
    obtain ⟨built, f', hget, halike⟩ := f.deduplicator_alike
    simp only [get]
    refine keptOr_alike .store rfl _ f ⟨.store f'.settings.similarityThreshold, f', ?_, halike⟩
    simp only [hget]
    rfl
  | personalizer =>
    simp only [get]
    exact keptOr_alike .personalizer rfl _ f ⟨_, f, rfl, .refl f⟩
  | validator =>
    simp only [get]
    exact keptOr_alike .validator rfl _ f ⟨_, f, rfl, .refl f⟩

end Factory

end Stencil
