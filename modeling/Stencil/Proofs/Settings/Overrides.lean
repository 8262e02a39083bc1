import Mathlib.Data.List.DropRight
import Mathlib.Data.List.Induction
import Stencil.Proofs.Settings.Building

/-!
# Strategies that calls give

A service can be asked for under another strategy than the settings name.  What it is then is kept,
so that the service stays under that strategy until another one is given or everything is forgotten
(`strategyAfter`), and a part that is built in the meantime keeps what the service was then
(`strategyWhenBuilt`).  A call with an unknown strategy is refused and changes nothing.  All this is
an invariant of the calls (`Follows`), and the answers are read off it (`overrides_stay`).
-/

namespace Stencil

namespace FactoryCall

/-- Everything that is kept is forgotten. -/
def isClear : FactoryCall → Bool
  | .clear => true
  | .get _ _ => false

def asksFor (part : Part) : FactoryCall → Bool
  | .get asked _ => asked = part
  | .clear => false

/-- The strategy that a call puts a service under: the one that it gives, if there is such a
strategy. -/
def strategy? (settings : Settings) (service : Service) : FactoryCall → Option String
  | .get (.service asked) (some given) =>
    let strategy := settings.strategyFor service given
    if asked = service ∧ strategy ∈ Service.strategies then some strategy else none
  | _ => none

@[simp]
theorem asksFor_get {part asked : Part} {override : Option String} :
    (get asked override).asksFor part = true ↔ asked = part := decide_eq_true_iff

/-- Only a call for a service gives a strategy. -/
theorem strategy?_of_ne_service {part : Part} (h : ∀ service, part ≠ .service service)
    (override : Option String) (settings : Settings) (service : Service) :
    (get part override).strategy? settings service = none := by
  cases part with
  | service asked => exact absurd rfl (h asked)
  | _ => rfl

end FactoryCall

namespace Factory

open FactoryCall

def sinceClear (calls : List FactoryCall) : List FactoryCall := calls.rtakeWhile fun c => !c.isClear

/-- The last strategy that calls put a service under, or else that of the settings. -/
def lastStrategy (settings : Settings) (service : Service) (calls : List FactoryCall) : String :=
  (calls.filterMap (strategy? settings service)).getLastD (service.strategy settings)

/-- The strategy that a service is under after calls. -/
def strategyAfter (settings : Settings) (service : Service) (calls : List FactoryCall) : String :=
  lastStrategy settings service (sinceClear calls)

/-- The strategy that a service was under when a part was first asked for, or is under if the part
was not asked for yet. -/
def strategyWhenBuilt (settings : Settings) (service : Service) (part : Part)
    (calls : List FactoryCall) : String :=
  lastStrategy settings service ((sinceClear calls).takeWhile fun c => !c.asksFor part)

/-- The part was asked for since everything was last forgotten. -/
def Asked (part : Part) (calls : List FactoryCall) : Prop :=
  ∃ c ∈ sinceClear calls, c.asksFor part = true

/-! ## What the calls say -/

section

variable {settings : Settings} {service : Service} {part : Part} {calls : List FactoryCall}
  {c : FactoryCall}

theorem sinceClear_clear : sinceClear (calls ++ [.clear]) = [] :=
  List.rtakeWhile_concat_neg _ _ _ (by simp [isClear])

theorem sinceClear_concat (h : c.isClear = false) :
    sinceClear (calls ++ [c]) = sinceClear calls ++ [c] :=
  List.rtakeWhile_concat_pos _ _ _ (by simp [h])

theorem lastStrategy_concat :
    lastStrategy settings service (calls ++ [c]) =
      (c.strategy? settings service).getD (lastStrategy settings service calls) := by
  cases h : c.strategy? settings service <;> simp [lastStrategy, h]

/-- The strategy is that of the settings if no other one was given. -/
theorem lastStrategy_eq_of_forall (h : ∀ c ∈ calls, ∀ strategy ∈ c.strategy? settings service,
    strategy = service.strategy settings) :
    lastStrategy settings service calls = service.strategy settings := by
  induction calls using List.reverseRecOn with
  | nil => rfl
  | append_singleton calls c ih =>
    rw [lastStrategy_concat, ih fun c' hc' => h c' (List.mem_append_left _ hc')]
    cases hgiven : c.strategy? settings service with
    | none => rfl
    | some strategy => exact h c (by simp) strategy hgiven

theorem strategyAfter_concat (h : c.isClear = false) :
    strategyAfter settings service (calls ++ [c]) =
      (c.strategy? settings service).getD (strategyAfter settings service calls) := by
  rw [strategyAfter, sinceClear_concat h, lastStrategy_concat, strategyAfter]

theorem strategyAfter_clear :
    strategyAfter settings service (calls ++ [.clear]) = service.strategy settings := by
  rw [strategyAfter, sinceClear_clear]
  rfl

theorem asked_concat (h : c.isClear = false) :
    Asked part (calls ++ [c]) ↔ Asked part calls ∨ c.asksFor part = true := by
  simp [Asked, sinceClear_concat h, or_and_right, exists_or]

theorem not_asked_clear : ¬ Asked part (calls ++ [.clear]) := by
  simp [Asked, sinceClear_clear]

/-- Until a part is asked for, it would be built as the service is now. -/
theorem strategyWhenBuilt_of_not_asked (h : ¬ Asked part calls) :
    strategyWhenBuilt settings service part calls = strategyAfter settings service calls := by
  have hall : ∀ c ∈ sinceClear calls, (!c.asksFor part) = true := by
    simpa [Asked] using h
  rw [strategyWhenBuilt, List.takeWhile_eq_self_iff.2 hall, strategyAfter]

/-- What a part was built with stays, whatever is called until it is forgotten. -/
theorem strategyWhenBuilt_concat_of_asked (h : c.isClear = false) (hasked : Asked part calls) :
    strategyWhenBuilt settings service part (calls ++ [c]) =
      strategyWhenBuilt settings service part calls := by
  obtain ⟨ask, hmem, hask⟩ := hasked
  -- what is in front of the first call for the part ends before the new call
  have hstop : ¬ ∀ c ∈ sinceClear calls, (!c.asksFor part) = true := fun hall => by
    simpa [hask] using hall ask hmem
  have hshort : (List.takeWhile (fun c => !c.asksFor part) (sinceClear calls)).length ≠
      (sinceClear calls).length := fun hlength =>
    hstop (List.takeWhile_eq_self_iff.1 ((List.takeWhile_prefix _).eq_of_length hlength))
  rw [strategyWhenBuilt, sinceClear_concat h, List.takeWhile_append, if_neg hshort,
    strategyWhenBuilt]

/-- A part that is asked for the first time is built as the service is then. -/
theorem strategyWhenBuilt_concat_of_asksFor (h : c.isClear = false)
    (hask : c.asksFor part = true) (hnew : ¬ Asked part calls) :
    strategyWhenBuilt settings service part (calls ++ [c]) =
      strategyAfter settings service calls := by
  have hall : ∀ c ∈ sinceClear calls, (!c.asksFor part) = true := by
    simpa [Asked] using hnew
  have hstop : [c].takeWhile (fun c => !c.asksFor part) = [] := by
    simp [hask]
  rw [strategyWhenBuilt, sinceClear_concat h, List.takeWhile_append_of_pos hall, hstop,
    List.append_nil, strategyAfter]

end

/-! ## What is kept follows the calls -/

/-- A service is kept as it is under its strategy, and is under that of the settings while it is not
kept. -/
structure ServiceFollows (f : Factory) (settings : Settings) (calls : List FactoryCall)
    (service : Service) : Prop where
  kept : ∀ {built : Option Built}, f.find? (.service service) = some built →
    built.map (·.component) =
      (settings.clientUnder? service (strategyAfter settings service calls)).map .client
  missing : f.find? (.service service) = none →
    strategyAfter settings service calls = service.strategy settings

/-- A part around a service is kept from the time when it was first asked for, with the service as
it was then. -/
structure PartFollows (f : Factory) (settings : Settings) (calls : List FactoryCall) (part : Part)
    (service : Service) (make : Settings → Option Client → Component) : Prop where
  kept : ∀ {built : Option Built}, f.find? part = some built →
    Asked part calls ∧ ∃ serial, built = some ⟨serial, make settings
      (settings.clientUnder? service (strategyWhenBuilt settings service part calls))⟩
  missing : f.find? part = none → ¬ Asked part calls

/-- What is kept is what the calls ask for. -/
structure Follows (f : Factory) (settings : Settings) (calls : List FactoryCall) : Prop where
  settings_eq : f.settings = settings
  services : ∀ service, f.ServiceFollows settings calls service
  parts : ∀ {part service make}, BuiltAround part service make →
    f.PartFollows settings calls part service make

section

variable {f f' : Factory} {settings : Settings} {calls calls' : List FactoryCall}
  {c : FactoryCall} {part : Part} {service : Service} {built : Option Built}
  {make : Settings → Option Client → Component}

theorem ServiceFollows.congr (h : f.ServiceFollows settings calls service)
    (hfind : f'.find? (.service service) = f.find? (.service service))
    (hstrategy : strategyAfter settings service calls' = strategyAfter settings service calls) :
    f'.ServiceFollows settings calls' service where
  kept := fun hkept => by
    rw [hstrategy, h.kept (hfind.symm.trans hkept)]
  missing := fun hmissing => by
    rw [hstrategy, h.missing (hfind.symm.trans hmissing)]

theorem serviceFollows_of_keeps (hkeeps : f.Keeps (.service service) built f')
    (hbuilt : built.map (·.component) =
      (settings.clientUnder? service (strategyAfter settings service calls)).map .client) :
    f'.ServiceFollows settings calls service where
  kept := fun hkept => by
    rw [hkeeps.find?_self, Option.some_inj] at hkept
    rw [← hkept, hbuilt]
  missing := fun hmissing => by
    rw [hkeeps.find?_self] at hmissing
    cases hmissing

theorem PartFollows.congr (h : f.PartFollows settings calls part service make)
    (hfind : f'.find? part = f.find? part) : f'.PartFollows settings calls part service make where
  kept := fun hkept => h.kept (hfind.symm.trans hkept)
  missing := fun hmissing => h.missing (hfind.symm.trans hmissing)

/-- A call that does not ask for the part for the first time. -/
theorem PartFollows.concat (h : f.PartFollows settings calls part service make)
    (hclear : c.isClear = false) (hask : c.asksFor part = true → Asked part calls) :
    f.PartFollows settings (calls ++ [c]) part service make where
  kept := fun hkept => by
    obtain ⟨hasked, hbuilt⟩ := h.kept hkept
    rw [strategyWhenBuilt_concat_of_asked hclear hasked]
    exact ⟨(asked_concat hclear).2 (.inl hasked), hbuilt⟩
  missing := fun hmissing hasked =>
    h.missing hmissing (((asked_concat hclear).1 hasked).elim id hask)

/-- A part that is asked for the first time is kept with the service as it is. -/
theorem partFollows_of_keeps {serial : Nat} (hnew : ¬ Asked part calls)
    (hkeeps : f.Keeps part (some ⟨serial, make settings
      (settings.clientUnder? service (strategyAfter settings service calls))⟩) f')
    (hclear : c.isClear = false) (hask : c.asksFor part = true) :
    f'.PartFollows settings (calls ++ [c]) part service make where
  kept := fun hkept => by
    rw [hkeeps.find?_self, Option.some_inj] at hkept
    rw [strategyWhenBuilt_concat_of_asksFor hclear hask hnew]
    exact ⟨(asked_concat hclear).2 (.inr hask), serial, hkept.symm⟩
  missing := fun hmissing => by
    rw [hkeeps.find?_self] at hmissing
    cases hmissing

/-- Where nothing is kept, nothing was asked for and no strategy was given. -/
theorem follows_of_kept_nil (hsettings : f.settings = settings) (hkept : f.kept = [])
    (hstrategy : ∀ service, strategyAfter settings service calls = service.strategy settings)
    (hasked : ∀ part, ¬ Asked part calls) : f.Follows settings calls := by
  have hfind : ∀ part, f.find? part = none := fun part => by
    rw [find?, hkept, List.lookup_nil]
  refine ⟨hsettings, fun service => ⟨fun hfound => ?_, fun _ => hstrategy service⟩,
    fun {part _ _} _ => ⟨fun hfound => ?_, fun _ => hasked part⟩⟩
  · rw [hfind] at hfound
    cases hfound
  · rw [hfind] at hfound
    cases hfound

theorem Follows.of_alike (h : f.Follows settings calls) (halike : f.Alike f') :
    f'.Follows settings calls where
  settings_eq := halike.settings_eq.trans h.settings_eq
  services := fun service => (h.services service).congr (halike.find?_eq rfl) rfl
  parts := fun hpart => (h.parts hpart).congr (halike.find?_eq hpart.isPlain_eq)

/-- A service that is built is under the strategy under which it is built, and the others are as
they were. -/
theorem Follows.keeps (h : f.Follows settings calls) (hkeeps : f.Keeps (.service service) built f')
    (hbuilt : built.map (·.component) =
      (settings.clientUnder? service (strategyAfter settings service calls')).map .client)
    (hothers : ∀ other, other ≠ service →
      strategyAfter settings other calls' = strategyAfter settings other calls)
    (hparts : ∀ {part service make}, BuiltAround part service make →
      f.PartFollows settings calls' part service make) : f'.Follows settings calls' where
  settings_eq := hkeeps.settings_eq.trans h.settings_eq
  services := fun other => by
    by_cases hother : other = service
    · subst hother
      exact serviceFollows_of_keeps hkeeps hbuilt
    · exact (h.services other).congr (hkeeps.find?_of_ne (by simpa using hother))
        (hothers other hother)
  parts := fun hpart => (hparts hpart).congr (hkeeps.find?_of_ne (hpart.ne_service service))

/-- A part that is asked for the first time is built with the service as it is, and the others are
as they were. -/
theorem Follows.keepsPart {serial : Nat} (h : f.Follows settings calls)
    (hpart : BuiltAround part service make) (hnew : ¬ Asked part calls)
    (hkeeps : f.Keeps part (some ⟨serial, make settings
      (settings.clientUnder? service (strategyAfter settings service calls))⟩) f')
    (override : Option String) : f'.Follows settings (calls ++ [.get part override]) where
  settings_eq := hkeeps.settings_eq.trans h.settings_eq
  services := fun other => by
    refine (h.services other).congr (hkeeps.find?_of_ne (hpart.ne_service other).symm) ?_
    rw [strategyAfter_concat rfl, strategy?_of_ne_service hpart.ne_service, Option.getD_none]
  parts := by
    intro other service' make' hother
    by_cases hsame : other = part
    · subst hsame
      obtain ⟨rfl, rfl⟩ := hpart.unique hother
      exact partFollows_of_keeps hnew hkeeps rfl (asksFor_get.2 rfl)
    · refine ((h.parts hother).congr (hkeeps.find?_of_ne hsame)).concat rfl fun hask => ?_
      exact absurd (asksFor_get.1 hask).symm hsame

/-- A call that gives no strategy and does not ask for a part for the first time. -/
theorem Follows.skip (h : f.Follows settings calls) (hclear : c.isClear = false)
    (hstrategy : ∀ service, c.strategy? settings service = none)
    (hasks : ∀ {part service make}, BuiltAround part service make → c.asksFor part = true →
      Asked part calls) : f.Follows settings (calls ++ [c]) where
  settings_eq := h.settings_eq
  services := fun service => (h.services service).congr rfl (by
    rw [strategyAfter_concat hclear, hstrategy service, Option.getD_none])
  parts := fun hpart => (h.parts hpart).concat hclear (hasks hpart)

/-! ## One call -/

/-- A strategy that is given is the one of the service from then on; an unknown one is refused and
changes nothing. -/
theorem Follows.give (h : f.Follows settings calls) (service : Service) (given : String) :
    let c := FactoryCall.get (.service service) (some given)
    (f.call c).2.Follows settings (calls ++ [c]) := by
  intro c
  have hget : f.get (.service service) (some given) =
      f.buildService service (settings.strategyFor service given) := by
    rw [← h.settings_eq]
    exact f.service_given service given
  have hasks : ∀ {part other make}, BuiltAround part other make → c.asksFor part = true →
      Asked part calls := fun hpart hask =>
    absurd (asksFor_get.1 hask).symm (hpart.ne_service service)
  have hothers : ∀ other, other ≠ service → c.strategy? settings other = none :=
    fun other hne => if_neg fun hself => hne hself.1.symm
  by_cases hknown : settings.strategyFor service given ∈ Service.strategies
  · obtain ⟨built, f', hbuild, hkeeps, hbuilt⟩ := f.buildService_of_known service hknown
    have hself : c.strategy? settings service = some (settings.strategyFor service given) :=
      if_pos ⟨rfl, hknown⟩
    rw [call_of_ok (hget.trans hbuild)]
    refine h.keeps hkeeps ?_ (fun other hne => ?_) fun hpart =>
      (h.parts hpart).concat rfl (hasks hpart)
    · rw [strategyAfter_concat rfl, hself, Option.getD_some, hbuilt, h.settings_eq]
    · rw [strategyAfter_concat rfl, hothers other hne, Option.getD_none]
  · rw [call_of_error (hget.trans (f.buildService_of_unknown service hknown))]
    refine h.skip rfl (fun other => ?_) hasks
    by_cases hne : other = service
    · subst hne
      exact if_neg fun hself => hknown hself.2
    · exact hothers other hne

/-- A part without a service changes nothing that has to do with one. -/
theorem Follows.askPlain (h : f.Follows settings calls) (hpart : part.isPlain = true)
    (override : Option String) :
    (f.call (.get part override)).2.Follows settings (calls ++ [.get part override]) := by
  have hne : ∀ service, part ≠ .service service := by
    rintro service rfl
    cases hpart
  obtain ⟨built, f', hget, halike⟩ := get_alike hpart f override
  rw [call_of_ok hget]
  refine (h.of_alike halike).skip rfl (strategy?_of_ne_service hne override settings) ?_
  intro other service make hother hask
  rw [asksFor_get.1 hask, hother.isPlain_eq] at hpart
  cases hpart

section

variable (hsettings : settings.StrategiesKnown) (h : f.Follows settings calls)

include hsettings h

/-- A service that is asked for without a strategy is what its strategy says, and stays under it. -/
theorem Follows.ask (service : Service) :
    ∃ built f', f.service service none = .ok (built, f') ∧
      built.map (·.component) =
        (settings.clientUnder? service (strategyAfter settings service calls)).map .client ∧
      f'.Follows settings calls := by
  cases hfound : f.find? (.service service) with
  | some built => exact ⟨built, f, service_of_kept hfound, (h.services service).kept hfound, h⟩
  | none =>
    obtain ⟨built, f', hbuild, hkeeps, hbuilt⟩ :=
      f.buildService_of_known service (hsettings service)
    -- a service that is not kept is under the strategy of the settings, so building it puts it
    -- under no other one
    rw [h.settings_eq, ← (h.services service).missing hfound] at hbuilt
    refine ⟨built, f', ?_, hbuilt, h.keeps hkeeps hbuilt (fun _ _ => rfl) h.parts⟩
    rw [service_of_missing hfound, h.settings_eq, hbuild]

/-- A part around a service has the service as it was when the part was first asked for. -/
theorem Follows.askPart (hpart : BuiltAround part service make) (override : Option String) :
    ∃ serial f', f.get part override = .ok (some ⟨serial, make settings
        (settings.clientUnder? service (strategyWhenBuilt settings service part calls))⟩, f') ∧
      f'.Follows settings (calls ++ [.get part override]) := by
  cases hfound : f.find? part with
  | some built =>
    obtain ⟨hasked, serial, rfl⟩ := (h.parts hpart).kept hfound
    have hstrategy := strategy?_of_ne_service hpart.ne_service override settings
    exact ⟨serial, f, get_of_kept hpart hfound override,
      h.skip rfl hstrategy fun _ hask => asksFor_get.1 hask ▸ hasked⟩
  | none =>
    have hnew := (h.parts hpart).missing hfound
    -- the service may be built on the way, and only then the part
    obtain ⟨built, f', hservice, hbuilt, h'⟩ := h.ask hsettings service
    have hget := get_of_missing hpart hfound (client_of_service hservice hbuilt) override
    rw [h'.settings_eq] at hget
    rw [strategyWhenBuilt_of_not_asked hnew]
    exact ⟨f'.count, _, hget, h'.keepsPart hpart hnew (f'.keeps_build part _) override⟩

/-- What one call leaves follows the calls together with it. -/
theorem Follows.call (c : FactoryCall) : (f.call c).2.Follows settings (calls ++ [c]) := by
  have haround {part : Part} {service : Service} {make : Settings → Option Client → Component}
      (hpart : BuiltAround part service make) (override : Option String) :
      (f.call (.get part override)).2.Follows settings (calls ++ [.get part override]) := by
    obtain ⟨serial, f', hget, h'⟩ := h.askPart hsettings hpart override
    rw [call_of_ok hget]
    exact h'
  cases c with
  | clear =>
    exact follows_of_kept_nil h.settings_eq rfl (fun _ => strategyAfter_clear)
      fun _ => not_asked_clear
  | get part override =>
    cases part with
    | service service =>
      cases override with
      | none =>
        obtain ⟨built, f', hservice, -, h'⟩ := h.ask hsettings service
        have hget : f.get (.service service) none = .ok (built, f') := hservice
        rw [call_of_ok hget]
        exact h'.skip rfl (fun _ => rfl) fun hother hask =>
          absurd (asksFor_get.1 hask).symm (hother.ne_service service)
      | some given => exact h.give service given
    | extractor => exact haround .extractor override
    | engine => exact haround .engine override
    | deduplicator => exact h.askPlain rfl override
    | store => exact h.askPlain rfl override
    | personalizer => exact h.askPlain rfl override
    | validator => exact h.askPlain rfl override

end

end

/-! ## All calls -/

def after (f : Factory) (calls : List FactoryCall) : Factory :=
  calls.foldl (fun f c => (f.call c).2) f

/-- The answer to a call is the one that it has after the calls in front of it. -/
theorem getElem?_calls (f : Factory) (earlier : List FactoryCall) (c : FactoryCall)
    (later : List FactoryCall) :
    (f.calls (earlier ++ c :: later))[earlier.length]? = some ((f.after earlier).call c).1 := by
  induction earlier generalizing f with
  | nil => rfl
  | cons first earlier ih =>
    rw [List.cons_append, calls, List.length_cons, List.getElem?_cons_succ, ih]
    rfl

theorem follows_after {settings : Settings} (hsettings : settings.StrategiesKnown)
    (calls : List FactoryCall) :
    (({ settings } : Factory).after calls).Follows settings calls := by
  induction calls using List.reverseRecOn with
  | nil => exact follows_of_kept_nil rfl rfl (fun _ => rfl) (by simp [Asked, sinceClear])
  | append_singleton calls c ih =>
    rw [after, List.foldl_concat]
    exact ih.call hsettings c

/-- **Overrides stay.**  After any calls, a service that is asked for without a strategy is there
exactly if its strategy is that of the chat model and there is a key; its strategy is the last one
that was given since everything was forgotten, and that of the settings if none was.  The extractor
and the engine have their service exactly if this was so when they were first asked for.  No such
call is refused.  So all is as the settings say as far as no call gave another strategy. -/
theorem overrides_stay {settings : Settings} (hsettings : settings.StrategiesKnown)
    (earlier later : List FactoryCall) :
    let answer := fun c : FactoryCall =>
      (({ settings } : Factory).calls (earlier ++ c :: later))[earlier.length]?
    (∀ service, ∃ (built : Option Built) (client : Option Client),
      answer (.get (.service service) none) = some (.ok built) ∧
      built.map (·.component) = client.map .client ∧
      (client.isSome ↔
        strategyAfter settings service earlier = "openai" ∧ settings.apiKey ≠ "")) ∧
    (∃ (serial : Nat) (detector : Option Client), answer (.get .extractor none) =
        some (.ok (some ⟨serial, .extractor detector settings.detectorMaxChars⟩)) ∧
      (detector.isSome ↔ strategyWhenBuilt settings .detector .extractor earlier = "openai" ∧
        settings.apiKey ≠ "")) ∧
    (∃ (serial : Nat) (generator : Option Client), answer (.get .engine none) =
        some (.ok (some ⟨serial, .engine generator settings.generatorContextChars⟩)) ∧
      (generator.isSome ↔ strategyWhenBuilt settings .generator .engine earlier = "openai" ∧
        settings.apiKey ≠ "")) ∧
    ∀ service, (∀ c ∈ sinceClear earlier, ∀ strategy ∈ c.strategy? settings service,
        strategy = service.strategy settings) →
      strategyAfter settings service earlier = service.strategy settings ∧
      ∀ part, strategyWhenBuilt settings service part earlier = service.strategy settings := by
  intro answer
  have hfollows := follows_after hsettings earlier
  have hanswer : ∀ c, answer c = some ((({ settings } : Factory).after earlier).call c).1 :=
    fun c => getElem?_calls _ earlier c later
  refine ⟨fun service => ?_, ?_, ?_, fun service hgiven => ⟨?_, fun part => ?_⟩⟩
  · obtain ⟨built, f', hservice, hbuilt, -⟩ := hfollows.ask hsettings service
    have hget : (({ settings } : Factory).after earlier).get (.service service) none =
        .ok (built, f') := hservice
    refine ⟨built, _, ?_, hbuilt, settings.clientUnder?_isSome_iff service _⟩
    rw [hanswer, call_of_ok hget]
  · obtain ⟨serial, f', hget, -⟩ := hfollows.askPart hsettings .extractor none
    refine ⟨serial, _, ?_, settings.clientUnder?_isSome_iff .detector _⟩
    rw [hanswer, call_of_ok hget]
  · obtain ⟨serial, f', hget, -⟩ := hfollows.askPart hsettings .engine none
    refine ⟨serial, _, ?_, settings.clientUnder?_isSome_iff .generator _⟩
    rw [hanswer, call_of_ok hget]
  · exact lastStrategy_eq_of_forall hgiven
  · exact lastStrategy_eq_of_forall fun c hc =>
      hgiven c ((List.takeWhile_prefix _).subset hc)

/-- The detector is given another strategy, the extractor is built, and the detector goes back to
the strategy of the settings.  The generator is given the strategy of the settings and one that
there is not. -/
theorem overrides_stay_switched :
    let settings : Settings := { apiKey := "sk-test", detectorType := "none" }
    let detector (given : String) : FactoryCall := .get (.service .detector) (some given)
    let generator (given : String) : FactoryCall := .get (.service .generator) (some given)
    let earlier : List FactoryCall :=
      [generator "none", .clear, detector "openai", .get .extractor none, detector "",
        generator "openai", generator "anthropic"]
    let answer := fun c : FactoryCall => (({ settings } : Factory).calls (earlier ++ [c]))[7]?
    settings.StrategiesKnown ∧
      strategyAfter settings .detector earlier = "none" ∧
      answer (.get (.service .detector) none) = some (.ok none) ∧
      strategyWhenBuilt settings .detector .extractor earlier = "openai" ∧
      (∃ (serial : Nat) (client : Client),
        answer (.get .extractor none) = some (.ok (some ⟨serial, .extractor client 10000⟩))) ∧
      (∀ c ∈ sinceClear earlier, ∀ strategy ∈ c.strategy? settings .generator,
        strategy = Service.generator.strategy settings) ∧
      strategyWhenBuilt settings .generator .engine earlier = "openai" := by
  intro settings detector generator earlier answer
  have hsettings : settings.StrategiesKnown := by
    intro service
    cases service <;> decide
  have hdetector : strategyAfter settings .detector earlier = "none" := by decide
  have hbuilt : strategyWhenBuilt settings .detector .extractor earlier = "openai" := by decide
  have hgenerator : ∀ c ∈ sinceClear earlier, ∀ strategy ∈ c.strategy? settings .generator,
      strategy = Service.generator.strategy settings := by decide
  obtain ⟨hservices, ⟨serial, client, hextractor, hclient⟩, -, hstays⟩ :=
    overrides_stay hsettings earlier []
  refine ⟨hsettings, hdetector, ?_, hbuilt, ?_, hgenerator, ?_⟩
  · obtain ⟨built, absent, hanswer, hcomponent, hpresent⟩ := hservices .detector
    rw [hdetector] at hpresent
    obtain rfl : absent = none := by simpa using hpresent
    obtain rfl : built = none := by simpa using hcomponent
    exact hanswer
  · obtain ⟨client, rfl⟩ := Option.isSome_iff_exists.1 (hclient.2 ⟨hbuilt, by decide⟩)
    exact ⟨serial, client, hextractor⟩
  · exact (hstays .generator hgenerator).2 .engine

/-- A generator that is switched off in one call stays off, and the engine is built without it,
though the settings name a strategy for it and there is a key. -/
theorem override_outlasts_call :
    let settings : Settings := { apiKey := "sk-test" }
    let calls : List FactoryCall :=
      [.get (.service .generator) (some "none"), .get (.service .generator) none, .get .engine none]
    settings.StrategiesKnown ∧ Service.generator.strategy settings = "openai" ∧
      settings.apiKey ≠ "" ∧
      ({ settings } : Factory).calls calls =
        [.ok none, .ok none, .ok (some ⟨0, .engine none 1000⟩)] := by
  intro settings calls
  refine ⟨fun service => ?_, rfl, by decide, rfl⟩
  cases service <;> decide

end Factory

end Stencil
