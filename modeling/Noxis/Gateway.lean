import Noxis.HealthMonitor
import Noxis.Library.LabelledRun

/-! The running gateway: any number of `execute` and `execute_stream` runs, probe sweeps and
admin switches, interleaved at their await points under a clock that never goes back. -/
namespace Noxis

/-- `periods` is a history variable that no transition reads: how many half-open
periods each provider has begun. -/
structure Gateway where
  app : AppState
  runs : List RunState := []
  sweeps : List SweepState := []
  periods : String → ℕ := fun _ => 0

inductive Action where
  | elapse (dt : ℚ≥0)
  | begin (path : Path) (request : ChatCompletionRequest)
  | run (i : ℕ) (a : RunAction)
  | beginSweep (kind : SweepKind)
  | sweep (j : ℕ) (a : SweepAction)
  | setEnabled (name : String) (enabled : Bool)

namespace Gateway

/-- A freshly started process: every provider untested and closed, no usage recorded. -/
def boot (now : ℚ) (names : List String) (nodup : names.Nodup)
    (config : String → ProviderConfig) : Gateway :=
  { app :=
      { now
        registry := { names, nodup, provider := fun name => .fresh (config name) }
        rateLimiter := fun _ => {}
        latencyStats := fun _ => none } }

/-- The history variable after a ranking: a new period where a circuit became half-open. -/
def nextPeriods (before after : AppState) (periods : String → ℕ) (name : String) : ℕ :=
  if (before.provider name).circuitState = .opened ∧ (after.provider name).circuitState = .halfOpen
  then periods name + 1 else periods name

/-- The trial slots taken for the admitted decisions, each with its period. -/
def trialsOf (app : AppState) (periods : String → ℕ) (decisions : List RoutingDecision) :
    List (String × ℕ) :=
  (decisions.filter fun d => (app.provider d.provider).circuitState = .halfOpen).map
    fun d => (d.provider, periods d.provider)

variable (sch : Scheduler)

def step (g : Gateway) : Action → Option (Gateway × List Event)
  | .elapse dt => some ({ g with app := g.app.elapse dt }, [])
  | .begin path request =>
      let (decisions, app) := sch.eligibleDecisions g.app request
      let periods := nextPeriods g.app app g.periods
      let l : LoopState := { path, request, trials := trialsOf app periods decisions }
      let (app, st, events) := sch.enter app l decisions
      some ({ g with app, runs := g.runs ++ [st], periods }, events)
  | .run i a =>
      (g.runs[i]?).bind fun st => (sch.runStep g.app st a).map fun (app, st, events) =>
        ({ g with app, runs := g.runs.set i st }, events)
  | .beginSweep kind =>
      let (app, sw) := sweepNext kind g.app g.app.registry.all
      some ({ g with app, sweeps := g.sweeps ++ [sw] }, [])
  | .sweep j a =>
      (g.sweeps[j]?).bind fun sw => (sweepStep g.app sw a).map fun (app, sw, events) =>
        ({ g with app, sweeps := g.sweeps.set j sw }, events)
  | .setEnabled name enabled =>
      some ({ g with app :=
        { g.app with registry := (g.app.registry.setEnabled name enabled).2 } }, [])

/-- A resumed run is one element of the list of runs. -/
theorem step_run {g g' : Gateway} {i : ℕ} {a : RunAction} {events : List Event}
    (h : step sch g (.run i a) = some (g', events)) :
    ∃ pre st post app st', g.runs = pre ++ st :: post ∧ pre.length = i ∧
      sch.runStep g.app st a = some (app, st', events) ∧
      g' = { g with app, runs := pre ++ st' :: post } := by
  simp only [step, Option.bind_eq_some_iff, Option.map_eq_some_iff] at h
  obtain ⟨st, found, ⟨app, st', evs⟩, moved, eq⟩ := h
  obtain ⟨rfl, rfl⟩ : { g with app, runs := g.runs.set i st' } = g' ∧ evs = events := by
    simpa using eq
  obtain ⟨lt, eq⟩ := List.getElem?_eq_some_iff.mp found
  refine ⟨g.runs.take i, st, g.runs.drop (i + 1), app, st', ?_, ?_, moved, ?_⟩
  · rw [← eq, List.getElem_cons_drop, List.take_append_drop]
  · rw [List.length_take, Nat.min_eq_left lt.le]
  · rw [List.set_eq_take_append_cons_drop, if_pos lt]

theorem step_sweep {g g' : Gateway} {j : ℕ} {a : SweepAction} {events : List Event}
    (h : step sch g (.sweep j a) = some (g', events)) :
    ∃ sw app sw', g.sweeps[j]? = some sw ∧ sweepStep g.app sw a = some (app, sw', events) ∧
      g' = { g with app, sweeps := g.sweeps.set j sw' } := by
  simp only [step, Option.bind_eq_some_iff, Option.map_eq_some_iff] at h
  obtain ⟨sw, found, ⟨app, sw', evs⟩, moved, eq⟩ := h
  obtain ⟨rfl, rfl⟩ : { g with app, sweeps := g.sweeps.set j sw' } = g' ∧ evs = events := by
    simpa using eq
  exact ⟨sw, app, sw', found, moved, rfl⟩

end Gateway

/-- A transition and a run of the gateway under a scheduler's constants. -/
abbrev GatewayTransition := LabelledRun.Transition Gateway Action Event

abbrev GatewayRun (sch : Scheduler) : Gateway → List GatewayTransition → Gateway → Prop :=
  LabelledRun.Run (Gateway.step sch)

/-! Small concrete values, on which runs can be evaluated. -/
namespace Demo

def config (models : List ModelName) (maxConcurrency : ℕ) : ProviderConfig :=
  { providerType := .keyless, baseUrl := "http://localhost:9001/v1",
    models := models.map fun name => { name }, rateLimit := { maxConcurrency } }

def request (model : ModelName) : ChatCompletionRequest :=
  { model, messages := [{ role := .user, content := some (.text "hello") }],
    nonEmptyMessages := List.cons_ne_nil _ _ }

/-- One failure trips the breaker; one trial is allowed while half-open. -/
def scheduler : Scheduler :=
  { breaker := { failureThreshold := 1, cooldownSeconds := 30, halfOpenMaxCalls := 1 },
    maxRetries := 3, backoffBase := 1 / 2, backoffCap := 8 }

def gateway (config : String → ProviderConfig) : Gateway :=
  .boot 1000 ["a", "b"] (by decide) config

def apiError (statusCode : ℕ) : ProviderAPIError :=
  { statusCode, message := "upstream error",
    retryable := decide (statusCode ∈ transientStatusCodes) }

def half : Sample := ⟨1 / 2, by norm_num, by norm_num⟩

def fails (statusCode : ℕ) : RunAction := .callEnded (.apiError (apiError statusCode)) half

def succeeds (provider : String) : RunAction :=
  .callEnded (.success { raw := .null, latencyMs := 120, providerName := provider }) half

/-- Whether a list of actions can be carried out and the run passes a check. -/
def passes (g : Gateway) (actions : List Action)
    (check : Gateway × List GatewayTransition → Bool) : Bool :=
  (LabelledRun.exec (Gateway.step scheduler) g actions).any check

theorem exists_run {g : Gateway} {actions : List Action}
    {check : Gateway × List GatewayTransition → Bool} (ok : passes g actions check = true) :
    ∃ ts g', GatewayRun scheduler g ts g' ∧ check (g', ts) = true :=
  LabelledRun.run_of_check actions ok

end Demo
end Noxis
