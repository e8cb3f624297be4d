import Noxis.Scheduler

/-! Probe sweeps: the background or admin-triggered `_check_all_once` and the startup
`verify_keyless_providers`. Each waits for one `/models` probe at a time. -/
namespace Noxis

/-- What the upstream `/models` endpoint answers to a probe. -/
inductive ProbeAnswer where
  | status (code : ℕ)
  | exception

/-- Any answer below 500 counts as reachable; every exception as unreachable. -/
def healthCheck : ProbeAnswer → Bool
  | .status code => decide (code < 500)
  | .exception => false

inductive SweepKind where
  | verify | monitor
  deriving DecidableEq

inductive SweepState where
  | checking (kind : SweepKind) (name : String) (rest : List String)
  | finished

/-- To the next probe of the sweep. The monitor skips rate-limited providers, the
verification those that are not keyless. -/
def sweepNext (kind : SweepKind) : AppState → List String → AppState × SweepState
  | s, [] => (s, .finished)
  | s, name :: rest =>
      match kind with
      | .monitor =>
          if (s.rateLimiter.window name).isRateLimited s.now then
            sweepNext kind (s.onProvider name (·.withHealth .rateLimited)) rest
          else (s.onProvider name (·.withHealth .checking), .checking kind name rest)
      | .verify =>
          if (s.provider name).config.providerType ≠ .keyless then sweepNext kind s rest
          else (s.onProvider name (·.withHealth .checking), .checking kind name rest)

/-- The health a completed probe sets. Only the monitor stamps the time of the check. -/
def noteProbe (s : AppState) (kind : SweepKind) (name : String) (answer : ProbeAnswer) :
    AppState :=
  s.onProvider name fun p =>
    let p := match kind with
      | .monitor => { p with lastChecked := s.now }
      | .verify => p
    p.withHealth (if healthCheck answer then .healthy else .unavailable)

inductive SweepAction where
  | answered (answer : ProbeAnswer)
  | cancel

def probeEvents (name : String) : ProbeAnswer → List Event
  | .status code => [.probed name code]
  | .exception => []

def sweepStep (s : AppState) : SweepState → SweepAction → Option (AppState × SweepState × List Event)
  | .checking kind name rest, .answered answer =>
      let (s, next) := sweepNext kind (noteProbe s kind name answer) rest
      some (s, next, probeEvents name answer)
  | .checking _ _ _, .cancel => some (s, .finished, [])
  | .finished, _ => none

/-- The only event of a sweep is the answer to a probe. -/
theorem sweepStep_events {s s' : AppState} {sw sw' : SweepState} {a : SweepAction}
    {events : List Event} (step : sweepStep s sw a = some (s', sw', events)) :
    events = [] ∨ ∃ name code, events = [.probed name code] := by
  cases sw with
  | finished => simp [sweepStep] at step
  | checking kind name rest =>
      cases a with
      | cancel =>
          simp only [sweepStep, Option.some.injEq, Prod.mk.injEq] at step
          exact .inl step.2.2.symm
      | answered answer =>
          simp only [sweepStep, Option.some.injEq, Prod.mk.injEq] at step
          cases answer with
          | status code => exact .inr ⟨name, code, step.2.2.symm⟩
          | exception => exact .inl step.2.2.symm

/-- A sweep writes nothing but the health of providers and the time of their check. -/
structure OnlyHealth (s s' : AppState) : Prop where
  now : s'.now = s.now
  rateLimiter : s'.rateLimiter = s.rateLimiter
  names : s'.registry.names = s.registry.names
  disabled : s'.registry.disabledOverrides = s.registry.disabledOverrides
  config : ∀ p, (s'.provider p).config = (s.provider p).config
  circuit : ∀ p, (s'.provider p).circuitState = (s.provider p).circuitState
  inFlight : ∀ p, (s'.provider p).halfOpenCallsInFlight = (s.provider p).halfOpenCallsInFlight

theorem OnlyHealth.refl (s : AppState) : OnlyHealth s s :=
  ⟨rfl, rfl, rfl, rfl, fun _ => rfl, fun _ => rfl, fun _ => rfl⟩

theorem OnlyHealth.trans {s₁ s₂ s₃ : AppState} (h : OnlyHealth s₁ s₂) (h' : OnlyHealth s₂ s₃) :
    OnlyHealth s₁ s₃ :=
  ⟨h'.now.trans h.now, h'.rateLimiter.trans h.rateLimiter, h'.names.trans h.names,
    h'.disabled.trans h.disabled, fun p => (h'.config p).trans (h.config p),
    fun p => (h'.circuit p).trans (h.circuit p), fun p => (h'.inFlight p).trans (h.inFlight p)⟩

theorem onlyHealth_onProvider (s : AppState) (name : String) (f : Provider → Provider)
    (config : ∀ p, (f p).config = p.config)
    (circuit : ∀ p, (f p).circuitState = p.circuitState)
    (inFlight : ∀ p, (f p).halfOpenCallsInFlight = p.halfOpenCallsInFlight) :
    OnlyHealth s (s.onProvider name f) := by
  refine ⟨rfl, rfl, rfl, rfl, ?_, ?_, ?_⟩
  all_goals
    intro p
    by_cases same : p = name
    · subst same; simp [config, circuit, inFlight]
    · rw [s.onProvider_provider_other _ same]

theorem onlyHealth_withHealth (s : AppState) (name : String) (h : ProviderHealth) :
    OnlyHealth s (s.onProvider name (·.withHealth h)) :=
  onlyHealth_onProvider s name _ (fun _ => rfl) (fun _ => rfl) (fun _ => rfl)

theorem sweepNext_onlyHealth (kind : SweepKind) (names : List String) (s : AppState) :
    OnlyHealth s (sweepNext kind s names).1 := by
  induction names generalizing s with
  | nil => exact .refl s
  | cons name rest ih =>
      unfold sweepNext
      cases kind with
      | monitor =>
          dsimp only
          split_ifs
          · exact (onlyHealth_withHealth s name _).trans (ih _)
          · exact onlyHealth_withHealth s name _
      | verify =>
          dsimp only
          split_ifs
          · exact ih s
          · exact onlyHealth_withHealth s name _

theorem noteProbe_onlyHealth (s : AppState) (kind : SweepKind) (name : String)
    (answer : ProbeAnswer) : OnlyHealth s (noteProbe s kind name answer) :=
  onlyHealth_onProvider s name _ (fun _ => by cases kind <;> rfl) (fun _ => by cases kind <;> rfl)
    (fun _ => by cases kind <;> rfl)

theorem sweepStep_onlyHealth {s s' : AppState} {sw sw' : SweepState} {a : SweepAction}
    {events : List Event} (step : sweepStep s sw a = some (s', sw', events)) :
    OnlyHealth s s' := by
  cases sw with
  | finished => simp [sweepStep] at step
  | checking kind name rest =>
      cases a with
      | answered answer =>
          obtain ⟨rfl, -, -⟩ : (sweepNext kind (noteProbe s kind name answer) rest).1 = s' ∧
              (sweepNext kind (noteProbe s kind name answer) rest).2 = sw' ∧
              probeEvents name answer = events := by simpa [sweepStep] using step
          exact (noteProbe_onlyHealth s kind name answer).trans (sweepNext_onlyHealth kind rest _)
      | cancel =>
          obtain ⟨rfl, -, -⟩ : s = s' ∧ SweepState.finished = sw' ∧ [] = events := by
            simpa [sweepStep] using step
          exact .refl s

end Noxis
