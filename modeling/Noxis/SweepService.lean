import Noxis.Readmission

/-! A sweep in progress. The monitor marks a provider as CHECKING before it awaits the
probe, and the router takes HEALTHY and UNKNOWN providers only. -/
namespace Noxis

def AppState.Ranked (s : AppState) (request : ChatCompletionRequest) (name : String) : Prop :=
  name ∈ ((s.rank request).1.getD []).map RoutingDecision.provider

instance (s : AppState) (request : ChatCompletionRequest) (name : String) :
    Decidable (s.Ranked request name) := inferInstanceAs (Decidable (_ ∈ _))

/-- The message with which a run was answered 503. -/
def RunState.unavailable : RunState → Option String
  | .finished (.unavailable message) => some message
  | _ => none

/-- The provider whose check a sweep of the monitor waits for. -/
def SweepState.monitored : SweepState → Option String
  | .checking .monitor name _ => some name
  | _ => none

/-- The provider that a sweep of the monitor reaches in this step. -/
def reached (t : GatewayTransition) : Option String :=
  match t.action with
  | .beginSweep .monitor => t.after.sweeps.getLast?.bind SweepState.monitored
  | .sweep j (.answered _) => (t.after.sweeps[j]?).bind SweepState.monitored
  | _ => none

theorem ranked_iff {s : AppState} {request : ChatCompletionRequest} {name : String} :
    s.Ranked request name ↔
      name ∈ candidateProvidersForModel s.registry request.model ∧ s.Eligible request name := by
  obtain ⟨ds, ranked, -, member, -⟩ := s.rank_spec request
  rw [AppState.Ranked, ranked]
  exact member name

/-- Where a sweep waits, the provider it waits for is marked. -/
theorem sweepNext_pending {kind : SweepKind} {names : List String} {s : AppState} {name : String}
    (waits : (sweepNext kind s names).2.monitored = some name) :
    ((sweepNext kind s names).1.provider name).health = .checking := by
  induction names generalizing s with
  | nil => simp [sweepNext, SweepState.monitored] at waits
  | cons other rest ih =>
      cases kind with
      | monitor =>
          by_cases limited : (s.rateLimiter.window other).isRateLimited s.now = true
          · simp only [sweepNext, limited, if_true] at waits ⊢
            exact ih waits
          · simp only [sweepNext, limited] at waits ⊢
            obtain rfl : other = name := by simpa [SweepState.monitored] using waits
            simp
      | verify =>
          by_cases keyed : (s.provider other).config.providerType ≠ .keyless
          · simp only [sweepNext, if_pos keyed] at waits ⊢
            exact ih waits
          · simp [sweepNext, if_neg keyed, SweepState.monitored] at waits

namespace Gateway

variable {sch : Scheduler} {name : String} {t : GatewayTransition}

theorem reached_checking (valid : t.Valid (step sch)) (reaches : reached t = some name) :
    (t.after.app.provider name).health = .checking := by
  obtain ⟨g, act, events, g'⟩ := t
  have moved : step sch g act = some (g', events) := valid
  cases step_steps moved with
  | @beginSweep kind app sw change next =>
      have waits : sw.monitored = some name := by
        cases kind with
        | monitor => simpa [reached] using reaches
        | verify => simp [reached] at reaches
      have waits' : (sweepNext kind g.app g.app.registry.all).2.monitored = some name := by
        rw [next]
        exact waits
      have marked := sweepNext_pending waits'
      rw [next] at marked
      exact marked
  | @sweep j act sw sw' app events found swept =>
      cases act with
      | cancel => simp [reached] at reaches
      | answered answer =>
          cases sw with
          | finished => simp [sweepStep] at swept
          | checking kind other rest =>
              obtain ⟨rfl, rfl, -⟩ : (sweepNext kind (noteProbe g.app kind other answer) rest).1 = app ∧
                  (sweepNext kind (noteProbe g.app kind other answer) rest).2 = sw' ∧ _ := by
                simpa [sweepStep] using swept
              obtain ⟨inRange, -⟩ := List.getElem?_eq_some_iff.mp found
              have waits : (sweepNext kind (noteProbe g.app kind other answer) rest).2.monitored =
                  some name := by simpa [reached, inRange] using reaches
              exact sweepNext_pending waits
  | _ => simp [reached] at reaches

end Gateway

/-- The step does not take the provider from the request. -/
def KeepsServing (t : GatewayTransition) (request : ChatCompletionRequest) (name : String) : Prop :=
  t.before.app.Ranked request name → t.after.app.Ranked request name

/-- Whenever a sweep of the monitor reaches a provider that the router would have returned,
the router stops returning it. -/
theorem sweep_interrupts_service (sch : Scheduler) (now : ℚ) (names : List String)
    (nodup : names.Nodup) (config : String → ProviderConfig) (ts : List GatewayTransition)
    (g : Gateway) (run : GatewayRun sch (.boot now names nodup config) ts g)
    (t : GatewayTransition) (member : t ∈ ts) (name : String) (reaches : reached t = some name)
    (request : ChatCompletionRequest) (served : t.before.app.Ranked request name) :
    ¬ KeepsServing t request name := by
  obtain ⟨past, later, eq⟩ := List.append_of_mem member
  obtain ⟨-, valid⟩ := run.split eq
  have marked := Gateway.reached_checking valid reaches
  intro keeps
  have eligible := (ranked_iff.mp (keeps served)).2
  exact absurd eligible.1 (by simp [eligibleHealth, marked])

/-- Two sweeps overlap: the first has found `a` reachable and waits for `b` when the second
begins with `a`. -/
def overlappingSweeps : List Action :=
  [.beginSweep .monitor, .sweep 0 (.answered (.status 200)), .beginSweep .monitor]

theorem sweep_interrupts_service_first_check :
    ∃ ts g, GatewayRun Demo.scheduler (Demo.gateway fun _ => Demo.config [] 10) ts g ∧
      ∃ t ∈ ts, ¬ KeepsServing t (Demo.request "m") "a" := by
  have evaluated : Demo.passes (Demo.gateway fun _ => Demo.config [] 10) overlappingSweeps
      (fun r => r.2.any fun t => decide (reached t = some "a" ∧
        t.before.app.Ranked (Demo.request "m") "a")) = true := by decide +kernel
  obtain ⟨ts, g, run, found⟩ := Demo.exists_run evaluated
  obtain ⟨t, member, holds⟩ := List.any_eq_true.mp found
  obtain ⟨reaches, served⟩ := of_decide_eq_true holds
  exact ⟨ts, g, run, t, member,
    sweep_interrupts_service _ _ _ _ _ ts g run t member "a" reaches _ served⟩

/-- Every completed check has passed, and a request finds no provider. -/
theorem request_during_sweeps_unserved :
    ∃ ts g, GatewayRun Demo.scheduler (Demo.gateway fun _ => Demo.config [] 10) ts g ∧
      (∀ t ∈ ts, ∀ check ∈ t.before.completedCheck t.action, check.2 = true) ∧
      (∃ t ∈ ts, reached t = some "a" ∧ t.before.app.Ranked (Demo.request "m") "a" ∧
        ¬ t.after.app.Ranked (Demo.request "m") "a") ∧
      g.runs.map RunState.unavailable = [some noHealthyProvider] := by
  have evaluated : Demo.passes (Demo.gateway fun _ => Demo.config [] 10)
      (overlappingSweeps ++ [.begin .execute (Demo.request "m")])
      (fun r => r.2.all (fun t => decide (∀ check ∈ t.before.completedCheck t.action,
          check.2 = true)) &&
        r.2.any (fun t => decide (reached t = some "a" ∧
          t.before.app.Ranked (Demo.request "m") "a" ∧
          ¬ t.after.app.Ranked (Demo.request "m") "a")) &&
        decide (r.1.runs.map RunState.unavailable = [some noHealthyProvider])) = true := by
    decide +kernel
  obtain ⟨ts, g, run, found⟩ := Demo.exists_run evaluated
  simp only [Bool.and_eq_true, List.all_eq_true, List.any_eq_true, decide_eq_true_eq] at found
  exact ⟨ts, g, run, found.1.1, found.1.2, found.2⟩

end Noxis
