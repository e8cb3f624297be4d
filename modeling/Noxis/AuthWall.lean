import Noxis.Dispatch

/-! Authentication walls. An answer of 401, 402 or 403 should take a provider out of
service. The mark is a health value, and a step can fail to set it, or set it back. -/
namespace Noxis

def wallStatuses : List ℕ := [401, 402, 403]

/-- The event is an authentication wall that the provider has put up. -/
def Event.isWall (name : String) : Event → Prop
  | .failed _ provider e => provider = name ∧ e.statusCode ∈ wallStatuses
  | .probed provider code => provider = name ∧ code ∈ wallStatuses
  | _ => False

def Event.sentTo (name : String) : Event → Prop
  | .dispatched _ _ d _ => d.provider = name
  | _ => False

def Walled (name : String) (events : List Event) : Prop := ∃ event ∈ events, event.isWall name

def NoCallAfterWall (name : String) (events : List Event) : Prop :=
  events.Pairwise fun x y => x.isWall name → ¬ y.sentTo name

/-- A transient failure now would trip the breaker of the provider. -/
def AboutToTrip (b : CircuitBreaker) (p : Provider) : Prop :=
  p.circuitState = .halfOpen ∨ b.failureThreshold ≤ p.consecutiveFailures + 1

/-- What the end of a call may do: a wall is answered on the path that marks the provider
(or the router skips it anyway), and a success does not revive a walled provider. -/
def RespectsWallAtEnd (b : CircuitBreaker) (name : String) (past : List Event) (p : Provider)
    (path : Path) : CallOutcome → Prop
  | .success _ => Walled name past →
      ¬ (p.health = .rateLimited ∨ p.health = .cooldown ∨ p.health = .circuitOpen)
  | .apiError e => e.statusCode ∈ wallStatuses → eligibleHealth p.health = true →
      (path = .execute ∧ e.retryable = false) ∨ (e.retryable = true ∧ AboutToTrip b p)
  | .otherError => True

/-- The condition on a step, given the events before it: a wall is noticed, nothing revives
a walled provider, and no run still has it next. -/
structure RespectsWall (sch : Scheduler) (name : String) (past : List Event) (g : Gateway)
    (act : Action) : Prop where
  ended : ∀ call ∈ g.endedCall act, call.1.decision.provider = name →
    RespectsWallAtEnd sch.breaker name past (g.app.provider name) call.1.loop.path call.2
  probed : ∀ probe ∈ g.answeredProbe act, probe.1 = name →
    probe.2 ∈ wallStatuses ∨ Walled name past → 500 ≤ probe.2
  ahead : ∀ d ∈ Gateway.failover sch g act, d.provider = name → ¬ Walled name past

@[simp] theorem walled_append (name : String) (past more : List Event) :
    Walled name (past ++ more) ↔ Walled name past ∨ Walled name more := by
  simp [Walled, or_and_right, exists_or]

@[simp] theorem walled_cons (name : String) (event : Event) (more : List Event) :
    Walled name (event :: more) ↔ event.isWall name ∨ Walled name more := by
  simp [Walled]

@[simp] theorem walled_nil (name : String) : ¬ Walled name [] := by simp [Walled]

section decidability
variable (name : String)

instance : DecidablePred (Event.isWall name)
  | .failed _ _ _ => inferInstanceAs (Decidable (_ ∧ _))
  | .probed _ _ => inferInstanceAs (Decidable (_ ∧ _))
  | .dispatched _ _ _ _ => isFalse id
  | .yielded _ _ => isFalse id

instance : DecidablePred (Event.sentTo name)
  | .dispatched _ _ _ _ => inferInstanceAs (Decidable (_ = _))
  | .failed _ _ _ => isFalse id
  | .probed _ _ => isFalse id
  | .yielded _ _ => isFalse id

instance (events : List Event) : Decidable (Walled name events) :=
  inferInstanceAs (Decidable (∃ event ∈ events, event.isWall name))

instance (events : List Event) : Decidable (NoCallAfterWall name events) :=
  inferInstanceAs (Decidable (events.Pairwise _))

instance (b : CircuitBreaker) (p : Provider) : Decidable (AboutToTrip b p) :=
  inferInstanceAs (Decidable (_ ∨ _))

instance (b : CircuitBreaker) (past : List Event) (p : Provider) (path : Path) :
    DecidablePred (RespectsWallAtEnd b name past p path)
  | .success _ => inferInstanceAs (Decidable (_ → ¬ _))
  | .apiError _ => inferInstanceAs (Decidable (_ → _ → _ ∨ _))
  | .otherError => isTrue True.intro

instance (sch : Scheduler) (past : List Event) (g : Gateway) (act : Action) :
    Decidable (RespectsWall sch name past g act) :=
  decidable_of_iff _
    ⟨fun h => ⟨h.1, h.2.1, h.2.2⟩, fun h => And.intro h.ended (And.intro h.probed h.ahead)⟩

end decidability

/-- The router skips the provider because of its health. -/
def Skipped (s : AppState) (name : String) : Prop :=
  eligibleHealth (s.provider name).health = false

section failures
variable {b : CircuitBreaker} {p : Provider} (now : ℚ)

theorem recordFailure_skipped (skipped : eligibleHealth p.health = false) (transient : Bool) :
    eligibleHealth (b.recordFailure now p transient).health = false := by
  cases transient with
  | false => exact skipped
  | true =>
      rcases b.recordFailure_cases now p with tripped | ⟨-, counted⟩
      · rw [tripped]
        rfl
      · rw [counted]
        exact skipped

theorem recordFailure_trips (close : AboutToTrip b p) :
    eligibleHealth (b.recordFailure now p true).health = false := by
  rcases b.recordFailure_cases now p with tripped | ⟨closed, counted⟩
  · rw [tripped]
    rfl
  · rcases close with half | reached
    · exact absurd half closed
    · have tripped : b.recordFailure now p true =
          b.trip now { p with consecutiveFailures := p.consecutiveFailures + 1 } := by
        have reached' : b.failureThreshold ≤ ((p.consecutiveFailures + 1 : ℕ) : ℤ) := by
          simpa using reached
        simp only [CircuitBreaker.recordFailure, not_true_eq_false, if_false, if_neg closed,
          if_pos reached']
      rw [tripped]
      rfl

end failures

section preservation
variable {sch : Scheduler} {s : AppState} {name : String} {past : List Event}

theorem noteFailure_skipped {provider : String} {e : ProviderAPIError} {path : Path}
    (before : Walled name past → Skipped s name)
    (respects : provider = name →
      RespectsWallAtEnd sch.breaker name past (s.provider name) path (.apiError e))
    (unmarked : ¬ (path = .execute ∧ e.retryable = false))
    (walled : Walled name (past ++ [.failed s.now provider e])) :
    Skipped (sch.noteFailure s provider e) name := by
  by_cases same : name = provider
  · subst same
    rw [Skipped, Scheduler.noteFailure_provider_self]
    by_cases skipped : eligibleHealth (s.provider name).health = false
    · exact recordFailure_skipped s.now skipped _
    · have eligible : eligibleHealth (s.provider name).health = true := by
        simpa using skipped
      have wall : e.statusCode ∈ wallStatuses := by
        simp only [walled_append, walled_cons, walled_nil, or_false, Event.isWall, true_and] at walled
        exact walled.resolve_left fun old => skipped (before old)
      obtain marks | ⟨retryable, close⟩ := respects rfl wall eligible
      · exact absurd marks unmarked
      · rw [retryable]
        exact recordFailure_trips s.now close
  · have old : Walled name past := by
      simpa [Event.isWall, Ne.symm same] using walled
    rw [Skipped, Scheduler.noteFailure_provider_other same]
    exact before old

theorem afterTerminal_skipped {provider : String} {e : ProviderAPIError}
    (before : Walled name past → Skipped s name)
    (walled : Walled name (past ++ [.failed s.now provider e])) :
    Skipped (sch.afterTerminal s provider e) name := by
  by_cases same : name = provider
  · subst same
    simp [Skipped, Scheduler.afterTerminal, eligibleHealth]
  · have old : Walled name past := by
      simpa [Event.isWall, Ne.symm same] using walled
    rw [Skipped, (agreesOn_afterTerminal sch s e same).provider]
    exact before old

theorem noteSuccess_skipped {a : Attempt} (before : Skipped s name)
    (respects : a.decision.provider = name →
      ¬ ((s.provider name).health = .rateLimited ∨ (s.provider name).health = .cooldown ∨
        (s.provider name).health = .circuitOpen)) :
    Skipped ((Scheduler.noteSuccess s a).release a.decision.provider) name := by
  by_cases same : a.decision.provider = name
  · subst same
    rw [Skipped, AppState.release_provider, Scheduler.noteSuccess_provider_self,
      CircuitBreaker.recordSuccess, if_neg (respects rfl)]
    exact before
  · rw [Skipped, AppState.release_provider, Scheduler.noteSuccess_provider_other (Ne.symm same)]
    exact before

/-- The loop head puts up no wall and touches no provider. -/
theorem continues_skipped {l : LoopState} {rest : List RoutingDecision} {s' : AppState}
    {st : RunState} {more : List Event} (next : sch.Continues s l rest s' st more)
    (before : Walled name past → Skipped s name) (walled : Walled name (past ++ more)) :
    Skipped s' name := by
  cases next with
  | stop => exact before (by simpa using walled)
  | dispatch => exact before (by simpa [Event.isWall] using walled)

theorem resumes_skipped {st st' : RunState} {act : RunAction} {s' : AppState}
    {more : List Event} (moved : sch.Resumes s st act s' st' more)
    (before : Walled name past → Skipped s name)
    (respects : ∀ o u a, act = .callEnded o u → st = .calling a → a.decision.provider = name →
      RespectsWallAtEnd sch.breaker name past (s.provider name) a.loop.path o)
    (walled : Walled name (past ++ more)) : Skipped s' name := by
  cases moved with
  | emit => exact before (by simpa [Event.isWall] using walled)
  | pull => exact before (by simpa using walled)
  | @success a result u e =>
      have old : Walled name past := by simpa using walled
      exact noteSuccess_skipped (before old) fun same => respects _ u a rfl rfl same old
  | otherError => exact before (by simpa using walled)
  | @terminal a e u s' st' rest path final next =>
      have split : past ++ Event.failed s.now a.decision.provider e :: rest =
          (past ++ [.failed s.now a.decision.provider e]) ++ rest := by simp
      rw [split] at walled
      exact continues_skipped next (afterTerminal_skipped before) walled
  | @raised a e u path final =>
      exact noteFailure_skipped before (fun same => respects _ u a rfl rfl same)
        (fun marked => by simp [path] at marked) walled
  | @overflow a e u retryable early large =>
      exact noteFailure_skipped before (fun same => respects _ u a rfl rfl same)
        (fun marked => by simp [retryable] at marked) walled
  | @backoff a e u delay retryable early delayed =>
      exact noteFailure_skipped before (fun same => respects _ u a rfl rfl same)
        (fun marked => by simp [retryable] at marked) walled
  | wake due next => exact continues_skipped next before walled
  | cancel => exact before (by simpa using walled)

/-- A sweep leaves every provider that it does not report reachable skipped. -/
theorem sweepNext_skipped (kind : SweepKind) (names : List String) {s : AppState}
    (before : Skipped s name) : Skipped (sweepNext kind s names).1 name := by
  have marked : ∀ (s : AppState) (other : String) (h : ProviderHealth), eligibleHealth h = false →
      Skipped s name → Skipped (s.onProvider other (·.withHealth h)) name := by
    intro s other h ineligible skipped
    by_cases same : name = other
    · subst same
      simpa [Skipped] using ineligible
    · rw [Skipped, s.onProvider_provider_other _ same]
      exact skipped
  induction names generalizing s with
  | nil => exact before
  | cons first rest ih =>
      unfold sweepNext
      cases kind with
      | monitor =>
          dsimp only
          split_ifs
          · exact ih (marked s first .rateLimited rfl before)
          · exact marked s first .checking rfl before
      | verify =>
          dsimp only
          split_ifs
          · exact ih before
          · exact marked s first .checking rfl before

theorem noteProbe_skipped {kind : SweepKind} {probed : String} {answer : ProbeAnswer}
    (before : Walled name past → Skipped s name)
    (respects : ∀ code, probed = name → answer = .status code →
      code ∈ wallStatuses ∨ Walled name past → 500 ≤ code)
    (walled : Walled name (past ++ probeEvents probed answer)) :
    Skipped (noteProbe s kind probed answer) name := by
  by_cases same : name = probed
  · subst same
    have health : ((noteProbe s kind name answer).provider name).health =
        if healthCheck answer then .healthy else .unavailable := by
      simp [noteProbe]
    have unreachable : healthCheck answer = false := by
      cases answer with
      | exception => rfl
      | status code =>
          have cause : code ∈ wallStatuses ∨ Walled name past := by
            simpa [probeEvents, Event.isWall, or_comm] using walled
          simpa [healthCheck] using respects code rfl rfl cause
    rw [Skipped, health, unreachable]
    rfl
  · have old : Walled name past := by
      cases answer <;> simpa [probeEvents, Event.isWall, Ne.symm same] using walled
    rw [Skipped, noteProbe, s.onProvider_provider_other _ same]
    exact before old

end preservation

namespace Gateway

variable {sch : Scheduler} {name : String} {past : List Event} {g g' : Gateway} {act : Action}
  {more : List Event}

theorem step_skipped (before : Walled name past → Skipped g.app name)
    (moved : step sch g act = some (g', more)) (respects : RespectsWall sch name past g act)
    (walled : Walled name (past ++ more)) : Skipped g'.app name := by
  cases step_steps moved with
  | elapse => exact before (by simpa using walled)
  | begin admission fresh taken next =>
      refine continues_skipped next (fun old => ?_) walled
      rcases admission.effect name with same | ⟨-, eligible, -⟩
      · rw [Skipped, same]
        exact before old
      · have skipped := before old
        rw [Skipped, eligible.1] at skipped
        exact absurd skipped (by simp)
  | run runs moved =>
      refine resumes_skipped moved before ?_ walled
      rintro o u a rfl rfl same
      exact respects.ended (a, o) (by simp [endedCall, resumed_getElem runs]) same
  | @beginSweep kind app sw change next =>
      have swept := sweepNext_skipped kind g.app.registry.all (before (by simpa using walled))
      rw [next] at swept
      exact swept
  | @sweep j act sw sw' app more found swept =>
      cases sw with
      | finished => simp [sweepStep] at swept
      | checking kind probed rest =>
          cases act with
          | cancel =>
              simp only [sweepStep, Option.some.injEq, Prod.mk.injEq] at swept
              obtain ⟨rfl, -, rfl⟩ := swept
              exact before (by simpa using walled)
          | answered answer =>
              simp only [sweepStep, Option.some.injEq, Prod.mk.injEq] at swept
              obtain ⟨rfl, -, rfl⟩ := swept
              refine sweepNext_skipped kind rest (noteProbe_skipped before ?_ walled)
              rintro code same rfl
              exact respects.probed (probed, code) (by simp [answeredProbe, found]) same
  | setEnabled => simpa [Skipped, AppState.provider] using before (by simpa using walled)

/-- Within one step a failed call and the next call go to different providers. -/
theorem step_noCallAfterWall (wf : g.WellFormed) (moved : step sch g act = some (g', more)) :
    NoCallAfterWall name more := by
  have single : ∀ event : Event, NoCallAfterWall name [event] := fun _ => List.pairwise_singleton _ _
  have head : ∀ {s l rest s' st events}, sch.Continues s l rest s' st events →
      NoCallAfterWall name events := by
    intro s l rest s' st events next
    cases next with
    | stop => exact .nil
    | dispatch => exact single _
  cases step_steps moved with
  | begin admission fresh taken next => exact head next
  | @run pre post st st' act app more runs moved =>
      have distinct : ∀ a, st.attempt = some a → a.Distinct := wf st (by simp [runs])
      cases moved with
      | @terminal a e u s' st' rest path final next =>
          refine List.pairwise_cons.mpr ⟨?_, head next⟩
          rintro event sent ⟨rfl, -⟩ called
          cases event with
          | dispatched s k d call =>
              obtain ⟨-, -, first, -⟩ := continues_dispatched next sent
              exact (distinct a rfl).head_ne first called
          | _ => exact called
      | wake due next => exact head next
      | emit => exact single _
      | raised => exact single _
      | backoff => exact single _
      | overflow => exact single _
      | _ => exact .nil
  | sweep found swept =>
      rcases sweepStep_events swept with rfl | ⟨probed, code, rfl⟩
      · exact .nil
      · exact single _
  | _ => exact .nil

theorem step_not_sentTo (wf : g.WellFormed) (before : Walled name past → Skipped g.app name)
    (moved : step sch g act = some (g', more)) (respects : RespectsWall sch name past g act)
    (walled : Walled name past) {event : Event} (seen : event ∈ more) : ¬ event.sentTo name := by
  cases event with
  | dispatched s k d call =>
      intro called
      have called : d.provider = name := called
      rcases dispatched_of_step wf moved seen with ⟨request, ds, admission, member⟩ | ⟨next, -⟩
      · have eligible := (admission.eligible d member).1
        rw [called, before walled] at eligible
        exact absurd eligible (by simp)
      · exact respects.ahead d next called walled
  | _ => exact id

end Gateway

/-- In every run whose steps respect the walls of a provider, none of its walls is followed
by a chat call to it. -/
theorem no_call_after_wall (sch : Scheduler) (now : ℚ) (names : List String)
    (nodup : names.Nodup) (config : String → ProviderConfig) (name : String)
    (ts : List GatewayTransition) (g : Gateway)
    (run : GatewayRun sch (.boot now names nodup config) ts g)
    (respects : ∀ past t later, ts = past ++ t :: later →
      RespectsWall sch name (LabelledRun.eventsOf past) t.before t.action) :
    NoCallAfterWall name (LabelledRun.eventsOf ts) := by
  have invariant := run.invariant_under
    (fun past t => RespectsWall sch name (LabelledRun.eventsOf past) t.before t.action)
    (fun past (g : Gateway) => NoCallAfterWall name (LabelledRun.eventsOf past) ∧
      (Walled name (LabelledRun.eventsOf past) → Skipped g.app name))
    ⟨.nil, fun walled => absurd walled (walled_nil name)⟩ ?_ respects
  · exact invariant.1
  · rintro past t run ⟨quiet, skipped⟩ valid meets
    have wf := Gateway.run_wellFormed (Gateway.boot_wellFormed now names nodup config) run
    rw [LabelledRun.eventsOf_snoc]
    refine ⟨?_, Gateway.step_skipped skipped valid meets⟩
    refine List.pairwise_append.mpr ⟨quiet, Gateway.step_noCallAfterWall wf valid, ?_⟩
    intro x old y new wall
    exact Gateway.step_not_sentTo wf skipped valid meets ⟨x, old, wall⟩ new

/-- A call to `a` is answered with 401, `b` serves the request, then the monitor probes `a`
and its `/models` endpoint answers with a status. -/
def wallThenProbe (status : ℕ) : List Action :=
  [.begin .execute (Demo.request "m"), .run 0 (Demo.fails 401), .run 0 (Demo.succeeds "b"),
    .beginSweep .monitor, .sweep 0 (.answered (.status status)), .begin .execute (Demo.request "m")]

theorem no_call_after_wall_unreachable :
    ∃ ts g, GatewayRun Demo.scheduler (Demo.gateway fun _ => Demo.config [] 10) ts g ∧
      Walled "a" (LabelledRun.eventsOf ts) ∧ NoCallAfterWall "a" (LabelledRun.eventsOf ts) := by
  have evaluated : Demo.passes (Demo.gateway fun _ => Demo.config [] 10) (wallThenProbe 503)
      (fun r => decide (Walled "a" (LabelledRun.eventsOf r.2)) &&
        LabelledRun.holdsAlong (fun past t => decide (RespectsWall Demo.scheduler "a"
          (LabelledRun.eventsOf past) t.before t.action)) [] r.2) = true := by decide +kernel
  obtain ⟨ts, g, run, found⟩ := Demo.exists_run evaluated
  simp only [Bool.and_eq_true, decide_eq_true_eq] at found
  refine ⟨ts, g, run, found.1, no_call_after_wall _ _ _ _ _ _ ts g run ?_⟩
  rintro past t later rfl
  simpa using LabelledRun.holdsAlong_split found.2

theorem call_after_wall :
    ∃ ts g, GatewayRun Demo.scheduler (Demo.gateway fun _ => Demo.config [] 10) ts g ∧
      ¬ NoCallAfterWall "a" (LabelledRun.eventsOf ts) := by
  have evaluated : Demo.passes (Demo.gateway fun _ => Demo.config [] 10) (wallThenProbe 401)
      (fun r => !decide (NoCallAfterWall "a" (LabelledRun.eventsOf r.2))) = true := by
    decide +kernel
  obtain ⟨ts, g, run, found⟩ := Demo.exists_run evaluated
  exact ⟨ts, g, run, by simpa using found⟩

end Noxis
