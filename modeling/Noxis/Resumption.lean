import Noxis.Admission

/-! The resumptions of a run as a relation, one constructor for each way the code between
two awaits can go, and where a step of the gateway dispatches a call. -/
namespace Noxis

/-- The iteration an unfinished run is in. -/
def RunState.attempt : RunState → Option Attempt
  | .calling a | .yielding a | .sleeping a _ => some a
  | .finished _ => none

/-- The attempt whose upstream call has been sent and has not ended. -/
def RunState.inCall : RunState → Option Attempt
  | .calling a | .yielding a => some a
  | .sleeping _ _ | .finished _ => none

namespace Scheduler

variable (sch : Scheduler)

/-- What the loop head does: stop, or send the next call. -/
inductive Continues (s : AppState) (l : LoopState) :
    List RoutingDecision → AppState → RunState → List Event → Prop
  | stop {rest : List RoutingDecision} (spent : rest = [] ∨ sch.maxRetries ≤ l.attempts) :
      Continues s l rest s (.finished (exhausted l)) []
  | dispatch {d : RoutingDecision} {rest : List RoutingDecision} (room : l.attempts < sch.maxRetries) :
      Continues s l (d :: rest) (s.acquire d.provider)
        (.calling { loop := l, decision := d, rest, start := s.now })
        [.dispatched s l.attempts d (l.request.withModel d.model)]

theorem nextAttempt_continues (s : AppState) (l : LoopState) (rest : List RoutingDecision) :
    sch.Continues s l rest (sch.nextAttempt s l rest).1 (sch.nextAttempt s l rest).2.1
      (sch.nextAttempt s l rest).2.2 := by
  cases rest with
  | nil => exact .stop (.inl rfl)
  | cons d rest =>
      by_cases spent : sch.maxRetries ≤ l.attempts
      · simp only [nextAttempt, if_pos spent]
        exact .stop (.inr spent)
      · simp only [nextAttempt, if_neg spent]
        exact .dispatch (not_le.mp spent)

variable {sch} in
theorem Continues.provider {s s' : AppState} {l : LoopState} {rest : List RoutingDecision}
    {st : RunState} {events : List Event} (next : sch.Continues s l rest s' st events) :
    s'.provider = s.provider := by
  cases next <;> rfl

/-- Without an earlier error the loop head covers the empty list as well. -/
theorem enter_continues (s : AppState) {l : LoopState} (clean : l.lastError = none)
    (decisions : List RoutingDecision) :
    sch.Continues s l decisions (sch.enter s l decisions).1 (sch.enter s l decisions).2.1
      (sch.enter s l decisions).2.2 := by
  cases decisions with
  | nil =>
      have same : RunEnd.unavailable noHealthyProvider = exhausted l := by simp [exhausted, clean]
      simp only [enter, List.isEmpty_nil, if_true, same]
      exact .stop (.inl rfl)
  | cons d rest => exact sch.nextAttempt_continues s l (d :: rest)

/-- The state in which `execute` goes on after a terminal error. -/
def afterTerminal (s : AppState) (name : String) (e : ProviderAPIError) : AppState :=
  ((sch.noteFailure s name e).onProvider name (·.withHealth .unavailable)).release name

inductive Resumes (s : AppState) :
    RunState → RunAction → AppState → RunState → List Event → Prop
  | emit {a : Attempt} {chunk : Json} (stream : a.loop.path = .executeStream) :
      Resumes s (.calling a) (.emit chunk) s (.yielding { a with startedEmitting := true })
        [.yielded chunk a.decision.provider]
  | pull {a : Attempt} : Resumes s (.yielding a) .pull s (.calling a) []
  | success {a : Attempt} {result : ProviderResult} {u : Sample} {e : RunEnd} :
      Resumes s (.calling a) (.callEnded (.success result) u)
        ((noteSuccess s a).release a.decision.provider) (.finished e) []
  | otherError {a : Attempt} {u : Sample} :
      Resumes s (.calling a) (.callEnded .otherError u) (s.release a.decision.provider)
        (.finished .otherError) []
  | terminal {a : Attempt} {e : ProviderAPIError} {u : Sample} {s' : AppState} {st : RunState}
      {events : List Event} (path : a.loop.path = .execute) (final : e.retryable = false)
      (next : sch.Continues (sch.afterTerminal s a.decision.provider e) (a.loop.failed e)
        a.rest s' st events) :
      Resumes s (.calling a) (.callEnded (.apiError e) u) s' st
        (.failed s.now a.decision.provider e :: events)
  | raised {a : Attempt} {e : ProviderAPIError} {u : Sample} (path : a.loop.path = .executeStream)
      (final : a.startedEmitting = true ∨ e.retryable = false) :
      Resumes s (.calling a) (.callEnded (.apiError e) u)
        ((sch.noteFailure s a.decision.provider e).release a.decision.provider)
        (.finished (.providerError e)) [.failed s.now a.decision.provider e]
  | backoff {a : Attempt} {e : ProviderAPIError} {u : Sample} {delay : ℚ}
      (retryable : e.retryable = true)
      (early : a.loop.path = .execute ∨ a.startedEmitting = false)
      (delayed : backoffDelay (a.loop.failed e).attempts sch.backoffBase sch.backoffCap
        e.retryAfter u = some delay) :
      Resumes s (.calling a) (.callEnded (.apiError e) u)
        (sch.noteFailure s a.decision.provider e)
        (.sleeping { a with loop := a.loop.failed e } (s.now + delay))
        [.failed s.now a.decision.provider e]
  | overflow {a : Attempt} {e : ProviderAPIError} {u : Sample} (retryable : e.retryable = true)
      (early : a.loop.path = .execute ∨ a.startedEmitting = false)
      (large : Overflows (a.loop.failed e).attempts e.retryAfter) :
      Resumes s (.calling a) (.callEnded (.apiError e) u)
        ((sch.noteFailure s a.decision.provider e).release a.decision.provider)
        (.finished .otherError) [.failed s.now a.decision.provider e]
  | wake {a : Attempt} {wakeAt : ℚ} {s' : AppState} {st : RunState} {events : List Event}
      (due : wakeAt ≤ s.now)
      (next : sch.Continues (s.release a.decision.provider) a.loop a.rest s' st events) :
      Resumes s (.sleeping a wakeAt) .wake s' st events
  | cancel {st : RunState} {a : Attempt} (live : st.attempt = some a) :
      Resumes s st .cancel (s.release a.decision.provider) (.finished .cancelled) []

/-- Behind a retryable failure the run sleeps, or no delay can be computed. -/
theorem backOff_cases (s : AppState) (l : LoopState) (name : String) (e : ProviderAPIError)
    (u : Sample) :
    (∃ delay, backoffDelay l.attempts sch.backoffBase sch.backoffCap e.retryAfter u = some delay ∧
      sch.backOff s l name e u = (s, .backoff l delay)) ∨
    (Overflows l.attempts e.retryAfter ∧
      sch.backOff s l name e u = (s.release name, .stop .otherError)) := by
  cases given : backoffDelay l.attempts sch.backoffBase sch.backoffCap e.retryAfter u with
  | some delay => exact .inl ⟨delay, rfl, by rw [backOff, given]⟩
  | none => exact .inr ⟨backoffDelay_eq_none_iff.mp given, by rw [backOff, given]⟩

theorem backOff_resumes {s s' : AppState} {a : Attempt} {e : ProviderAPIError} {u : Sample}
    {st : RunState} {events : List Event} (retryable : e.retryable = true)
    (early : a.loop.path = .execute ∨ a.startedEmitting = false)
    (settled : sch.settle s a (.apiError e) u = sch.backOff (sch.noteFailure s a.decision.provider e)
      (a.loop.failed e) a.decision.provider e u)
    (step : sch.runStep s (.calling a) (.callEnded (.apiError e) u) = some (s', st, events)) :
    sch.Resumes s (.calling a) (.callEnded (.apiError e) u) s' st events := by
  rcases sch.backOff_cases (sch.noteFailure s a.decision.provider e) (a.loop.failed e)
    a.decision.provider e u with ⟨delay, given, outcome⟩ | ⟨large, outcome⟩
  · simp only [runStep, settled, outcome, Option.some.injEq, Prod.mk.injEq] at step
    obtain ⟨rfl, rfl, rfl⟩ := step
    exact .backoff retryable early given
  · simp only [runStep, settled, outcome, Option.some.injEq, Prod.mk.injEq] at step
    obtain ⟨rfl, rfl, rfl⟩ := step
    exact .overflow retryable early large

theorem callEnded_resumes {s s' : AppState} {a : Attempt} {o : CallOutcome} {u : Sample}
    {st : RunState} {events : List Event}
    (step : sch.runStep s (.calling a) (.callEnded o u) = some (s', st, events)) :
    sch.Resumes s (.calling a) (.callEnded o u) s' st events := by
  cases o with
  | success result =>
      cases path : a.loop.path with
      | execute =>
          simp only [runStep, settle, path, settleExecute, Option.some.injEq, Prod.mk.injEq] at step
          obtain ⟨rfl, rfl, rfl⟩ := step
          exact .success
      | executeStream =>
          simp only [runStep, settle, path, settleStream, Option.some.injEq, Prod.mk.injEq] at step
          obtain ⟨rfl, rfl, rfl⟩ := step
          exact .success
  | otherError =>
      cases path : a.loop.path with
      | execute =>
          simp only [runStep, settle, path, settleExecute, Option.some.injEq, Prod.mk.injEq] at step
          obtain ⟨rfl, rfl, rfl⟩ := step
          exact .otherError
      | executeStream =>
          simp only [runStep, settle, path, settleStream, Option.some.injEq, Prod.mk.injEq] at step
          obtain ⟨rfl, rfl, rfl⟩ := step
          exact .otherError
  | apiError e =>
      cases path : a.loop.path with
      | execute =>
          cases final : e.retryable with
          | false =>
              simp only [runStep, settle, path, settleExecute, final, Bool.not_false, if_true,
                Option.some.injEq, Prod.mk.injEq] at step
              obtain ⟨rfl, rfl, rfl⟩ := step
              exact .terminal path final (sch.nextAttempt_continues _ _ _)
          | true =>
              refine sch.backOff_resumes final (.inl path) ?_ step
              simp only [settle, path, settleExecute, final, Bool.not_true, Bool.false_eq_true,
                if_false]
      | executeStream =>
          by_cases final : a.startedEmitting = true ∨ e.retryable = false
          · have test : (a.startedEmitting || !e.retryable) = true := by simpa using final
            simp only [runStep, settle, path, settleStream, test, if_true, Option.some.injEq,
              Prod.mk.injEq] at step
            obtain ⟨rfl, rfl, rfl⟩ := step
            exact .raised path final
          · have test : (a.startedEmitting || !e.retryable) = false := by simpa using final
            simp only [not_or, Bool.not_eq_true, Bool.not_eq_false] at final
            refine sch.backOff_resumes final.2 (.inr final.1) ?_ step
            simp only [settle, path, settleStream, test, Bool.false_eq_true, if_false]

theorem runStep_resumes {s s' : AppState} {st st' : RunState} {a : RunAction}
    {events : List Event} (step : sch.runStep s st a = some (s', st', events)) :
    sch.Resumes s st a s' st' events := by
  cases st with
  | calling at' =>
      cases a with
      | emit chunk =>
          cases path : at'.loop.path with
          | execute => simp [runStep, path] at step
          | executeStream =>
              simp only [runStep, path, Option.some.injEq, Prod.mk.injEq] at step
              obtain ⟨rfl, rfl, rfl⟩ := step
              exact .emit path
      | callEnded o u => exact sch.callEnded_resumes step
      | cancel =>
          simp only [runStep, Option.some.injEq, Prod.mk.injEq] at step
          obtain ⟨rfl, rfl, rfl⟩ := step
          exact .cancel rfl
      | pull => simp [runStep] at step
      | wake => simp [runStep] at step
  | yielding at' =>
      cases a with
      | pull =>
          simp only [runStep, Option.some.injEq, Prod.mk.injEq] at step
          obtain ⟨rfl, rfl, rfl⟩ := step
          exact .pull
      | cancel =>
          simp only [runStep, Option.some.injEq, Prod.mk.injEq] at step
          obtain ⟨rfl, rfl, rfl⟩ := step
          exact .cancel rfl
      | emit chunk => simp [runStep] at step
      | callEnded o u => simp [runStep] at step
      | wake => simp [runStep] at step
  | sleeping at' wakeAt =>
      cases a with
      | wake =>
          by_cases due : wakeAt ≤ s.now
          · simp only [runStep, if_pos due, Option.some.injEq] at step
            have next := sch.nextAttempt_continues (s.release at'.decision.provider) at'.loop at'.rest
            rw [step] at next
            exact .wake due next
          · simp [runStep, due] at step
      | cancel =>
          simp only [runStep, Option.some.injEq, Prod.mk.injEq] at step
          obtain ⟨rfl, rfl, rfl⟩ := step
          exact .cancel rfl
      | emit chunk => simp [runStep] at step
      | callEnded o u => simp [runStep] at step
      | pull => simp [runStep] at step
  | finished e => cases a <;> simp [runStep] at step

end Scheduler

namespace Gateway

/-- What one step of the gateway can do. A new run goes from its ranking to its first await
without yielding; a resumed run and a resumed sweep touch no other task. -/
inductive Steps (sch : Scheduler) (g : Gateway) : Action → Gateway → List Event → Prop
  | elapse {dt : ℚ≥0} : Steps sch g (.elapse dt) { g with app := g.app.elapse dt } []
  | begin {path : Path} {request : ChatCompletionRequest} {ds : List RoutingDecision}
      {app app' : AppState} {l : LoopState} {st : RunState} {events : List Event}
      (admission : sch.Admission g.app request ds app) (fresh : l.attempts = 0)
      (taken : l.trials = trialsOf app (nextPeriods g.app app g.periods) ds)
      (next : sch.Continues app l ds app' st events) :
      Steps sch g (.begin path request)
        { g with app := app', runs := g.runs ++ [st], periods := nextPeriods g.app app g.periods }
        events
  | run {pre post : List RunState} {st st' : RunState} {act : RunAction} {app : AppState}
      {events : List Event} (runs : g.runs = pre ++ st :: post)
      (moved : sch.Resumes g.app st act app st' events) :
      Steps sch g (.run pre.length act) { g with app, runs := pre ++ st' :: post } events
  | beginSweep {kind : SweepKind} {app : AppState} {sw : SweepState}
      (change : OnlyHealth g.app app) (next : sweepNext kind g.app g.app.registry.all = (app, sw)) :
      Steps sch g (.beginSweep kind) { g with app, sweeps := g.sweeps ++ [sw] } []
  | sweep {j : ℕ} {act : SweepAction} {sw sw' : SweepState} {app : AppState} {events : List Event}
      (found : g.sweeps[j]? = some sw) (swept : sweepStep g.app sw act = some (app, sw', events)) :
      Steps sch g (.sweep j act) { g with app, sweeps := g.sweeps.set j sw' } events
  | setEnabled {name : String} {enabled : Bool} :
      Steps sch g (.setEnabled name enabled)
        { g with app := { g.app with registry := (g.app.registry.setEnabled name enabled).2 } } []

theorem step_steps {sch : Scheduler} {g g' : Gateway} {act : Action} {events : List Event}
    (h : step sch g act = some (g', events)) : Steps sch g act g' events := by
  cases act with
  | elapse dt =>
      obtain ⟨rfl, rfl⟩ : { g with app := g.app.elapse dt } = g' ∧ [] = events := by
        simpa [step] using h
      exact .elapse
  | begin path request =>
      simp only [step, Option.some.injEq, Prod.mk.injEq] at h
      obtain ⟨rfl, rfl⟩ := h
      exact .begin (sch.eligibleDecisions_spec g.app request) rfl rfl (sch.enter_continues _ rfl _)
  | run i act =>
      obtain ⟨pre, st, post, app, st', runs, rfl, moved, rfl⟩ := step_run sch h
      exact .run runs (sch.runStep_resumes moved)
  | beginSweep kind =>
      simp only [step, Option.some.injEq, Prod.mk.injEq] at h
      obtain ⟨rfl, rfl⟩ := h
      exact .beginSweep (sweepNext_onlyHealth kind _ _) rfl
  | sweep j act =>
      obtain ⟨sw, app, sw', found, swept, rfl⟩ := step_sweep sch h
      exact .sweep found swept
  | setEnabled name enabled =>
      simp only [step, Option.some.injEq, Prod.mk.injEq] at h
      obtain ⟨rfl, rfl⟩ := h
      exact .setEnabled

end Gateway
end Noxis
