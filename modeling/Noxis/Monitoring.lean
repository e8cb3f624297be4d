import Noxis.HealthApi
import Noxis.RouterSpec
import Noxis.Library.Observation

/-! Monitoring leaves no trace. Between two steps of the gateway any of its reports may be asked
for. The listing of providers trims the usage windows that the router reads, and trimming is all
it does: a gateway that is polled sends the calls that one left alone sends. -/
namespace Noxis

open Observation

/-- What may be asked of a running gateway. -/
inductive Poll where
  | health
  | providersList
  | status

inductive PollAnswer where
  | health (report : HealthReport)
  | providersList (entries : List ProviderEntry)
  | status (byHealth : List (String × ℕ))

/-- The same event. A dispatch carries the state before it, which is the same to the router. -/
inductive Event.Same : Event → Event → Prop
  | dispatched {s s' : AppState} (same : s.SameFrom s') (attempts : ℕ) (d : RoutingDecision)
      (call : ChatCompletionRequest) :
      Same (.dispatched s attempts d call) (.dispatched s' attempts d call)
  | yielded (chunk : Json) (provider : String) :
      Same (.yielded chunk provider) (.yielded chunk provider)
  | failed (time : ℚ) (provider : String) (e : ProviderAPIError) :
      Same (.failed time provider e) (.failed time provider e)
  | probed (provider : String) (status : ℕ) :
      Same (.probed provider status) (.probed provider status)

namespace AppState.SameFrom

variable {s s' : AppState}

theorem provider_eq (h : s.SameFrom s') : s.provider = s'.provider := by
  unfold AppState.provider
  rw [h.registry]

theorem elapse (h : s.SameFrom s') (dt : ℚ≥0) : (s.elapse dt).SameFrom (s'.elapse dt) :=
  (h.call (.elapse dt)).2

theorem acquire (h : s.SameFrom s') (name : String) : (s.acquire name).SameFrom (s'.acquire name) :=
  (h.call (.acquire name)).2

theorem release (h : s.SameFrom s') (name : String) : (s.release name).SameFrom (s'.release name) :=
  (h.call (.release name)).2

theorem observeLatency (h : s.SameFrom s') (name : String) (x : ℚ) :
    (s.observeLatency name x).SameFrom (s'.observeLatency name x) :=
  (h.call (.observeLatency name x)).2

theorem change (h : s.SameFrom s') (f : ProviderRegistry → ProviderRegistry) :
    SameFrom { s with registry := f s.registry } { s' with registry := f s'.registry } :=
  (h.call (.change f)).2

theorem onProvider (h : s.SameFrom s') (name : String) (f : Provider → Provider) :
    (s.onProvider name f).SameFrom (s'.onProvider name f) :=
  h.change fun r => r.modify name f

theorem limiterFailure (h : s.SameFrom s') (name : String) (e : ProviderAPIError) :
    (s.limiterFailure name e).SameFrom (s'.limiterFailure name e) := by
  have counted := (h.call (.recordFailure name)).2
  unfold AppState.limiterFailure
  dsimp only
  by_cases limited : e.statusCode = 429
  · simp only [if_pos limited]
    exact (counted.call (.record429 name e.retryAfter)).2
  · simp only [if_neg limited]
    exact counted

theorem isRateLimited_eq (h : s.SameFrom s') (name : String) :
    (s.rateLimiter.window name).isRateLimited s.now =
      (s'.rateLimiter.window name).isRateLimited s'.now := by
  obtain ⟨-, -, -, -, until_eq⟩ := (h.rateLimiter name).fields
  unfold ProviderUsageWindow.isRateLimited RateLimiter.window
  rw [until_eq, h.now]

theorem noteSuccess (h : s.SameFrom s') (a : Attempt) :
    (Scheduler.noteSuccess s a).SameFrom (Scheduler.noteSuccess s' a) := by
  have closed := h.onProvider a.decision.provider CircuitBreaker.recordSuccess
  have observed := closed.observeLatency a.decision.provider ((s.now - a.start) * 1000)
  unfold Scheduler.noteSuccess
  simp only [AppState.onProvider_now, ← h.now]
  exact observed

theorem noteFailure (h : s.SameFrom s') (sch : Scheduler) (name : String) (e : ProviderAPIError) :
    (sch.noteFailure s name e).SameFrom (sch.noteFailure s' name e) := by
  unfold Scheduler.noteFailure
  rw [← h.now]
  exact (h.limiterFailure name e).onProvider name _

/-- Admission reads the ranking and the registry, and both are the same. -/
theorem eligibleDecisions (h : s.SameFrom s') (sch : Scheduler) (request : ChatCompletionRequest) :
    (sch.eligibleDecisions s request).1 = (sch.eligibleDecisions s' request).1 ∧
      (sch.eligibleDecisions s request).2.SameFrom (sch.eligibleDecisions s' request).2 := by
  have ranked := h.rank_eq request
  have after := (h.call (.rank request)).2
  have admitted : Scheduler.admitLoop sch.breaker s.now ((s.rank request).1.getD []) s.registry =
      Scheduler.admitLoop sch.breaker s'.now ((s'.rank request).1.getD []) s'.registry := by
    rw [ranked, h.now, h.registry]
  unfold Scheduler.eligibleDecisions
  dsimp only
  refine ⟨congrArg Prod.fst admitted, ⟨h.now, congrArg Prod.snd admitted, h.latencyStats, ?_⟩⟩
  exact after.rateLimiter

end AppState.SameFrom

/-! ### The two sides of a step -/

/-- The same states, the same await point and the same events. -/
def SameResumption (r r' : AppState × RunState × List Event) : Prop :=
  r.1.SameFrom r'.1 ∧ r.2.1 = r'.2.1 ∧ List.Forall₂ Event.Same r.2.2 r'.2.2

namespace Scheduler

variable (sch : Scheduler) {s s' : AppState}

theorem nextAttempt_same (h : s.SameFrom s') (l : LoopState) (rest : List RoutingDecision) :
    SameResumption (sch.nextAttempt s l rest) (sch.nextAttempt s' l rest) := by
  cases rest with
  | nil => exact ⟨h, rfl, .nil⟩
  | cons d rest =>
      unfold nextAttempt
      split_ifs with spent
      · exact ⟨h, rfl, .nil⟩
      · refine ⟨h.acquire d.provider, ?_, .cons (.dispatched h ..) .nil⟩
        rw [h.now]

theorem enter_same (h : s.SameFrom s') (l : LoopState) (decisions : List RoutingDecision) :
    SameResumption (sch.enter s l decisions) (sch.enter s' l decisions) := by
  unfold enter
  split_ifs with nothing
  · exact ⟨h, rfl, .nil⟩
  · exact sch.nextAttempt_same h l decisions

theorem backOff_same (h : s.SameFrom s') (l : LoopState) (name : String) (e : ProviderAPIError)
    (u : Sample) :
    (sch.backOff s l name e u).1.SameFrom (sch.backOff s' l name e u).1 ∧
      (sch.backOff s l name e u).2 = (sch.backOff s' l name e u).2 := by
  unfold backOff
  cases backoffDelay l.attempts sch.backoffBase sch.backoffCap e.retryAfter u with
  | none => exact ⟨h.release name, rfl⟩
  | some delay => exact ⟨h, rfl⟩

theorem settle_same (h : s.SameFrom s') (a : Attempt) (o : CallOutcome) (u : Sample) :
    (sch.settle s a o u).1.SameFrom (sch.settle s' a o u).1 ∧
      (sch.settle s a o u).2 = (sch.settle s' a o u).2 := by
  unfold settle
  cases a.loop.path with
  | execute =>
      dsimp only [settleExecute]
      cases o with
      | success result => exact ⟨(h.noteSuccess a).release _, rfl⟩
      | apiError e =>
          have failed := h.noteFailure sch a.decision.provider e
          dsimp only
          split_ifs with final
          · exact ⟨(failed.onProvider _ _).release _, rfl⟩
          · exact sch.backOff_same failed ..
      | otherError => exact ⟨h.release _, rfl⟩
  | executeStream =>
      dsimp only [settleStream]
      cases o with
      | success result => exact ⟨(h.noteSuccess a).release _, rfl⟩
      | apiError e =>
          have failed := h.noteFailure sch a.decision.provider e
          dsimp only
          split_ifs with final
          · exact ⟨failed.release _, rfl⟩
          · exact sch.backOff_same failed ..
      | otherError => exact ⟨h.release _, rfl⟩

theorem outcomeEvents_same (h : s.SameFrom s') (a : Attempt) (o : CallOutcome) :
    List.Forall₂ Event.Same (outcomeEvents s a o) (outcomeEvents s' a o) := by
  cases o with
  | success result => exact .nil
  | otherError => exact .nil
  | apiError e =>
      unfold outcomeEvents
      rw [h.now]
      exact .cons (.failed ..) .nil

theorem callEnded_same (h : s.SameFrom s') (a : Attempt) (o : CallOutcome) (u : Sample) :
    Option.Rel SameResumption (sch.runStep s (.calling a) (.callEnded o u))
      (sch.runStep s' (.calling a) (.callEnded o u)) := by
  obtain ⟨states, outcome⟩ := sch.settle_same h a o u
  have seen := outcomeEvents_same h a o
  rcases settled : sch.settle s a o u with ⟨t, ending⟩
  rcases settled' : sch.settle s' a o u with ⟨t', ending'⟩
  rw [settled, settled'] at states outcome
  dsimp only at states outcome
  subst outcome
  simp only [runStep, settled, settled']
  cases ending with
  | stop e => exact .some ⟨states, rfl, seen⟩
  | retry l =>
      obtain ⟨after, place, later⟩ := sch.nextAttempt_same states l a.rest
      exact .some ⟨after, place, List.rel_append seen later⟩
  | backoff l delay =>
      refine .some ⟨states, ?_, seen⟩
      rw [h.now]

/-- One resumption of a run from two states that are the same to the router. -/
theorem runStep_same (h : s.SameFrom s') (st : RunState) (act : RunAction) :
    Option.Rel SameResumption (sch.runStep s st act) (sch.runStep s' st act) := by
  cases st with
  | calling a =>
      cases act with
      | emit chunk =>
          simp only [runStep]
          cases a.loop.path with
          | execute => exact .none
          | executeStream => exact .some ⟨h, rfl, .cons (.yielded ..) .nil⟩
      | callEnded o u => exact sch.callEnded_same h a o u
      | cancel => exact .some ⟨h.release _, rfl, .nil⟩
      | pull => exact .none
      | wake => exact .none
  | yielding a =>
      cases act with
      | pull => exact .some ⟨h, rfl, .nil⟩
      | cancel => exact .some ⟨h.release _, rfl, .nil⟩
      | emit chunk => exact .none
      | callEnded o u => exact .none
      | wake => exact .none
  | sleeping a wakeAt =>
      cases act with
      | wake =>
          simp only [runStep, ← h.now]
          split_ifs with due
          · exact .some (sch.nextAttempt_same (h.release _) a.loop a.rest)
          · exact .none
      | cancel => exact .some ⟨h.release _, rfl, .nil⟩
      | emit chunk => exact .none
      | callEnded o u => exact .none
      | pull => exact .none
  | finished e => cases act <;> exact .none

end Scheduler

section sweeps
variable {s s' : AppState}

theorem sweepNext_same (kind : SweepKind) (names : List String) (h : s.SameFrom s') :
    (sweepNext kind s names).1.SameFrom (sweepNext kind s' names).1 ∧
      (sweepNext kind s names).2 = (sweepNext kind s' names).2 := by
  induction names generalizing s s' with
  | nil => exact ⟨h, rfl⟩
  | cons name rest ih =>
      have limited := h.isRateLimited_eq name
      have known := h.provider_eq
      unfold sweepNext
      cases kind with
      | monitor =>
          dsimp only
          rw [← limited]
          split_ifs
          · exact ih (h.onProvider name _)
          · exact ⟨h.onProvider name _, rfl⟩
      | verify =>
          dsimp only
          rw [← known]
          split_ifs
          · exact ih h
          · exact ⟨h.onProvider name _, rfl⟩

theorem noteProbe_same (h : s.SameFrom s') (kind : SweepKind) (name : String)
    (answer : ProbeAnswer) :
    (noteProbe s kind name answer).SameFrom (noteProbe s' kind name answer) := by
  unfold noteProbe
  rw [← h.now]
  exact h.onProvider name _

end sweeps

namespace Gateway

/-- Two gateways in the same place that no later reading of a window tells apart. -/
structure SameFrom (g g' : Gateway) : Prop where
  app : g.app.SameFrom g'.app
  runs : g.runs = g'.runs
  sweeps : g.sweeps = g'.sweeps
  periods : g.periods = g'.periods

theorem SameFrom.refl (g : Gateway) : g.SameFrom g :=
  ⟨⟨rfl, rfl, rfl, fun _ => .refl _ _⟩, rfl, rfl, rfl⟩

variable (sch : Scheduler) {g g' : Gateway}

theorem begin_same (h : g.SameFrom g') (path : Path) (request : ChatCompletionRequest) :
    Alike SameFrom Event.Same (step sch g (.begin path request))
      (step sch g' (.begin path request)) := by
  obtain ⟨decided, after⟩ := h.app.eligibleDecisions sch request
  have begun : nextPeriods g.app (sch.eligibleDecisions g.app request).2 g.periods =
      nextPeriods g'.app (sch.eligibleDecisions g'.app request).2 g'.periods := by
    unfold nextPeriods
    rw [h.app.provider_eq, after.provider_eq, h.periods]
  have taken : trialsOf (sch.eligibleDecisions g.app request).2
        (nextPeriods g.app (sch.eligibleDecisions g.app request).2 g.periods)
        (sch.eligibleDecisions g.app request).1 =
      trialsOf (sch.eligibleDecisions g'.app request).2
        (nextPeriods g'.app (sch.eligibleDecisions g'.app request).2 g'.periods)
        (sch.eligibleDecisions g'.app request).1 := by
    unfold trialsOf
    rw [decided, begun, after.provider_eq]
  simp only [step]
  rw [taken, decided]
  obtain ⟨states, place, seen⟩ := sch.enter_same after _ _
  refine .moved ⟨states, ?_, h.sweeps, begun⟩ seen
  rw [h.runs, place]

theorem step_same : Bisimulation (step sch) SameFrom Event.Same := by
  intro g g' act h
  cases act with
  | elapse dt => exact .moved { h with app := h.app.elapse dt } .nil
  | begin path request => exact begin_same sch h path request
  | run i act =>
      simp only [step, h.runs]
      cases g'.runs[i]? with
      | none => exact .none
      | some st =>
          have resumed := sch.runStep_same h.app st act
          simp only [Option.bind_some]
          generalize sch.runStep g.app st act = r, sch.runStep g'.app st act = r' at resumed ⊢
          cases resumed with
          | none => exact .none
          | some same =>
              obtain ⟨states, place, seen⟩ := same
              refine .moved ⟨states, ?_, h.sweeps, h.periods⟩ seen
              dsimp only
              rw [place]
  | beginSweep kind =>
      have names : g.app.registry.all = g'.app.registry.all := congrArg _ h.app.registry
      simp only [step, names]
      obtain ⟨states, place⟩ := sweepNext_same kind g'.app.registry.all h.app
      refine .moved ⟨states, h.runs, ?_, h.periods⟩ .nil
      rw [h.sweeps, place]
  | sweep j act =>
      simp only [step, h.sweeps]
      cases g'.sweeps[j]? with
      | none => exact .none
      | some sw =>
          dsimp only [Option.bind_some]
          cases sw with
          | finished => exact .none
          | checking kind name rest =>
              cases act with
              | cancel => exact .moved ⟨h.app, h.runs, rfl, h.periods⟩ .nil
              | answered answer =>
                  have noted := noteProbe_same h.app kind name answer
                  obtain ⟨states, place⟩ := sweepNext_same kind rest noted
                  refine .moved ⟨states, h.runs, ?_, h.periods⟩ ?_
                  · rw [place]
                  · cases answer with
                    | status code => exact .cons (.probed ..) .nil
                    | exception => exact .nil
  | setEnabled name enabled =>
      exact .moved { h with app := h.app.change fun r => (r.setEnabled name enabled).2 } .nil

/-! ### The reports -/

/-- A report, and the gateway behind it. -/
def answerPoll (g : Gateway) : Poll → PollAnswer × Gateway
  | .health => (.health g.app.health, g)
  | .providersList =>
      let (entries, app) := g.app.providersList
      (.providersList entries, { g with app })
  | .status => (.status g.app.providersByHealth, g)

end Gateway

theorem providersLoop_same {s s' : AppState} (h : s.SameFrom s') (names : List String) :
    (s.providersLoop names).1 = (s'.providersLoop names).1 ∧
      (s.providersLoop names).2.SameFrom s' := by
  induction names generalizing s s' with
  | nil => exact ⟨rfl, h⟩
  | cons name rest ih =>
      have windows := h.rateLimiter.snapshot_eq name
      have entry : ∀ snap, s.providerEntry name snap = s'.providerEntry name snap := by
        intro snap
        unfold AppState.providerEntry AppState.reportsEnabled
        rw [h.provider_eq, h.registry]
      have trimmed : AppState.SameFrom
          { s with rateLimiter := (s.rateLimiter.snapshot s.now name).2 } s' := by
        refine ⟨h.now, h.registry, h.latencyStats, ?_⟩
        exact (s.rateLimiter.snapshot_trims s.now name).sameFrom.trans h.rateLimiter
      obtain ⟨later, -⟩ := ih (h.call (.snapshot name)).2
      simp only [AppState.providersLoop]
      refine ⟨?_, (ih trimmed).2⟩
      simp only [AppState.call, AppState.callWith] at later
      rw [windows, entry, later, h.now]

theorem Gateway.answerPoll_silent : Silent Gateway.answerPoll Gateway.SameFrom where
  answer g g' poll h := by
    have known := h.app.provider_eq
    have listed : g.app.registry.all = g'.app.registry.all := congrArg _ h.app.registry
    cases poll with
    | health =>
        simp only [Gateway.answerPoll, AppState.health, known, listed]
    | providersList =>
        simp only [Gateway.answerPoll, AppState.providersList, listed]
        rw [(providersLoop_same h.app _).1]
    | status => simp only [Gateway.answerPoll, AppState.providersByHealth, known, listed]
  left g g' poll h := by
    cases poll with
    | health => exact h
    | providersList => exact { h with app := (providersLoop_same h.app _).2 }
    | status => exact h

/-- From any state, with any reports asked for anywhere between the steps: the steps are refused
or taken as if nobody had asked, with the same events, and every report reads what it would
read if it were the only one. -/
theorem polls_unobservable (sch : Scheduler) (g : Gateway) (acts : List (Action ⊕ Poll)) :
    Alike Gateway.SameFrom Event.Same
        ((watch (Gateway.step sch) Gateway.answerPoll g acts).map fun r => (r.1, eventsIn r.2))
        ((LabelledRun.exec (Gateway.step sch) g (stepsIn acts)).map fun r =>
          (r.1, LabelledRun.eventsOf r.2)) ∧
      Alike Gateway.SameFrom (Sum.LiftRel Event.Same Eq)
        (watch (Gateway.step sch) Gateway.answerPoll g acts)
        (watch (Gateway.step sch) (still Gateway.answerPoll) g acts) :=
  ⟨watch_events (Gateway.step_same sch) Gateway.answerPoll_silent acts (.refl g),
    watch_agrees (Gateway.step_same sch) Gateway.answerPoll_silent acts (.refl g)⟩

end Noxis
