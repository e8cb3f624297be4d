import Noxis.Dispatch
import Noxis.Library.Tasks

/-! The contract of one request, whatever runs beside it. A run keeps to the list it was admitted
with: it sends to the first decision, goes to the next one only over a failure, and ends with what
its last call gave, or with the list, its retries or the delays used up. -/
namespace Noxis

open LabelledRun (Tasks)

/-- A call sent, with its number, and how a call ended. -/
inductive Mark where
  | sent (attempt : ℕ) (d : RoutingDecision) (call : ChatCompletionRequest)
  | failed (provider : String) (e : ProviderAPIError)
  | answered (result : ProviderResult)
  | broke

def Event.mark : Event → Option Mark
  | .dispatched _ attempts d call => some (.sent attempts d call)
  | .failed _ provider e => some (.failed provider e)
  | _ => none

/-- The calls and the failures of a run, without what it forwards. -/
def outline (events : List Event) : List Mark := events.filterMap Event.mark

@[simp] theorem outline_append (events more : List Event) :
    outline (events ++ more) = outline events ++ outline more := List.filterMap_append

/-- The end of a call that is no failure of its provider. -/
def RunAction.marks : RunAction → List Mark
  | .callEnded (.success result) _ => [.answered result]
  | .callEnded .otherError _ => [.broke]
  | _ => []

def Action.marks : Action → List Mark
  | .run _ act => act.marks
  | _ => []

/-- The calls of some steps, and how each ended. -/
def callRecord (ts : List GatewayTransition) : List Mark :=
  ts.flatMap fun t => t.action.marks ++ outline t.events

theorem callRecord_snoc (ts : List GatewayTransition) (t : GatewayTransition) :
    callRecord (ts ++ [t]) = callRecord ts ++ (t.action.marks ++ outline t.events) := by
  simp [callRecord]

/-- The mark of a call sent for `request`. -/
def Mark.call (request : ChatCompletionRequest) (attempt : ℕ) (d : RoutingDecision) : Mark :=
  .sent attempt d (request.withModel d.model)

/-- Calls that failed, one after the other, from attempt `k` on. -/
def failedCalls (request : ChatCompletionRequest) : ℕ → List (RoutingDecision × ProviderAPIError) →
    List Mark
  | _, [] => []
  | k, (d, e) :: rest =>
      .call request k d :: .failed d.provider e :: failedCalls request (k + 1) rest

theorem failedCalls_snoc (request : ChatCompletionRequest) (k : ℕ)
    (tried : List (RoutingDecision × ProviderAPIError)) (d : RoutingDecision) (e : ProviderAPIError) :
    failedCalls request k (tried ++ [(d, e)]) =
      failedCalls request k tried ++ [.call request (k + tried.length) d, .failed d.provider e] := by
  induction tried generalizing k with
  | nil => rfl
  | cons x rest ih =>
      have number : k + 1 + rest.length = k + (x :: rest).length := by
        rw [List.length_cons]
        omega
      simp only [List.cons_append, failedCalls, ih, number]

/-- The loop variables behind these failures. -/
structure LoopState.Behind (path : Path) (request : ChatCompletionRequest)
    (tried : List (RoutingDecision × ProviderAPIError)) (l : LoopState) : Prop where
  path : l.path = path
  request : l.request = request
  attempts : l.attempts = tried.length
  lastError : l.lastError = tried.getLast?.map Prod.snd

/-- What a run ends with when its provider answers: its result and name, or the end of the
stream. -/
def endOfSuccess (path : Path) (provider : String) (result : ProviderResult) : RunEnd :=
  match path with
  | .execute => .returned result provider
  | .executeStream => .completed

section contract
variable (sch : Scheduler) (path : Path) (request : ChatCompletionRequest)
  (ds : List RoutingDecision)

/-- Failures within the retries, over a first part of the list, with a decision ahead. -/
structure Ahead (tried : List (RoutingDecision × ProviderAPIError)) (d : RoutingDecision)
    (rest : List RoutingDecision) : Prop where
  split : ds = tried.map Prod.fst ++ d :: rest
  room : (tried.length : ℤ) < sch.maxRetries

/-- Where a run stands, with what it has sent and what has failed. -/
inductive Standing : List Mark → RunState → Prop
  | inCall {st : RunState} {a : Attempt} {tried : List (RoutingDecision × ProviderAPIError)}
      (out : st.inCall = some a) (loop : a.loop.Behind path request tried)
      (ahead : Ahead sch ds tried a.decision a.rest) :
      Standing (failedCalls request 0 tried ++ [.call request tried.length a.decision]) st
  | asleep {a : Attempt} {wakeAt : ℚ} {tried : List (RoutingDecision × ProviderAPIError)}
      {e : ProviderAPIError} (retryable : e.retryable = true)
      (loop : a.loop.Behind path request (tried ++ [(a.decision, e)]))
      (ahead : Ahead sch ds tried a.decision a.rest) :
      Standing (failedCalls request 0 (tried ++ [(a.decision, e)])) (.sleeping a wakeAt)
  | served {result : ProviderResult} {tried : List (RoutingDecision × ProviderAPIError)}
      {d : RoutingDecision} {rest : List RoutingDecision} (ahead : Ahead sch ds tried d rest) :
      Standing (failedCalls request 0 tried ++ [.call request tried.length d, .answered result])
        (.finished (endOfSuccess path d.provider result))
  | broken {tried : List (RoutingDecision × ProviderAPIError)} {d : RoutingDecision}
      {rest : List RoutingDecision} (ahead : Ahead sch ds tried d rest) :
      Standing (failedCalls request 0 tried ++ [.call request tried.length d, .broke])
        (.finished .otherError)
  | overflowed {tried : List (RoutingDecision × ProviderAPIError)} {d : RoutingDecision}
      {rest : List RoutingDecision} {e : ProviderAPIError} (ahead : Ahead sch ds tried d rest)
      (retryable : e.retryable = true) (large : Overflows (tried.length + 1) e.retryAfter) :
      Standing (failedCalls request 0 (tried ++ [(d, e)])) (.finished .otherError)
  | raised {tried : List (RoutingDecision × ProviderAPIError)} {d : RoutingDecision}
      {rest : List RoutingDecision} {e : ProviderAPIError} (ahead : Ahead sch ds tried d rest)
      (stream : path = .executeStream) :
      Standing (failedCalls request 0 (tried ++ [(d, e)])) (.finished (.providerError e))
  | spent {tried : List (RoutingDecision × ProviderAPIError)} {l : LoopState}
      (loop : l.Behind path request tried)
      (all : tried.map Prod.fst = ds.take sch.maxRetries.toNat) :
      Standing (failedCalls request 0 tried) (.finished (exhausted l))
  | cancelledInCall {tried : List (RoutingDecision × ProviderAPIError)} {d : RoutingDecision}
      {rest : List RoutingDecision} (ahead : Ahead sch ds tried d rest) :
      Standing (failedCalls request 0 tried ++ [.call request tried.length d])
        (.finished .cancelled)
  | cancelledAsleep {tried : List (RoutingDecision × ProviderAPIError)} {d : RoutingDecision}
      {rest : List RoutingDecision} {e : ProviderAPIError} (ahead : Ahead sch ds tried d rest) :
      Standing (failedCalls request 0 (tried ++ [(d, e)])) (.finished .cancelled)

end contract

section standing
variable {sch : Scheduler} {path : Path} {request : ChatCompletionRequest}
  {ds : List RoutingDecision} {tried : List (RoutingDecision × ProviderAPIError)}

theorem Ahead.past {d : RoutingDecision} {rest : List RoutingDecision}
    (ahead : Ahead sch ds tried d rest) (e : ProviderAPIError) :
    ds = (tried ++ [(d, e)]).map Prod.fst ++ rest ∧
      (tried ++ [(d, e)]).length ≤ sch.maxRetries.toNat := by
  have room := ahead.room
  refine ⟨by simp [ahead.split], ?_⟩
  rw [List.length_append, List.length_singleton]
  omega

/-- What is forwarded leaves no mark. -/
theorem Standing.quiet {marks more : List Mark} {st : RunState}
    (stands : Standing sch path request ds marks st) (unmarked : more = []) :
    Standing sch path request ds (marks ++ more) st := by
  rwa [unmarked, List.append_nil]

/-- The failure of the call that is out. -/
theorem failedCalls_here (d : RoutingDecision) (e : ProviderAPIError) (more : List Mark) :
    failedCalls request 0 tried ++ [.call request tried.length d] ++ .failed d.provider e :: more =
      failedCalls request 0 (tried ++ [(d, e)]) ++ more := by
  rw [failedCalls_snoc, Nat.zero_add]
  simp

end standing

namespace Scheduler

variable {sch : Scheduler} {path : Path} {request : ChatCompletionRequest}
  {ds : List RoutingDecision} {s s' : AppState} {events : List Event}

/-- From the loop head on, behind failures that leave the rest of the list. -/
theorem continues_standing {l : LoopState} {rest : List RoutingDecision} {st : RunState}
    (next : sch.Continues s l rest s' st events)
    {tried : List (RoutingDecision × ProviderAPIError)} (loop : l.Behind path request tried)
    (split : ds = tried.map Prod.fst ++ rest) (fits : tried.length ≤ sch.maxRetries.toNat) :
    Standing sch path request ds (failedCalls request 0 tried ++ outline events) st := by
  cases next with
  | stop spent =>
      have all : tried.map Prod.fst = ds.take sch.maxRetries.toNat := by
        rcases spent with rfl | spent
        · rw [split, List.append_nil, List.take_of_length_le]
          rw [List.length_map]
          exact fits
        · have exact_count : sch.maxRetries.toNat = (tried.map Prod.fst).length := by
            rw [loop.attempts] at spent
            rw [List.length_map]
            omega
          rw [split, exact_count, List.take_left]
      have done : Standing sch path request ds _ _ := .spent loop all
      simpa [outline] using done
  | @dispatch d rest room =>
      rw [loop.attempts] at room
      have sent : outline [.dispatched s l.attempts d (l.request.withModel d.model)] =
          [.call request tried.length d] := by
        rw [loop.attempts, loop.request]
        rfl
      rw [sent]
      exact .inCall (a := { loop := l, decision := d, rest, start := s.now }) rfl loop
        ⟨split, room⟩

/-- The answer that a successful call gives to its run. -/
theorem runStep_answers {a : Attempt} {result : ProviderResult} {u : Sample} {st : RunState}
    (moved : sch.runStep s (.calling a) (.callEnded (.success result) u) = some (s', st, events)) :
    st = .finished (endOfSuccess a.loop.path a.decision.provider result) := by
  cases path : a.loop.path with
  | execute =>
      simp only [runStep, settle, path, settleExecute, Option.some.injEq, Prod.mk.injEq] at moved
      exact moved.2.1.symm
  | executeStream =>
      simp only [runStep, settle, path, settleStream, Option.some.injEq, Prod.mk.injEq] at moved
      exact moved.2.1.symm

/-- A failed call is one more behind the loop. -/
theorem behind_failed {l : LoopState} {tried : List (RoutingDecision × ProviderAPIError)}
    (loop : l.Behind path request tried) (d : RoutingDecision) (e : ProviderAPIError) :
    (l.failed e).Behind path request (tried ++ [(d, e)]) := by
  refine ⟨loop.path, loop.request, ?_, by simp [LoopState.failed]⟩
  simp [LoopState.failed, loop.attempts]

section resumption
variable {a : Attempt} {tried : List (RoutingDecision × ProviderAPIError)}

/-- A resumption of a run whose call is out. -/
theorem inCall_standing {st st' : RunState} {act : RunAction}
    (moved : sch.runStep s st act = some (s', st', events)) (out : st.inCall = some a)
    (loop : a.loop.Behind path request tried) (ahead : Ahead sch ds tried a.decision a.rest) :
    Standing sch path request ds
      (failedCalls request 0 tried ++ [.call request tried.length a.decision] ++
        (act.marks ++ outline events)) st' := by
  cases sch.runStep_resumes moved with
  | @emit b chunk stream =>
      obtain rfl := Option.some.inj out
      exact Standing.quiet (.inCall (a := { b with startedEmitting := true }) rfl loop ahead) rfl
  | pull =>
      obtain rfl := Option.some.inj out
      exact Standing.quiet (.inCall rfl loop ahead) rfl
  | success =>
      obtain rfl := Option.some.inj out
      rw [runStep_answers moved, loop.path, List.append_assoc]
      exact .served ahead
  | otherError =>
      obtain rfl := Option.some.inj out
      rw [List.append_assoc]
      exact .broken ahead
  | @terminal b e u s' st' more execute final next =>
      obtain rfl := Option.some.inj out
      obtain ⟨split, fits⟩ := ahead.past e
      have goes_on := continues_standing next (behind_failed loop _ e) split fits
      rwa [← failedCalls_here] at goes_on
  | @raised b e u stream final =>
      obtain rfl := Option.some.inj out
      have ends : Standing sch path request ds (failedCalls request 0 (tried ++ [(b.decision, e)]))
          (.finished (.providerError e)) := .raised ahead (loop.path.symm.trans stream)
      rwa [← List.append_nil (failedCalls _ _ _), ← failedCalls_here] at ends
  | @backoff b e u delay retryable early delayed =>
      obtain rfl := Option.some.inj out
      have sleeps : Standing sch path request ds (failedCalls request 0 (tried ++ [(b.decision, e)]))
          (.sleeping { b with loop := b.loop.failed e } (s.now + delay)) :=
        .asleep (a := { b with loop := b.loop.failed e }) retryable (behind_failed loop _ e) ahead
      rwa [← List.append_nil (failedCalls _ _ _), ← failedCalls_here] at sleeps
  | @overflow b e u retryable early large =>
      obtain rfl := Option.some.inj out
      have attempts : (b.loop.failed e).attempts = tried.length + 1 := by
        simp [LoopState.failed, loop.attempts]
      rw [attempts] at large
      have ends : Standing sch path request ds (failedCalls request 0 (tried ++ [(b.decision, e)]))
          (.finished .otherError) := .overflowed ahead retryable large
      rwa [← List.append_nil (failedCalls _ _ _), ← failedCalls_here] at ends
  | wake => cases out
  | cancel live => exact Standing.quiet (.cancelledInCall ahead) rfl

/-- A resumption of a run that backs off. -/
theorem asleep_standing {wakeAt : ℚ} {st' : RunState} {act : RunAction} {e : ProviderAPIError}
    (moved : sch.runStep s (.sleeping a wakeAt) act = some (s', st', events))
    (loop : a.loop.Behind path request (tried ++ [(a.decision, e)]))
    (ahead : Ahead sch ds tried a.decision a.rest) :
    Standing sch path request ds
      (failedCalls request 0 (tried ++ [(a.decision, e)]) ++ (act.marks ++ outline events))
      st' := by
  obtain ⟨split, fits⟩ := ahead.past e
  cases sch.runStep_resumes moved with
  | wake due next => exact continues_standing next loop split fits
  | cancel live =>
      exact Standing.quiet (.cancelledAsleep ahead) rfl

/-- One resumption of a run keeps to the contract. -/
theorem runStep_standing {st st' : RunState} {act : RunAction} {marks : List Mark}
    (moved : sch.runStep s st act = some (s', st', events))
    (before : Standing sch path request ds marks st) :
    Standing sch path request ds (marks ++ (act.marks ++ outline events)) st' := by
  cases before with
  | inCall out loop ahead => exact inCall_standing moved out loop ahead
  | asleep retryable loop ahead => exact asleep_standing moved loop ahead
  | _ => cases act <;> cases moved

end resumption
end Scheduler

namespace Gateway

variable (sch : Scheduler)

/-- The runs of a gateway as tasks. -/
def runTasks : Tasks (step sch) RunState where
  list := Gateway.runs
  owner g act := match act with
    | .begin _ _ => some g.runs.length
    | .run i _ => some i
    | _ => none
  idle {g g' act events} moved other := by
    cases step_steps moved with
    | begin => cases other
    | run => cases other
    | _ => rfl
  own {g g' act events i} moved own := by
    cases step_steps moved with
    | begin admission fresh taken next =>
        exact .inl ⟨(Option.some.inj own).symm, _, rfl⟩
    | @run pre post st st' act app events runs resumed =>
        obtain rfl := Option.some.inj own
        refine .inr ⟨st, st', by simp [runs], ?_⟩
        simp [runs]
    | _ => cases own

variable {sch}

/-- A task takes its number when a request begins. -/
theorem begun_action {t : GatewayTransition} {i : ℕ} (valid : t.Valid (step sch))
    (number : t.before.runs.length = i)
    (own : (runTasks sch).owner t.before t.action = some i) :
    ∃ path request, t.action = .begin path request := by
  cases act : t.action with
  | begin path request => exact ⟨path, request, rfl⟩
  | run j a =>
      rw [LabelledRun.Transition.Valid, act] at valid
      rw [act] at own
      obtain ⟨pre, st, post, app, st', runs, inside, -⟩ := step_run sch valid
      obtain rfl : j = i := Option.some.inj own
      rw [← number, runs, List.length_append, List.length_cons] at inside
      omega
  | _ => rw [act] at own; cases own

theorem resumed_action {t : GatewayTransition} {i : ℕ} {st : RunState}
    (found : t.before.runs[i]? = some st)
    (own : (runTasks sch).owner t.before t.action = some i) : ∃ act, t.action = .run i act := by
  cases act : t.action with
  | begin path request =>
      rw [act] at own
      have inside := (List.getElem?_eq_some_iff.mp found).1
      have free : t.before.runs.length = i := Option.some.inj own
      omega
  | run j a =>
      rw [act] at own
      obtain rfl : j = i := Option.some.inj own
      exact ⟨a, rfl⟩
  | _ => rw [act] at own; cases own

/-- The events of one request: of the step that began it and of its resumptions. -/
def eventsOfRun (sch : Scheduler) (i : ℕ) (ts : List GatewayTransition) : List Event :=
  LabelledRun.eventsOf ((runTasks sch).stepsOf i ts)

theorem begin_standing {g g' : Gateway} {path : Path} {request : ChatCompletionRequest}
    {events : List Event} {st : RunState}
    (moved : step sch g (.begin path request) = some (g', events))
    (list : g'.runs = g.runs ++ [st]) :
    Standing sch path request (sch.eligibleDecisions g.app request).1 (outline events) st := by
  simp only [step, Option.some.injEq, Prod.mk.injEq] at moved
  obtain ⟨rfl, rfl⟩ := moved
  obtain rfl := List.singleton_injective (List.append_cancel_left list)
  have next := fun l clean => sch.enter_continues (sch.eligibleDecisions g.app request).2 (l := l)
    clean (sch.eligibleDecisions g.app request).1
  have fresh : ∀ trials, LoopState.Behind path request [] { path, request, trials } :=
    fun _ => ⟨rfl, rfl, rfl, rfl⟩
  exact Scheduler.continues_standing (next _ rfl) (fresh _) rfl (Nat.zero_le _)

theorem step_run_at {g g' : Gateway} {i : ℕ} {act : RunAction} {events : List Event}
    {st st' : RunState} (moved : step sch g (.run i act) = some (g', events))
    (found : g.runs[i]? = some st) (list : g'.runs = g.runs.set i st') :
    ∃ app, sch.runStep g.app st act = some (app, st', events) := by
  obtain ⟨pre, old, post, app, new, runs, rfl, resumed, rfl⟩ := step_run sch moved
  rw [resumed_getElem runs] at found
  obtain rfl := Option.some.inj found
  have same : new = st' := by simpa [runs] using list
  rw [← same]
  exact ⟨app, resumed⟩

end Gateway

/-- Where the request begun by a step stands, with the decisions it was admitted with. -/
def StandsBy (sch : Scheduler) (t : GatewayTransition) (own : List GatewayTransition)
    (st : RunState) : Prop :=
  ∃ path request, t.action = .begin path request ∧
    Standing sch path request (sch.eligibleDecisions t.before.app request).1 (callRecord own) st

section runs
variable {sch : Scheduler} {start g : Gateway} {ts : List GatewayTransition}

theorem begun_stands {t : GatewayTransition} {st : RunState} (valid : t.Valid (Gateway.step sch))
    (own : (Gateway.runTasks sch).owner t.before t.action = some t.before.runs.length)
    (list : t.after.runs = t.before.runs ++ [st]) : StandsBy sch t [t] st := by
  obtain ⟨path, request, act⟩ := Gateway.begun_action valid rfl own
  refine ⟨path, request, act, ?_⟩
  rw [LabelledRun.Transition.Valid, act] at valid
  simpa [callRecord, act, Action.marks] using Gateway.begin_standing valid list

theorem resumed_stands {first t : GatewayTransition} {i : ℕ} {past : List GatewayTransition}
    {st st' : RunState} (valid : t.Valid (Gateway.step sch))
    (own : (Gateway.runTasks sch).owner t.before t.action = some i)
    (found : t.before.runs[i]? = some st) (list : t.after.runs = t.before.runs.set i st')
    (before : StandsBy sch first past st) : StandsBy sch first (past ++ [t]) st' := by
  obtain ⟨path, request, act, stands⟩ := before
  obtain ⟨act', resumed⟩ := Gateway.resumed_action found own
  rw [LabelledRun.Transition.Valid, resumed] at valid
  obtain ⟨app, moved⟩ := Gateway.step_run_at valid found list
  refine ⟨path, request, act, ?_⟩
  rw [callRecord_snoc, resumed]
  exact Scheduler.runStep_standing moved stands

theorem runs_stand (idle : start.runs = []) (run : GatewayRun sch start ts g) (i : ℕ)
    (st : RunState) (found : g.runs[i]? = some st) :
    (Gateway.runTasks sch).Known (StandsBy sch) ts i st :=
  run.each_task (Gateway.runTasks sch) (StandsBy sch) (fun _ _ _ => begun_stands)
    (fun _ _ _ _ _ _ _ => resumed_stands) idle i st found

end runs

/-- In every state of every run of the gateway, each request begun stands where the contract says,
with the decisions that it was admitted with, no two of which name one provider. -/
theorem failover_contract (sch : Scheduler) (start : Gateway) (idle : start.runs = [])
    (ts : List GatewayTransition) (g : Gateway) (run : GatewayRun sch start ts g) (i : ℕ)
    (st : RunState) (found : g.runs[i]? = some st) :
    ∃ earlier t later path request ds, ts = earlier ++ t :: later ∧ t.before.runs.length = i ∧
      t.action = .begin path request ∧ ds = (sch.eligibleDecisions t.before.app request).1 ∧
      (ds.map RoutingDecision.provider).Nodup ∧
      Standing sch path request ds (callRecord ((Gateway.runTasks sch).stepsOf i ts)) st := by
  obtain ⟨earlier, t, later, split, number, own, path, request, act, stands⟩ :=
    runs_stand idle run i st found
  exact ⟨earlier, t, later, path, request, _, split, number, act, rfl,
    (sch.eligibleDecisions_spec t.before.app request).distinct, stands⟩

/-- `a` fails, and `b` answers after the backoff. -/
def failsOver : List Action :=
  [.begin .execute (Demo.request "m"), .run 0 (Demo.fails 503), .elapse 50, .run 0 .wake,
    .run 0 (Demo.succeeds "b")]

theorem failover_contract_fails_over :
    ∃ ts g st, GatewayRun Demo.scheduler (Demo.gateway fun _ => Demo.config [] 10) ts g ∧
      g.runs[0]? = some st ∧ ∃ earlier t later path request ds, ts = earlier ++ t :: later ∧
        t.before.runs.length = 0 ∧ t.action = .begin path request ∧
        ds = (Demo.scheduler.eligibleDecisions t.before.app request).1 ∧
        (ds.map RoutingDecision.provider).Nodup ∧
        Standing Demo.scheduler path request ds
          (callRecord ((Gateway.runTasks Demo.scheduler).stepsOf 0 ts)) st := by
  have possible : Demo.passes (Demo.gateway fun _ => Demo.config [] 10) failsOver
      (fun r => decide (r.1.runs.length = 1)) = true := by decide +kernel
  obtain ⟨ts, g, run, one⟩ := Demo.exists_run possible
  have inside : 0 < g.runs.length := by
    rw [of_decide_eq_true one]
    exact Nat.one_pos
  have found : g.runs[0]? = some g.runs[0] := List.getElem?_eq_getElem inside
  exact ⟨ts, g, _, run, found, failover_contract _ _ rfl ts g run 0 _ found⟩

end Noxis
