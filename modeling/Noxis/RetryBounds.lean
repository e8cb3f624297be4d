import Noxis.Drain
import Noxis.FailoverContract

/-! No retry storm. However requests, failures and sweeps are interleaved, one request makes at
most `max_retries` calls and is resumed a bounded number of times, so the calls of the whole
gateway are bounded by the requests it was given. -/
namespace Noxis

open LabelledRun (Tasks)

/-- A step that ends a call, wakes a run or cancels it, and forwards nothing. -/
def Action.settles : Action → Bool
  | .run _ (.callEnded _ _) => true
  | .run _ .wake => true
  | .run _ .cancel => true
  | _ => false

def Action.begins : Action → Bool
  | .begin _ _ => true
  | _ => false

/-- How many settling steps a run can still take. -/
def RunState.budget (sch : Scheduler) : RunState → ℕ
  | .calling a => 2 * (sch.maxRetries.toNat - a.loop.attempts)
  | .yielding a => 2 * (sch.maxRetries.toNat - a.loop.attempts)
  | .sleeping a _ => 2 * (sch.maxRetries.toNat - a.loop.attempts) + 1
  | .finished _ => 0

section budget
variable {sch : Scheduler} {s s' : AppState} {st st' : RunState} {events : List Event}

@[simp] theorem budget_calling (a : Attempt) :
    (RunState.calling a).budget sch = 2 * (sch.maxRetries.toNat - a.loop.attempts) := rfl

@[simp] theorem budget_yielding (a : Attempt) :
    (RunState.yielding a).budget sch = 2 * (sch.maxRetries.toNat - a.loop.attempts) := rfl

@[simp] theorem budget_sleeping (a : Attempt) (wakeAt : ℚ) :
    (RunState.sleeping a wakeAt).budget sch =
      2 * (sch.maxRetries.toNat - a.loop.attempts) + 1 := rfl

@[simp] theorem budget_finished (e : RunEnd) : (RunState.finished e).budget sch = 0 := rfl

theorem continues_budget {l : LoopState} {rest : List RoutingDecision}
    (next : sch.Continues s l rest s' st events) :
    st.budget sch ≤ 2 * (sch.maxRetries.toNat - l.attempts) := by
  cases next with
  | stop => exact Nat.zero_le _
  | dispatch => exact le_rfl

/-- A call that is out is within the retries. -/
theorem Standing.room {path : Path} {request : ChatCompletionRequest} {ds : List RoutingDecision}
    {marks : List Mark} {a : Attempt} (stands : Standing sch path request ds marks st)
    (out : st.inCall = some a) : a.loop.attempts < sch.maxRetries.toNat := by
  cases stands with
  | inCall out' loop ahead =>
      obtain rfl := Option.some.inj (out'.symm.trans out)
      have room := ahead.room
      rw [loop.attempts]
      omega
  | _ => cases out

/-- A settling step uses up some of the budget, and forwarding uses none. -/
theorem resumes_budget {i : ℕ} {act : RunAction} (moved : sch.Resumes s st act s' st' events)
    (room : ∀ a, st.inCall = some a → a.loop.attempts < sch.maxRetries.toNat) :
    (if (Action.run i act).settles then 1 else 0) + st'.budget sch ≤ st.budget sch := by
  cases moved with
  | emit => simp [Action.settles]
  | pull => simp [Action.settles]
  | @success a =>
      have := room a rfl
      simp only [Action.settles, if_true, budget_calling, budget_finished]
      omega
  | @otherError a =>
      have := room a rfl
      simp only [Action.settles, if_true, budget_calling, budget_finished]
      omega
  | @terminal a e u s' st' more path final next =>
      have := room a rfl
      have later := continues_budget next
      simp only [LoopState.failed] at later
      simp only [Action.settles, if_true, budget_calling]
      omega
  | @raised a =>
      have := room a rfl
      simp only [Action.settles, if_true, budget_calling, budget_finished]
      omega
  | @overflow a =>
      have := room a rfl
      simp only [Action.settles, if_true, budget_calling, budget_finished]
      omega
  | @backoff a =>
      have := room a rfl
      simp only [Action.settles, LoopState.failed, if_true, budget_calling, budget_sleeping]
      omega
  | wake due next =>
      have later := continues_budget next
      simp only [Action.settles, if_true, budget_sleeping]
      omega
  | @cancel st a live =>
      simp only [Action.settles, if_true, budget_finished]
      cases st with
      | calling b =>
          have := room b rfl
          rw [budget_calling]
          omega
      | yielding b =>
          have := room b rfl
          rw [budget_yielding]
          omega
      | sleeping b wakeAt =>
          rw [budget_sleeping]
          omega
      | finished e => cases live

end budget

/-! ### The calls of one request -/

def Mark.decision? : Mark → Option RoutingDecision
  | .sent _ d _ => some d
  | _ => none

theorem contacted_outline (events : List Event) :
    contacted events = (outline events).filterMap Mark.decision? := by
  rw [contacted, outline, List.filterMap_filterMap]
  congr 1
  funext event
  cases event <;> rfl

theorem decisions_marks (act : Action) : act.marks.filterMap Mark.decision? = [] := by
  cases act with
  | run i act =>
      cases act with
      | callEnded o u => cases o <;> rfl
      | _ => rfl
  | _ => rfl

theorem contacted_eq (ts : List GatewayTransition) :
    contacted (LabelledRun.eventsOf ts) = (callRecord ts).filterMap Mark.decision? := by
  induction ts using List.reverseRecOn with
  | nil => rfl
  | append_singleton ts t ih =>
      rw [LabelledRun.eventsOf_snoc, contacted_append, ih, callRecord_snoc, contacted_outline,
        List.filterMap_append, List.filterMap_append, decisions_marks, List.nil_append]

theorem decisions_failedCalls (request : ChatCompletionRequest) (k : ℕ)
    (tried : List (RoutingDecision × ProviderAPIError)) :
    (failedCalls request k tried).filterMap Mark.decision? = tried.map Prod.fst := by
  induction tried generalizing k with
  | nil => rfl
  | cons x rest ih =>
      simp only [failedCalls, List.map_cons, ← ih (k + 1)]
      rfl

/-- A request calls the first providers of its list, and no more than the retries allow. -/
theorem Standing.calls {sch : Scheduler} {path : Path} {request : ChatCompletionRequest}
    {ds : List RoutingDecision} {marks : List Mark} {st : RunState}
    (stands : Standing sch path request ds marks st) :
    ∃ k ≤ sch.maxRetries.toNat, marks.filterMap Mark.decision? = ds.take k := by
  have through : ∀ {tried : List (RoutingDecision × ProviderAPIError)} {d : RoutingDecision}
      {rest : List RoutingDecision}, Ahead sch ds tried d rest →
      tried.length + 1 ≤ sch.maxRetries.toNat ∧
        tried.map Prod.fst ++ [d] = ds.take (tried.length + 1) := by
    intro tried d rest ahead
    have room := ahead.room
    refine ⟨by omega, ?_⟩
    have length : tried.length + 1 = (tried.map Prod.fst ++ [d]).length := by simp
    have split : ds = (tried.map Prod.fst ++ [d]) ++ rest := by simp [ahead.split]
    rw [split, length, List.take_left]
  have one_more : ∀ {tried : List (RoutingDecision × ProviderAPIError)} {d : RoutingDecision}
      {rest : List RoutingDecision} {more : List Mark}, Ahead sch ds tried d rest →
      more.filterMap Mark.decision? = [] →
      ∃ k ≤ sch.maxRetries.toNat, (failedCalls request 0 tried ++
        Mark.call request tried.length d :: more).filterMap Mark.decision? = ds.take k := by
    intro tried d rest more ahead no_call
    obtain ⟨fits, first⟩ := through ahead
    refine ⟨_, fits, ?_⟩
    have call : (Mark.call request tried.length d).decision? = some d := rfl
    rw [List.filterMap_append, decisions_failedCalls, ← first, List.filterMap_cons_some call, no_call]
  have all_failed : ∀ {tried : List (RoutingDecision × ProviderAPIError)} {d : RoutingDecision}
      {rest : List RoutingDecision} {e : ProviderAPIError}, Ahead sch ds tried d rest →
      ∃ k ≤ sch.maxRetries.toNat,
        (failedCalls request 0 (tried ++ [(d, e)])).filterMap Mark.decision? = ds.take k := by
    intro tried d rest e ahead
    obtain ⟨fits, first⟩ := through ahead
    refine ⟨_, fits, ?_⟩
    rw [decisions_failedCalls, ← first, List.map_append]
    rfl
  cases stands with
  | inCall out loop ahead => exact one_more ahead rfl
  | asleep retryable loop ahead => exact all_failed ahead
  | served ahead => exact one_more ahead rfl
  | broken ahead => exact one_more ahead rfl
  | overflowed ahead retryable large => exact all_failed ahead
  | raised ahead stream => exact all_failed ahead
  | spent loop all => exact ⟨_, le_rfl, (decisions_failedCalls ..).trans all⟩
  | cancelledInCall ahead => exact one_more ahead rfl
  | cancelledAsleep ahead => exact all_failed ahead

def Event.isCall : Event → Bool
  | .dispatched _ _ _ _ => true
  | _ => false

theorem contacted_length (events : List Event) :
    (contacted events).length = events.countP Event.isCall := by
  induction events with
  | nil => rfl
  | cons event rest ih =>
      simp only [contacted] at ih ⊢
      cases event <;> simp [List.countP_cons, Event.isCall, ih]

/-! ### Whole runs -/

namespace Gateway

variable {sch : Scheduler} {start g : Gateway} {ts : List GatewayTransition}

/-- The number of requests is the number of steps that began one. -/
theorem runs_length (idle : start.runs = []) (run : GatewayRun sch start ts g) :
    g.runs.length = ts.countP fun t => t.action.begins := by
  refine run.invariant (fun past (g : Gateway) =>
    g.runs.length = past.countP fun t => t.action.begins) (by rw [idle]; rfl) ?_
  intro past t _ before valid
  rw [List.countP_append, ← before, List.countP_singleton]
  cases act : t.action with
  | begin path request =>
      rw [LabelledRun.Transition.Valid, act] at valid
      simp only [step, Option.some.injEq, Prod.mk.injEq] at valid
      rw [← valid.1]
      simp [Action.begins]
  | run i a =>
      rw [LabelledRun.Transition.Valid, act] at valid
      obtain ⟨pre, st, post, app, st', runs, -, -, after⟩ := step_run sch valid
      rw [after, runs]
      simp [Action.begins]
  | _ =>
      have same := (runTasks sch).idle valid (by rw [act]; rfl)
      have list : t.after.runs = t.before.runs := same
      rw [list]
      rfl

theorem begin_budget {g g' : Gateway} {path : Path} {request : ChatCompletionRequest}
    {events : List Event} {st : RunState}
    (moved : step sch g (.begin path request) = some (g', events))
    (list : g'.runs = g.runs ++ [st]) : st.budget sch ≤ 2 * sch.maxRetries.toNat := by
  simp only [step, Option.some.injEq, Prod.mk.injEq] at moved
  obtain ⟨rfl, rfl⟩ := moved
  obtain rfl := List.singleton_injective (List.append_cancel_left list)
  exact continues_budget (sch.enter_continues _ rfl _)

/-- What a run has used of its budget, and what is left of it. -/
def WithinBudget (sch : Scheduler) (t : GatewayTransition) (own : List GatewayTransition)
    (st : RunState) : Prop :=
  StandsBy sch t own st ∧
    own.countP (fun u => u.action.settles) + st.budget sch ≤ 2 * sch.maxRetries.toNat

theorem runs_withinBudget (idle : start.runs = []) (run : GatewayRun sch start ts g) (i : ℕ)
    (st : RunState) (found : g.runs[i]? = some st) :
    (runTasks sch).Known (WithinBudget sch) ts i st := by
  refine run.each_task (runTasks sch) (WithinBudget sch) ?_ ?_ idle i st found
  · intro t st _ valid own list
    refine ⟨begun_stands valid own list, ?_⟩
    obtain ⟨path, request, act⟩ := begun_action valid rfl own
    rw [LabelledRun.Transition.Valid, act] at valid
    rw [List.countP_singleton, act]
    simpa [Action.settles] using begin_budget valid list
  · rintro first t i past st st' - valid own found list ⟨stands, used⟩
    refine ⟨resumed_stands valid own found list stands, ?_⟩
    obtain ⟨act, resumed⟩ := resumed_action found own
    rw [LabelledRun.Transition.Valid, resumed] at valid
    obtain ⟨app, moved⟩ := step_run_at valid found list
    obtain ⟨path, request, -, place⟩ := stands
    have spends := resumes_budget (i := i) (sch.runStep_resumes moved) fun a => place.room
    rw [List.countP_append, List.countP_singleton, resumed]
    omega

/-- What a step about no request shows is no call. -/
theorem idle_calls_nobody {t : GatewayTransition} (valid : t.Valid (step sch))
    (idle : (runTasks sch).owner t.before t.action = none) :
    t.events.countP Event.isCall = 0 := by
  cases act : t.action with
  | begin path request => rw [act] at idle; cases idle
  | run i a => rw [act] at idle; cases idle
  | sweep j a =>
      rw [LabelledRun.Transition.Valid, act] at valid
      obtain ⟨sw, app, sw', found, swept, -⟩ := step_sweep sch valid
      rcases sweepStep_events swept with none_seen | ⟨name, code, seen⟩
      · rw [none_seen]
        rfl
      · rw [seen]
        rfl
  | _ =>
      rw [LabelledRun.Transition.Valid, act] at valid
      simp only [step, Option.some.injEq, Prod.mk.injEq] at valid
      rw [← valid.2]
      rfl

/-- A step is about a request that is in the list when the run is over. -/
theorem owner_lt (run : GatewayRun sch start ts g) :
    ∀ t ∈ ts, ∀ i, (runTasks sch).owner t.before t.action = some i → i < g.runs.length := by
  have monotone : ∀ {t : GatewayTransition}, t.Valid (step sch) →
      t.before.runs.length ≤ t.after.runs.length ∧
        ∀ i, (runTasks sch).owner t.before t.action = some i → i < t.after.runs.length := by
    intro t valid
    cases owned : (runTasks sch).owner t.before t.action with
    | none =>
        have same : t.after.runs = t.before.runs := (runTasks sch).idle valid owned
        exact ⟨(congrArg List.length same).ge, fun i none => by cases none⟩
    | some k =>
        rcases (runTasks sch).own valid owned with ⟨rfl, st, list⟩ | ⟨st, st', found, list⟩
        · have longer : t.after.runs = t.before.runs ++ [st] := list
          rw [longer, List.length_append, List.length_singleton]
          refine ⟨Nat.le_succ _, fun i same => ?_⟩
          rw [← Option.some.inj same]
          exact Nat.lt_succ_self _
        · have inside : k < t.before.runs.length := (List.getElem?_eq_some_iff.mp found).1
          have longer : t.after.runs = t.before.runs.set k st' := list
          rw [longer, List.length_set]
          refine ⟨le_rfl, fun i same => ?_⟩
          rwa [← Option.some.inj same]
  refine run.invariant (fun past (g : Gateway) => ∀ t ∈ past, ∀ i,
    (runTasks sch).owner t.before t.action = some i → i < g.runs.length) (by simp) ?_
  intro past t _ before valid u member i own
  obtain ⟨grows, here⟩ := monotone valid
  rcases List.mem_append.mp member with old | new
  · exact (before u old i own).trans_le grows
  · rw [List.mem_singleton.mp new] at own
    exact here i own

/-- A run that is not finished can be resumed, if need be after its backoff. -/
theorem resumable {i : ℕ} {st : RunState} (found : g.runs[i]? = some st)
    (unfinished : st.attempt ≠ none) :
    ∃ dt act, act ≠ .cancel ∧
      (step sch { g with app := g.app.elapse dt } (.run i act)).isSome = true := by
  cases st with
  | calling a =>
      refine ⟨0, .callEnded .otherError ⟨0, le_rfl, zero_le_one⟩, by simp, ?_⟩
      simp only [step, found, Option.bind_some, Option.isSome_map, Scheduler.runStep,
        Scheduler.settle]
      cases a.loop.path <;> rfl
  | yielding a =>
      refine ⟨0, .pull, by simp, ?_⟩
      simp only [step, found, Option.bind_some, Option.isSome_map]
      rfl
  | sleeping a wakeAt =>
      refine ⟨(wakeAt - g.app.now).toNNRat, .wake, by simp, ?_⟩
      have due : wakeAt ≤ (g.app.elapse (wakeAt - g.app.now).toNNRat).now := by
        have waited : wakeAt - g.app.now ≤ ((wakeAt - g.app.now).toNNRat : ℚ) := Rat.le_coe_toNNRat _
        change wakeAt ≤ g.app.now + ((wakeAt - g.app.now).toNNRat : ℚ)
        linarith
      simp only [step, found, Option.bind_some, Option.isSome_map, Scheduler.runStep, if_pos due]
      rfl
  | finished e => exact absurd rfl unfinished

end Gateway

/-- In every run of the gateway each request calls no provider twice and at most `max_retries` of
them, settles at most twice as often, and is never stuck; and all calls together are at most
`max_retries` for each request. -/
theorem retries_bounded (sch : Scheduler) (start : Gateway) (idle : start.runs = [])
    (ts : List GatewayTransition) (g : Gateway) (run : GatewayRun sch start ts g) :
    (∀ i st, g.runs[i]? = some st →
      ((contacted (Gateway.eventsOfRun sch i ts)).map RoutingDecision.provider).Nodup ∧
      (contacted (Gateway.eventsOfRun sch i ts)).length ≤ sch.maxRetries.toNat ∧
      ((Gateway.runTasks sch).stepsOf i ts).countP (fun t => t.action.settles) ≤
        2 * sch.maxRetries.toNat ∧
      (st.attempt ≠ none → ∃ dt act, act ≠ .cancel ∧
        (Gateway.step sch { g with app := g.app.elapse dt } (.run i act)).isSome = true)) ∧
    (contacted (LabelledRun.eventsOf ts)).length ≤
      sch.maxRetries.toNat * ts.countP fun t => t.action.begins := by
  have each : ∀ i st, g.runs[i]? = some st →
      ((contacted (Gateway.eventsOfRun sch i ts)).map RoutingDecision.provider).Nodup ∧
      (contacted (Gateway.eventsOfRun sch i ts)).length ≤ sch.maxRetries.toNat ∧
      ((Gateway.runTasks sch).stepsOf i ts).countP (fun t => t.action.settles) ≤
        2 * sch.maxRetries.toNat := by
    intro i st found
    obtain ⟨-, t, -, -, -, -, ⟨path, request, -, stands⟩, used⟩ :=
      Gateway.runs_withinBudget idle run i st found
    obtain ⟨k, within, first⟩ := stands.calls
    have distinct := (sch.eligibleDecisions_spec t.before.app request).distinct
    rw [Gateway.eventsOfRun, contacted_eq, first, List.length_take]
    refine ⟨distinct.sublist ((List.take_sublist k _).map _), ?_, ?_⟩
    · exact (min_le_left _ _).trans within
    · exact (Nat.le_add_right _ _).trans used
  refine ⟨fun i st found => ?_, ?_⟩
  · obtain ⟨distinct, calls, settled⟩ := each i st found
    exact ⟨distinct, calls, settled, Gateway.resumable found⟩
  · have valid : ∀ t ∈ ts, t.Valid (Gateway.step sch) := by
      intro t member
      obtain ⟨past, later, split⟩ := List.append_of_mem member
      exact (run.split split).2
    have counted := (Gateway.runTasks sch).countP_eventsOf Event.isCall
      (fun t member => Gateway.idle_calls_nobody (valid t member)) (Gateway.owner_lt run)
    have bounded : ∀ i ∈ Finset.range g.runs.length,
        (LabelledRun.eventsOf ((Gateway.runTasks sch).stepsOf i ts)).countP Event.isCall ≤
          sch.maxRetries.toNat := by
      intro i member
      have inside := Finset.mem_range.mp member
      rw [← contacted_length]
      exact (each i _ (List.getElem?_eq_getElem inside)).2.1
    rw [contacted_length, counted, ← Gateway.runs_length idle run]
    calc ∑ i ∈ Finset.range g.runs.length, _
        ≤ ∑ _i ∈ Finset.range g.runs.length, sch.maxRetries.toNat := Finset.sum_le_sum bounded
      _ = sch.maxRetries.toNat * g.runs.length := by
          rw [Finset.sum_const, Finset.card_range, smul_eq_mul, mul_comm]

theorem retries_bounded_fails_over :
    ∃ ts g, GatewayRun Demo.scheduler (Demo.gateway fun _ => Demo.config [] 10) ts g ∧
      (contacted (LabelledRun.eventsOf ts)).length = 2 ∧
      (contacted (LabelledRun.eventsOf ts)).length ≤
        Demo.scheduler.maxRetries.toNat * ts.countP fun t => t.action.begins := by
  have possible : Demo.passes (Demo.gateway fun _ => Demo.config [] 10) failsOver
      (fun r => decide ((contacted (LabelledRun.eventsOf r.2)).length = 2)) = true := by
    decide +kernel
  obtain ⟨ts, g, run, two⟩ := Demo.exists_run possible
  exact ⟨ts, g, run, of_decide_eq_true two, (retries_bounded _ _ rfl ts g run).2⟩

end Noxis
