import Noxis.Dispatch

/-! Usage bookkeeping. The totals of a window count the attempts of the run so far, and its
concurrency counts the attempts that have not released their slot: the calls that are out,
and the failed ones that are backing off. -/
namespace Noxis

/-- How often an attempt was begun on the provider. -/
def begun (name : String) (events : List Event) : ℕ :=
  events.countP fun
    | .dispatched _ _ d _ => d.provider = name
    | _ => false

/-- How often an attempt on the provider failed with an error of that kind. -/
def failedWith (name : String) (kind : ProviderAPIError → Bool) (events : List Event) : ℕ :=
  events.countP fun
    | .failed _ provider e => provider = name ∧ kind e
    | _ => false

@[simp] theorem begun_append (name : String) (events more : List Event) :
    begun name (events ++ more) = begun name events + begun name more := List.countP_append

@[simp] theorem failedWith_append (name : String) (kind : ProviderAPIError → Bool)
    (events more : List Event) : failedWith name kind (events ++ more) =
      failedWith name kind events + failedWith name kind more := List.countP_append

theorem failedWith_mono (name : String) {kind wider : ProviderAPIError → Bool}
    (le : ∀ e, kind e → wider e) {events : List Event} :
    failedWith name kind events ≤ failedWith name wider events := by
  refine List.countP_mono_left fun event _ counted => ?_
  cases event with
  | failed time provider e =>
      simp only [decide_eq_true_eq] at counted ⊢
      exact ⟨counted.1, le e counted.2⟩
  | _ => exact counted

/-- The run holds a concurrency slot of the provider. -/
def RunState.Uses (name : String) (st : RunState) : Prop :=
  ∃ a ∈ st.attempt, a.decision.provider = name

/-- The run has an upstream call to the provider out. -/
def RunState.Calls (name : String) (st : RunState) : Prop :=
  ∃ a ∈ st.inCall, a.decision.provider = name

/-- The run waits for its backoff after a failure of the provider. -/
def RunState.BacksOff (name : String) : RunState → Prop
  | .sleeping a _ => a.decision.provider = name
  | _ => False

instance (name : String) : DecidablePred (RunState.Uses name) :=
  fun _ => inferInstanceAs (Decidable (∃ a ∈ _, _))

instance (name : String) : DecidablePred (RunState.Calls name) :=
  fun _ => inferInstanceAs (Decidable (∃ a ∈ _, _))

instance (name : String) : DecidablePred (RunState.BacksOff name)
  | .sleeping _ _ => inferInstanceAs (Decidable (_ = _))
  | .calling _ | .yielding _ | .finished _ => isFalse id

namespace Gateway

def slotsUsed (g : Gateway) (name : String) : ℕ := g.runs.countP fun st => st.Uses name
def callsOut (g : Gateway) (name : String) : ℕ := g.runs.countP fun st => st.Calls name
def backingOff (g : Gateway) (name : String) : ℕ := g.runs.countP fun st => st.BacksOff name

end Gateway

/-- What the windows count of some events. -/
structure Tallies (name : String) (events : List Event) (w w' : ProviderUsageWindow) : Prop where
  requests : w'.totalRequests = w.totalRequests + begun name events
  failures : w'.totalFailures = w.totalFailures + failedWith name (fun _ => true) events
  rateLimits : w'.total429s = w.total429s + failedWith name (·.statusCode = 429) events

theorem Tallies.nil {name : String} {w w' : ProviderUsageWindow}
    (requests : w'.totalRequests = w.totalRequests) (failures : w'.totalFailures = w.totalFailures)
    (rateLimits : w'.total429s = w.total429s) : Tallies name [] w w' :=
  ⟨requests, failures, rateLimits⟩

theorem Tallies.trans {name : String} {events more : List Event}
    {w₁ w₂ w₃ : ProviderUsageWindow} (h : Tallies name events w₁ w₂) (h' : Tallies name more w₂ w₃) :
    Tallies name (events ++ more) w₁ w₃ := by
  constructor
  · rw [h'.requests, h.requests, begun_append, Nat.add_assoc]
  · rw [h'.failures, h.failures, failedWith_append, Nat.add_assoc]
  · rw [h'.rateLimits, h.rateLimits, failedWith_append, Nat.add_assoc]

theorem RateLimiter.Trimmed.tallies {now : ℚ} {limiter limiter' : RateLimiter}
    (h : RateLimiter.Trimmed now limiter limiter') (name : String) :
    Tallies name [] (limiter name) (limiter' name) := by
  rcases h name with same | same <;> rw [same] <;> exact .nil rfl rfl rfl

theorem RateLimiter.Trimmed.concurrent {now : ℚ} {limiter limiter' : RateLimiter}
    (h : RateLimiter.Trimmed now limiter limiter') (name : String) :
    (limiter' name).concurrent = (limiter name).concurrent := by
  rcases h name with same | same <;> rw [same]
  rfl

section operations
variable (s : AppState) {name : String}

theorem tallies_acquire (d : RoutingDecision) (attempts : ℕ) (call : ChatCompletionRequest) :
    Tallies name [.dispatched s attempts d call] (s.rateLimiter name)
      ((s.acquire d.provider).rateLimiter name) := by
  by_cases same : d.provider = name
  · subst same
    constructor <;> simp [AppState.acquire, RateLimiter.acquire, ProviderUsageWindow.recordRequest,
      ProviderUsageWindow.trim, begun, failedWith]
  · constructor <;> simp [AppState.acquire, RateLimiter.acquire, begun, failedWith, same, Ne.symm same]

theorem tallies_release (other : String) :
    Tallies name [] (s.rateLimiter name) ((s.release other).rateLimiter name) := by
  by_cases same : name = other
  · subst same
    exact .nil (by simp [AppState.release, RateLimiter.release])
      (by simp [AppState.release, RateLimiter.release])
      (by simp [AppState.release, RateLimiter.release])
  · rw [(agreesOn_release s same).window]
    exact .nil rfl rfl rfl

theorem tallies_limiterFailure (other : String) (e : ProviderAPIError) :
    Tallies name [.failed s.now other e] (s.rateLimiter name)
      ((s.limiterFailure other e).rateLimiter name) := by
  by_cases same : name = other
  · subst same
    by_cases limited : e.statusCode = 429
    · constructor <;> simp [AppState.limiterFailure, RateLimiter.recordFailure, RateLimiter.record429,
        ProviderUsageWindow.recordFailure, ProviderUsageWindow.record429, begun, failedWith, limited]
    · constructor <;> simp [AppState.limiterFailure, RateLimiter.recordFailure,
        ProviderUsageWindow.recordFailure, begun, failedWith, limited]
  · rw [(agreesOn_limiterFailure s e same).window]
    constructor <;> simp [begun, failedWith, Ne.symm same]

/-- Failing leaves the number of slots in use as it is. -/
theorem limiterFailure_concurrent (other : String) (e : ProviderAPIError) :
    ((s.limiterFailure other e).rateLimiter name).concurrent = (s.rateLimiter name).concurrent := by
  by_cases same : name = other
  · subst same
    by_cases limited : e.statusCode = 429 <;>
      simp [AppState.limiterFailure, RateLimiter.recordFailure, RateLimiter.record429,
        ProviderUsageWindow.recordFailure, ProviderUsageWindow.record429, limited]
  · rw [(agreesOn_limiterFailure s e same).window]

theorem acquire_concurrent (other : String) :
    ((s.acquire other).rateLimiter name).concurrent =
      (s.rateLimiter name).concurrent + if other = name then 1 else 0 := by
  by_cases same : other = name
  · subst same
    simp [AppState.acquire, RateLimiter.acquire, ProviderUsageWindow.recordRequest,
      ProviderUsageWindow.trim]
  · simp [AppState.acquire, RateLimiter.acquire, same, Ne.symm same]

/-- A release that finds a slot in use gives exactly that one back. -/
theorem release_concurrent (other : String)
    (used : other = name → 1 ≤ (s.rateLimiter name).concurrent) :
    ((s.release other).rateLimiter name).concurrent + (if other = name then 1 else 0) =
      (s.rateLimiter name).concurrent := by
  by_cases same : other = name
  · subst same
    have := used rfl
    simp [AppState.release, RateLimiter.release]
    omega
  · rw [(agreesOn_release s (Ne.symm same)).window, if_neg same, Nat.add_zero]

end operations

section resumptions
variable {sch : Scheduler} {s s' : AppState} {name : String} {events : List Event}

theorem continues_tallies {l : LoopState} {rest : List RoutingDecision} {st : RunState}
    (next : sch.Continues s l rest s' st events) :
    Tallies name events (s.rateLimiter name) (s'.rateLimiter name) := by
  cases next with
  | stop => exact .nil rfl rfl rfl
  | dispatch => exact tallies_acquire s _ _ _

theorem resumes_tallies {st st' : RunState} {act : RunAction}
    (moved : sch.Resumes s st act s' st' events) :
    Tallies name events (s.rateLimiter name) (s'.rateLimiter name) := by
  cases moved with
  | emit => exact ⟨rfl, rfl, rfl⟩
  | pull => exact .nil rfl rfl rfl
  | success => exact tallies_release (Scheduler.noteSuccess s _) _
  | otherError => exact tallies_release s _
  | @terminal a e u s' st' more path final next =>
      have failed : Tallies name [.failed s.now a.decision.provider e] _ _ :=
        tallies_limiterFailure s a.decision.provider e
      have released : Tallies name [] _ _ := tallies_release
        ((sch.noteFailure s a.decision.provider e).onProvider a.decision.provider
          (·.withHealth .unavailable)) a.decision.provider
      exact (failed.trans released).trans (continues_tallies next)
  | @raised a e u path final =>
      exact (tallies_limiterFailure s a.decision.provider e).trans
        (tallies_release (sch.noteFailure s a.decision.provider e) _)
  | @overflow a e =>
      exact (tallies_limiterFailure s a.decision.provider e).trans
        (tallies_release (sch.noteFailure s a.decision.provider e) _)
  | @backoff a e => exact tallies_limiterFailure s a.decision.provider e
  | @wake a wakeAt s' st' more due next =>
      exact (tallies_release s a.decision.provider).trans (continues_tallies next)
  | cancel => exact tallies_release s _

/-- How many slots of the provider the run holds: one or none. -/
def slotOf (name : String) (st : RunState) : ℕ := if st.Uses name then 1 else 0

/-- How many calls to the provider the run has out: one or none. -/
def callOf (name : String) (st : RunState) : ℕ := if st.Calls name then 1 else 0

theorem slotOf_live {r : RunState} {a : Attempt} (live : r.attempt = some a) :
    slotOf name r = if a.decision.provider = name then 1 else 0 := by
  simp [slotOf, RunState.Uses, live]

@[simp] theorem slotOf_finished (e : RunEnd) : slotOf name (.finished e) = 0 := by
  simp [slotOf, RunState.Uses, RunState.attempt]

theorem callOf_out {r : RunState} {a : Attempt} (out : r.inCall = some a) :
    callOf name r = if a.decision.provider = name then 1 else 0 := by
  simp [callOf, RunState.Calls, out]

theorem callOf_idle {r : RunState} (idle : r.inCall = none) : callOf name r = 0 := by
  simp [callOf, RunState.Calls, idle]

theorem continues_slot {l : LoopState} {rest : List RoutingDecision} {st : RunState}
    (next : sch.Continues s l rest s' st events) :
    (s'.rateLimiter name).concurrent = (s.rateLimiter name).concurrent + slotOf name st := by
  cases next with
  | stop => rw [slotOf_finished, Nat.add_zero]
  | dispatch => rw [acquire_concurrent, slotOf_live rfl]

/-- A resumption changes the slots in use by what the run gives back and takes. -/
theorem resumes_slot {st st' : RunState} {act : RunAction}
    (moved : sch.Resumes s st act s' st' events)
    (used : st.Uses name → 1 ≤ (s.rateLimiter name).concurrent) :
    (s'.rateLimiter name).concurrent + slotOf name st =
      (s.rateLimiter name).concurrent + slotOf name st' := by
  have inUse : ∀ {a : Attempt}, st.attempt = some a → a.decision.provider = name →
      1 ≤ (s.rateLimiter name).concurrent := fun live same => used ⟨_, live, same⟩
  cases moved with
  | emit => rw [slotOf_live (r := .calling _) rfl, slotOf_live (r := .yielding _) rfl]
  | pull => rfl
  | @success a result u e =>
      have released := release_concurrent (Scheduler.noteSuccess s a) _ (inUse (a := a) rfl)
      rw [slotOf_live rfl, released, slotOf_finished]
      rfl
  | @otherError a u =>
      rw [slotOf_live rfl, release_concurrent s _ (inUse (a := a) rfl), slotOf_finished]
      rfl
  | @terminal a e u s' st' more path final next =>
      let failed := (sch.noteFailure s a.decision.provider e).onProvider a.decision.provider
        (·.withHealth .unavailable)
      have same : (failed.rateLimiter name).concurrent = (s.rateLimiter name).concurrent :=
        limiterFailure_concurrent s a.decision.provider e
      have released := release_concurrent failed a.decision.provider
        fun called => same ▸ inUse (a := a) rfl called
      rw [continues_slot next, slotOf_live (r := .calling a) rfl, Nat.add_right_comm]
      exact congrArg (· + slotOf name st') (released.trans same)
  | @raised a e u path final =>
      have same : ((sch.noteFailure s a.decision.provider e).rateLimiter name).concurrent =
          (s.rateLimiter name).concurrent := limiterFailure_concurrent s a.decision.provider e
      have released := release_concurrent (sch.noteFailure s a.decision.provider e)
        a.decision.provider fun called => same ▸ inUse (a := a) rfl called
      rw [slotOf_live rfl, released, same, slotOf_finished]
      rfl
  | @overflow a e u retryable early large =>
      have same : ((sch.noteFailure s a.decision.provider e).rateLimiter name).concurrent =
          (s.rateLimiter name).concurrent := limiterFailure_concurrent s a.decision.provider e
      have released := release_concurrent (sch.noteFailure s a.decision.provider e)
        a.decision.provider fun called => same ▸ inUse (a := a) rfl called
      rw [slotOf_live rfl, released, same, slotOf_finished]
      rfl
  | @backoff a e u delay retryable early delayed =>
      have same : ((sch.noteFailure s a.decision.provider e).rateLimiter name).concurrent =
          (s.rateLimiter name).concurrent := limiterFailure_concurrent s a.decision.provider e
      rw [same, slotOf_live (r := .calling a) rfl, slotOf_live (r := .sleeping _ _) rfl]
  | @wake a wakeAt s' st' more due next =>
      have released := release_concurrent s a.decision.provider (inUse (a := a) rfl)
      rw [continues_slot next, slotOf_live (r := .sleeping a wakeAt) rfl, Nat.add_right_comm,
        released]
  | @cancel st a live =>
      rw [slotOf_live live, release_concurrent s _ (inUse live), slotOf_finished]
      rfl

theorem continues_calls {l : LoopState} {rest : List RoutingDecision} {st : RunState}
    (next : sch.Continues s l rest s' st events) :
    begun name events = callOf name st ∧ failedWith name (fun _ => true) events = 0 := by
  cases next with
  | stop => exact ⟨(callOf_idle rfl).symm, rfl⟩
  | dispatch =>
      rw [callOf_out rfl]
      exact ⟨by simp [begun], by simp [failedWith]⟩

/-- Every failure ends a call that was out, and every call that is out was begun. -/
theorem resumes_calls {st st' : RunState} {act : RunAction}
    (moved : sch.Resumes s st act s' st' events) :
    failedWith name (fun _ => true) events + callOf name st' ≤ begun name events + callOf name st := by
  have failure : ∀ {a : Attempt} (e : ProviderAPIError),
      failedWith name (fun _ => true) [.failed s.now a.decision.provider e] =
        callOf name (.calling a) := by
    intro a e
    rw [callOf_out rfl]
    simp [failedWith]
  cases moved with
  | emit =>
      rw [callOf_out (r := .calling _) rfl, callOf_out (r := .yielding _) rfl]
      simp [failedWith]
  | pull => exact le_of_eq rfl
  | @terminal a e u s' st' more path final next =>
      obtain ⟨sent, none_failed⟩ : begun name more = _ ∧ _ := continues_calls next
      have split : Event.failed s.now a.decision.provider e :: more =
          [.failed s.now a.decision.provider e] ++ more := rfl
      rw [split, failedWith_append, begun_append, failure e, none_failed, sent]
      simp [begun]
      omega
  | @raised a e u path final =>
      rw [failure e, callOf_idle (r := .finished _) rfl]
      exact Nat.le_add_left _ _
  | @overflow a e u retryable early large =>
      rw [failure e, callOf_idle (r := .finished _) rfl]
      exact Nat.le_add_left _ _
  | @backoff a e u delay retryable early delayed =>
      rw [failure e, callOf_idle (r := .sleeping _ _) rfl]
      exact Nat.le_add_left _ _
  | @wake a wakeAt s' st' more due next =>
      obtain ⟨sent, none_failed⟩ : begun name events = _ ∧ _ := continues_calls next
      rw [none_failed, sent, zero_add]
      exact Nat.le_add_right _ _
  | _ =>
      rw [callOf_idle (r := .finished _) rfl]
      exact Nat.zero_le _

end resumptions

namespace Gateway

variable {sch : Scheduler} {g g' : Gateway} {act : Action} {events : List Event} {name : String}

theorem slotsUsed_at {pre post : List RunState} {st : RunState} (runs : g.runs = pre ++ st :: post) :
    g.slotsUsed name =
      pre.countP (fun r => r.Uses name) + (post.countP (fun r => r.Uses name) + slotOf name st) := by
  simp [slotsUsed, runs, slotOf, List.countP_append, List.countP_cons]

theorem callsOut_at {pre post : List RunState} {st : RunState} (runs : g.runs = pre ++ st :: post) :
    g.callsOut name =
      pre.countP (fun r => r.Calls name) + (post.countP (fun r => r.Calls name) + callOf name st) := by
  simp [callsOut, runs, callOf, List.countP_append, List.countP_cons]

theorem used_of_member {st : RunState} (member : st ∈ g.runs) (uses : st.Uses name) :
    1 ≤ g.slotsUsed name :=
  List.countP_pos_iff.mpr ⟨st, member, decide_eq_true uses⟩

theorem probe_counts (name : String) {s : AppState} {sw sw' : SweepState} {a : SweepAction} {app : AppState}
    (swept : sweepStep s sw a = some (app, sw', events)) :
    begun name events = 0 ∧ ∀ kind, failedWith name kind events = 0 := by
  rcases sweepStep_events swept with rfl | ⟨other, code, rfl⟩
  · exact ⟨rfl, fun _ => rfl⟩
  · exact ⟨rfl, fun _ => rfl⟩

/-- Every step moves the totals by the attempts it begins and the failures it sees. -/
theorem step_tallies (moved : step sch g act = some (g', events)) :
    Tallies name events (g.app.rateLimiter name) (g'.app.rateLimiter name) := by
  cases step_steps moved with
  | begin admission fresh taken next =>
      have ranked : Tallies name [] _ _ := admission.trims.tallies name
      exact ranked.trans (continues_tallies next)
  | run runs moved => exact resumes_tallies moved
  | sweep found swept =>
      obtain ⟨none_begun, none_failed⟩ := probe_counts name swept
      rw [(sweepStep_onlyHealth swept).rateLimiter]
      constructor
      · rw [none_begun, Nat.add_zero]
      · rw [none_failed, Nat.add_zero]
      · rw [none_failed, Nat.add_zero]
  | beginSweep change next =>
      rw [change.rateLimiter]
      exact .nil rfl rfl rfl
  | elapse => exact .nil rfl rfl rfl
  | setEnabled => exact .nil rfl rfl rfl

theorem step_slotsUsed (exact' : (g.app.rateLimiter name).concurrent = g.slotsUsed name)
    (moved : step sch g act = some (g', events)) :
    (g'.app.rateLimiter name).concurrent = g'.slotsUsed name := by
  cases step_steps moved with
  | @begin path request ds app app' l st events admission fresh taken next =>
      rw [continues_slot next, admission.trims.concurrent name, exact']
      simp [slotsUsed, slotOf, List.countP_append, List.countP_singleton]
  | @run pre post st st' act app events runs moved =>
      have used : st.Uses name → 1 ≤ (g.app.rateLimiter name).concurrent := by
        intro uses
        rw [exact']
        exact used_of_member (by simp [runs]) uses
      have change := resumes_slot moved used
      rw [exact', slotsUsed_at runs] at change
      have after : slotsUsed { g with app, runs := pre ++ st' :: post } name = _ := slotsUsed_at rfl
      rw [after]
      change (app.rateLimiter name).concurrent = _
      omega
  | sweep found swept =>
      rw [(sweepStep_onlyHealth swept).rateLimiter]
      exact exact'
  | beginSweep change next =>
      rw [change.rateLimiter]
      exact exact'
  | elapse => exact exact'
  | setEnabled => exact exact'

theorem step_callsOut (moved : step sch g act = some (g', events)) :
    failedWith name (fun _ => true) events + g'.callsOut name ≤ begun name events + g.callsOut name := by
  cases step_steps moved with
  | @begin path request ds app app' l st events admission fresh taken next =>
      obtain ⟨sent, none_failed⟩ : begun name events = _ ∧ _ := continues_calls next
      rw [sent, none_failed, zero_add, add_comm]
      simp [callsOut, callOf, List.countP_append, List.countP_singleton]
  | @run pre post st st' act app events runs moved =>
      have change : failedWith name (fun _ => true) events + callOf name st' ≤ _ :=
        resumes_calls moved
      have after : callsOut { g with app, runs := pre ++ st' :: post } name = _ := callsOut_at rfl
      rw [callsOut_at runs, after]
      omega
  | sweep found swept =>
      obtain ⟨-, none_failed⟩ := probe_counts name swept
      rw [none_failed, Nat.zero_add]
      exact Nat.le_add_left _ _
  | beginSweep => exact le_rfl
  | elapse => exact le_rfl
  | setEnabled => exact le_rfl

end Gateway

/-- The five counters of a provider are those of the attempts begun, failed and in progress,
and neither `max(0, .)` ever acts. -/
structure ExactUsage (name : String) (events : List Event) (g : Gateway) : Prop where
  requests : (g.app.rateLimiter name).totalRequests = begun name events
  failures : (g.app.rateLimiter name).totalFailures = failedWith name (fun _ => true) events
  rateLimits : (g.app.rateLimiter name).total429s = failedWith name (·.statusCode = 429) events
  ordered : (g.app.rateLimiter name).total429s ≤ (g.app.rateLimiter name).totalFailures ∧
    (g.app.rateLimiter name).totalFailures ≤ (g.app.rateLimiter name).totalRequests
  reliability : (g.app.rateLimiter name).totalRequests ≠ 0 →
    (reliabilityScore g.app.now name g.app.rateLimiter).1 =
      1 - ((g.app.rateLimiter name).totalFailures : ℚ) / (g.app.rateLimiter name).totalRequests
  concurrent : (g.app.rateLimiter name).concurrent = g.slotsUsed name
  releases : ∀ st ∈ g.runs, st.Uses name → 1 ≤ (g.app.rateLimiter name).concurrent
  idle : (∀ st ∈ g.runs, st.attempt = none) → (g.app.rateLimiter name).concurrent = 0

theorem reliabilityScore_unclamped {now : ℚ} {name : String} {limiter : RateLimiter}
    (ordered : (limiter name).totalFailures ≤ (limiter name).totalRequests)
    (used : (limiter name).totalRequests ≠ 0) :
    (reliabilityScore now name limiter).1 =
      1 - ((limiter name).totalFailures : ℚ) / (limiter name).totalRequests := by
  have share : ((limiter name).totalFailures : ℚ) / (limiter name).totalRequests ≤ 1 :=
    div_le_one_of_le₀ (by exact_mod_cast ordered) (Nat.cast_nonneg _)
  simp only [reliabilityScore, Rounding.reliabilityScore, id_eq, RateLimiter.snapshot,
    RateLimiter.trimmed, Function.update_self, ProviderUsageWindow.trim_totalRequests,
    ProviderUsageWindow.trim_totalFailures, if_neg used]
  exact max_eq_right (sub_nonneg.mpr share)

/-- In every reachable state, whatever the interleaving and however attempts end, the
counters of every provider are exact. -/
theorem usage_exact (sch : Scheduler) (now : ℚ) (names : List String) (nodup : names.Nodup)
    (config : String → ProviderConfig) (ts : List GatewayTransition) (g : Gateway)
    (run : GatewayRun sch (.boot now names nodup config) ts g) (name : String) :
    ExactUsage name (LabelledRun.eventsOf ts) g := by
  have tallies : Tallies name (LabelledRun.eventsOf ts) {} (g.app.rateLimiter name) := by
    refine run.invariant (fun past g => Tallies name (LabelledRun.eventsOf past) {}
      (g.app.rateLimiter name)) (.nil rfl rfl rfl) fun past t _ before valid => ?_
    rw [LabelledRun.eventsOf_snoc]
    exact before.trans (Gateway.step_tallies valid)
  have concurrent : (g.app.rateLimiter name).concurrent = g.slotsUsed name :=
    run.invariant (fun _ g => (g.app.rateLimiter name).concurrent = g.slotsUsed name) rfl
      fun _ _ _ before valid => Gateway.step_slotsUsed before valid
  have ended : failedWith name (fun _ => true) (LabelledRun.eventsOf ts) + g.callsOut name ≤
      begun name (LabelledRun.eventsOf ts) := by
    refine run.invariant (fun past g => failedWith name (fun _ => true) (LabelledRun.eventsOf past) +
      g.callsOut name ≤ begun name (LabelledRun.eventsOf past)) le_rfl fun past t _ before valid => ?_
    have change : failedWith name _ t.events + t.after.callsOut name ≤ _ :=
      Gateway.step_callsOut valid
    rw [LabelledRun.eventsOf_snoc, failedWith_append, begun_append]
    omega
  have requests := tallies.requests.trans (Nat.zero_add _)
  have failures := tallies.failures.trans (Nat.zero_add _)
  have rateLimits := tallies.rateLimits.trans (Nat.zero_add _)
  have failed_le : (g.app.rateLimiter name).totalFailures ≤ (g.app.rateLimiter name).totalRequests := by
    rw [requests, failures]
    omega
  have limited_le : (g.app.rateLimiter name).total429s ≤ (g.app.rateLimiter name).totalFailures := by
    rw [rateLimits, failures]
    exact failedWith_mono name fun _ _ => rfl
  refine ⟨requests, failures, rateLimits, ⟨limited_le, failed_le⟩,
    reliabilityScore_unclamped failed_le, concurrent, ?_, ?_⟩
  · intro st member uses
    rw [concurrent]
    exact Gateway.used_of_member member uses
  · intro nobody
    rw [concurrent, Gateway.slotsUsed, List.countP_eq_zero]
    intro st member
    simp [RunState.Uses, nobody st member]

/-- Two calls to `a`: one fails with a 429 and backs off, one is still out. -/
def failedAndWaiting : List Action :=
  [.begin .execute (Demo.request "m"), .begin .executeStream (Demo.request "m"),
    .run 0 (Demo.fails 429)]

theorem usage_exact_failed_and_waiting :
    ∃ ts g, GatewayRun Demo.scheduler (Demo.gateway fun _ => Demo.config [] 10) ts g ∧
      (g.app.rateLimiter "a").totalFailures = 1 ∧ (g.app.rateLimiter "a").concurrent = 2 ∧
      ExactUsage "a" (LabelledRun.eventsOf ts) g := by
  have evaluated : Demo.passes (Demo.gateway fun _ => Demo.config [] 10) failedAndWaiting
      (fun r => decide ((r.1.app.rateLimiter "a").totalFailures = 1 ∧
        (r.1.app.rateLimiter "a").concurrent = 2)) = true := by decide +kernel
  obtain ⟨ts, g, run, found⟩ := Demo.exists_run evaluated
  obtain ⟨failures, concurrent⟩ := of_decide_eq_true found
  exact ⟨ts, g, run, failures, concurrent, usage_exact _ _ _ _ _ ts g run "a"⟩

end Noxis
