import Noxis.UsageBookkeeping

/-! Slots of failed calls and of abandoned streams. The backoff is awaited inside the `except`
block, before `finally` gives the slot back, so a run that sleeps still counts against the
provider that has just failed. A run that is closed at a chunk gives its slot back at once, and
the provider's own stream is closed later. -/
namespace Noxis
namespace Gateway

/-- A call to the provider ends in a retryable error before any output, and a delay can be
computed. -/
def FailsRetryably (g : Gateway) (name : String) (act : Action) : Prop :=
  ∃ call ∈ g.endedCall act, call.1.decision.provider = name ∧
    ∃ e, call.2 = .apiError e ∧ e.retryable = true ∧
      (call.1.loop.path = .execute ∨ call.1.startedEmitting = false) ∧
      ¬ Overflows (call.1.loop.attempts + 1) e.retryAfter

/-- The provider whose stream stays open behind a run that is closed at a chunk. `async for` does
not close the generator it iterates over. -/
def leftOpen (g : Gateway) : Action → List String
  | .run i .cancel => match g.runs[i]? with
      | some (.yielding a) => [a.decision.provider]
      | _ => []
  | _ => []

end Gateway

/-- The gateway with the provider streams that no run reads any more. -/
structure StreamedGateway where
  gateway : Gateway
  unclosed : List String := []

inductive StreamedAction where
  | gateway (act : Action)
  | closes (k : ℕ)

namespace StreamedGateway

/-- The event loop closes a generator that was dropped in a task of its own. -/
def step (sch : Scheduler) (g : StreamedGateway) :
    StreamedAction → Option (StreamedGateway × List Event)
  | .gateway act =>
      (Gateway.step sch g.gateway act).map fun (gateway, events) =>
        ({ gateway, unclosed := g.unclosed ++ g.gateway.leftOpen act }, events)
  | .closes k =>
      if k < g.unclosed.length then some ({ g with unclosed := g.unclosed.eraseIdx k }, [])
      else none

/-- The upstream calls to the provider that have been sent and have not ended. -/
def callsOut (g : StreamedGateway) (name : String) : ℕ :=
  g.gateway.callsOut name + g.unclosed.count name

/-- The slots in use are those of the calls that are out, so the concurrency limit refuses
a provider only while that many calls to it are out. -/
structure CapacityExact (name : String) (g : StreamedGateway) : Prop where
  slots : (g.gateway.app.rateLimiter name).concurrent = g.callsOut name
  refused : (g.gateway.app.provider name).config.rateLimit.maxConcurrency ≤
      (g.gateway.app.rateLimiter name).concurrent →
    (g.gateway.app.provider name).config.rateLimit.maxConcurrency ≤ g.callsOut name

/-- A call to the provider fails retryably, or a stream of it is left at a chunk. -/
def LosesCount (g : StreamedGateway) (name : String) : StreamedAction → Prop
  | .gateway act => g.gateway.FailsRetryably name act ∨ name ∈ g.gateway.leftOpen act
  | .closes _ => False

end StreamedGateway

namespace Gateway

/-- An unfinished run that holds a slot has its call out or is backing off. -/
theorem slotsUsed_eq (g : Gateway) (name : String) :
    g.slotsUsed name = g.callsOut name + g.backingOff name := by
  unfold slotsUsed callsOut backingOff
  induction g.runs with
  | nil => rfl
  | cons st rest ih =>
      have one : (if st.Uses name then 1 else 0) =
          (if st.Calls name then 1 else 0) + if st.BacksOff name then 1 else 0 := by
        cases st with
        | sleeping a wakeAt =>
            by_cases same : a.decision.provider = name <;>
              simp [RunState.Uses, RunState.Calls, RunState.BacksOff, RunState.attempt,
                RunState.inCall, same]
        | _ => simp [RunState.Uses, RunState.Calls, RunState.BacksOff, RunState.attempt,
            RunState.inCall]
      simp only [List.countP_cons, decide_eq_true_eq, ih, one]
      omega

variable {sch : Scheduler} {g g' : Gateway} {act : Action} {events : List Event} {name : String}

theorem backingOff_eq_zero :
    g.backingOff name = 0 ↔ ∀ st ∈ g.runs, ¬ st.BacksOff name := by
  simp [backingOff, List.countP_eq_zero]

theorem backingOff_at {pre post : List RunState} {st : RunState} (runs : g.runs = pre ++ st :: post) :
    g.backingOff name = pre.countP (fun r => r.BacksOff name) +
      (post.countP (fun r => r.BacksOff name) + if st.BacksOff name then 1 else 0) := by
  simp [backingOff, runs, List.countP_append, List.countP_cons]

theorem continues_awake {s s' : AppState} {l : LoopState} {rest : List RoutingDecision}
    {st : RunState} (next : sch.Continues s l rest s' st events) : ¬ st.BacksOff name := by
  cases next <;> exact id

/-- A run begins to back off only where its call has failed retryably. -/
theorem step_backingOff (awake : g.backingOff name = 0)
    (moved : step sch g act = some (g', events)) (keeps : ¬ g.FailsRetryably name act) :
    g'.backingOff name = 0 := by
  rw [backingOff_eq_zero] at awake ⊢
  cases step_steps moved with
  | begin admission fresh taken next =>
      intro st member
      rcases List.mem_append.mp member with old | new
      · exact awake st old
      · obtain rfl := List.mem_singleton.mp new
        exact continues_awake next
  | @run pre post st st' act app events runs moved =>
      have found := resumed_getElem runs
      intro other member
      rcases List.mem_append.mp member with old | new
      · exact awake other (by simp [runs, old])
      · rcases List.mem_cons.mp new with rfl | old
        · cases moved with
          | terminal path final next => exact continues_awake next
          | wake due next => exact continues_awake next
          | @backoff a e u delay retryable early delayed =>
              intro same
              refine keeps ⟨(a, .apiError e), ?_, same, e, rfl, retryable, early,
                not_overflows_of_delayed delayed⟩
              simp [endedCall, found]
          | _ => exact id
        · exact awake other (by simp [runs, old])
  | sweep => exact awake
  | beginSweep => exact awake
  | elapse => exact awake
  | setEnabled => exact awake

/-- A call that fails retryably puts one more run to sleep on its slot, and no stream is left. -/
theorem failsRetryably_backsOff (moved : step sch g act = some (g', events))
    (fails : g.FailsRetryably name act) :
    g'.backingOff name = g.backingOff name + 1 ∧ g.leftOpen act = [] := by
  obtain ⟨⟨a, o⟩, ended, same, e, rfl, retryable, early, small⟩ := fails
  unfold endedCall at ended
  split at ended
  · obtain ⟨pre, st, post, app, st', runs, rfl, moved, rfl⟩ := step_run sch moved
    rw [resumed_getElem runs] at ended
    split at ended
    · rename_i b eq
      obtain rfl := Option.some.inj eq
      obtain ⟨rfl, rfl⟩ : b = a ∧ _ = CallOutcome.apiError e := by simpa using ended
      refine ⟨?_, rfl⟩
      rw [backingOff_at runs]
      cases sch.runStep_resumes moved with
      | terminal path final next => simp [retryable] at final
      | raised path final => rcases early with early | early <;> simp_all
      | overflow retryable early large => exact absurd large small
      | @backoff _ _ u delay retryable early delayed =>
          have asleep : (RunState.sleeping { b with loop := b.loop.failed e }
              (g.app.now + delay)).BacksOff name := same
          have awake : ¬ (RunState.calling b).BacksOff name := id
          rw [if_neg awake, Nat.add_zero, Nat.add_assoc]
          refine (@backingOff_at _ name pre post _ rfl).trans ?_
          rw [if_pos asleep]
    · simp at ended
  · simp at ended

/-- A stream that is left at a chunk is one, and no run goes to sleep or wakes up. -/
theorem leftOpen_backingOff (moved : step sch g act = some (g', events))
    (left : name ∈ g.leftOpen act) :
    g.leftOpen act = [name] ∧ g'.backingOff name = g.backingOff name := by
  unfold leftOpen at left ⊢
  split at left
  · obtain ⟨pre, st, post, app, st', runs, rfl, moved, rfl⟩ := step_run sch moved
    rw [resumed_getElem runs] at left ⊢
    split at left
    · rename_i a eq
      obtain rfl := Option.some.inj eq
      obtain rfl := List.mem_singleton.mp left
      refine ⟨rfl, ?_⟩
      cases sch.runStep_resumes moved with
      | cancel live =>
          rw [backingOff_at runs]
          exact @backingOff_at _ a.decision.provider pre post (.finished .cancelled) rfl
    · cases left
  · cases left

end Gateway

namespace StreamedGateway

variable {sch : Scheduler} {g g' : StreamedGateway} {act : StreamedAction} {events : List Event}
  {name : String}

theorem capacityExact_iff
    (books : (g.gateway.app.rateLimiter name).concurrent = g.gateway.slotsUsed name) :
    CapacityExact name g ↔ g.gateway.backingOff name = g.unclosed.count name := by
  have total := g.gateway.slotsUsed_eq name
  constructor
  · intro capacity
    have slots := capacity.slots
    unfold callsOut at slots
    omega
  · intro balance
    have slots : (g.gateway.app.rateLimiter name).concurrent = g.callsOut name := by
      unfold callsOut
      omega
    exact ⟨slots, fun refused => slots ▸ refused⟩

theorem step_books (books : (g.gateway.app.rateLimiter name).concurrent = g.gateway.slotsUsed name)
    (moved : step sch g act = some (g', events)) :
    (g'.gateway.app.rateLimiter name).concurrent = g'.gateway.slotsUsed name := by
  cases act with
  | gateway act =>
      simp only [step, Option.map_eq_some_iff] at moved
      obtain ⟨⟨gateway, more⟩, inner, same⟩ := moved
      cases same
      exact Gateway.step_slotsUsed books inner
  | closes k =>
      simp only [step] at moved
      split_ifs at moved
      cases moved
      exact books

/-- Nothing sleeps and nothing is left open until a step loses the count. -/
theorem step_balanced (balanced : g.gateway.backingOff name = 0 ∧ name ∉ g.unclosed)
    (moved : step sch g act = some (g', events)) (keeps : ¬ g.LosesCount name act) :
    g'.gateway.backingOff name = 0 ∧ name ∉ g'.unclosed := by
  obtain ⟨awake, closed⟩ := balanced
  cases act with
  | gateway act =>
      simp only [step, Option.map_eq_some_iff] at moved
      obtain ⟨⟨gateway, more⟩, inner, same⟩ := moved
      cases same
      simp only [LosesCount, not_or] at keeps
      refine ⟨Gateway.step_backingOff awake inner keeps.1, ?_⟩
      simp [closed, keeps.2]
  | closes k =>
      simp only [step] at moved
      split_ifs at moved
      cases moved
      exact ⟨awake, fun member => closed ((List.eraseIdx_sublist ..).subset member)⟩

/-- A step that loses the count moves one side of the balance only. -/
theorem losesCount_unbalanced (moved : step sch g act = some (g', events))
    (loses : g.LosesCount name act)
    (before : g.gateway.backingOff name = g.unclosed.count name) :
    g'.gateway.backingOff name ≠ g'.unclosed.count name := by
  cases act with
  | closes k => exact loses.elim
  | gateway act =>
      simp only [step, Option.map_eq_some_iff] at moved
      obtain ⟨⟨gateway, more⟩, inner, same⟩ := moved
      cases same
      rcases loses with fails | left
      · obtain ⟨asleep, none_left⟩ := Gateway.failsRetryably_backsOff inner fails
        simp only [asleep, none_left, List.append_nil]
        omega
      · obtain ⟨one_left, same⟩ := Gateway.leftOpen_backingOff inner left
        simp only [same, one_left, List.count_append, List.count_singleton_self]
        omega

end StreamedGateway

abbrev StreamedTransition := LabelledRun.Transition StreamedGateway StreamedAction Event

abbrev StreamedRun (sch : Scheduler) :
    StreamedGateway → List StreamedTransition → StreamedGateway → Prop :=
  LabelledRun.Run (StreamedGateway.step sch)

/-- In a run the slots of a provider are those of its calls that are out, in every state, if and
only if no call to it ends in a retryable error before output with a delay behind it, and no
stream of it is left at a chunk. -/
theorem capacity_exact_iff (sch : Scheduler) (now : ℚ) (names : List String)
    (nodup : names.Nodup) (config : String → ProviderConfig) (name : String)
    (ts : List StreamedTransition) (g : StreamedGateway)
    (run : StreamedRun sch { gateway := .boot now names nodup config } ts g) :
    (∀ v, LabelledRun.Visits { gateway := .boot now names nodup config } ts v →
        v.CapacityExact name) ↔
      ∀ t ∈ ts, ¬ t.before.LosesCount name t.action := by
  have books : ∀ {past v}, StreamedRun sch { gateway := .boot now names nodup config } past v →
      (v.gateway.app.rateLimiter name).concurrent = v.gateway.slotsUsed name := fun run =>
    run.invariant (fun _ g => (g.gateway.app.rateLimiter name).concurrent = g.gateway.slotsUsed name)
      rfl fun _ _ _ before valid => StreamedGateway.step_books before valid
  constructor
  · intro all t member loses
    obtain ⟨past, later, eq⟩ := List.append_of_mem member
    obtain ⟨before, valid⟩ := run.split eq
    have exact_before := all t.before (before.visits_of_prefix eq)
    have exact_after := all t.after (.inr ⟨t, member, rfl⟩)
    rw [StreamedGateway.capacityExact_iff (books before)] at exact_before
    rw [StreamedGateway.capacityExact_iff (books (.snoc before valid))] at exact_after
    exact StreamedGateway.losesCount_unbalanced valid loses exact_before exact_after
  · intro keeps v visited
    obtain ⟨past, later, eq, partial_run⟩ := run.prefix_of_visits visited
    have balanced := partial_run.invariant_under
      (fun _ t => ¬ t.before.LosesCount name t.action)
      (fun _ g => g.gateway.backingOff name = 0 ∧ name ∉ g.unclosed)
      ⟨rfl, List.not_mem_nil⟩
      (fun _ _ _ before valid kept => StreamedGateway.step_balanced before valid kept)
      fun earlier t between split => keeps t (by simp [eq, split])
    rw [StreamedGateway.capacityExact_iff (books partial_run), balanced.1,
      List.count_eq_zero.mpr balanced.2]

/-- `a` fails with a 429 and the run on `b` is left at a chunk, which is closed in the end. -/
def failedAndLeft : List StreamedAction :=
  [.gateway (.begin .execute (Demo.request "m")), .gateway (.run 0 (Demo.fails 429)),
    .gateway (.begin .executeStream (Demo.request "m")), .gateway (.run 1 (.emit .null)),
    .gateway (.run 1 .cancel), .closes 0]

theorem capacity_exact_iff_failed_and_left :
    ∃ ts g, StreamedRun Demo.scheduler { gateway := Demo.gateway fun _ => Demo.config [] 10 } ts g ∧
      ((∀ v, LabelledRun.Visits { gateway := Demo.gateway fun _ => Demo.config [] 10 } ts v →
          v.CapacityExact "a") ↔ ∀ t ∈ ts, ¬ t.before.LosesCount "a" t.action) := by
  have possible : (LabelledRun.exec (StreamedGateway.step Demo.scheduler)
      { gateway := Demo.gateway fun _ => Demo.config [] 10 } failedAndLeft).any
        (fun _ => true) = true := by decide +kernel
  obtain ⟨ts, g, run, -⟩ := LabelledRun.run_of_check _ possible
  exact ⟨ts, g, run, capacity_exact_iff _ _ _ _ _ _ ts g run⟩

/-- The only run there is sleeps, and `a`, which takes one call at a time, is refused. -/
theorem sleeping_run_fills_provider :
    ∃ ts g, StreamedRun Demo.scheduler { gateway := Demo.gateway fun _ => Demo.config [] 1 } ts g ∧
      g.callsOut "a" = 0 ∧ (g.gateway.app.rateLimiter "a").concurrent = 1 ∧
      (g.gateway.app.rateLimiter.canServe g.gateway.app.now "a"
        (g.gateway.app.provider "a").config.rateLimit).1 = false := by
  have evaluated : (LabelledRun.exec (StreamedGateway.step Demo.scheduler)
      { gateway := Demo.gateway fun _ => Demo.config [] 1 }
      [.gateway (.begin .execute (Demo.request "m")), .gateway (.run 0 (Demo.fails 503))]).any
      (fun r => decide (r.1.callsOut "a" = 0 ∧ (r.1.gateway.app.rateLimiter "a").concurrent = 1 ∧
        (r.1.gateway.app.rateLimiter.canServe r.1.gateway.app.now "a"
          (r.1.gateway.app.provider "a").config.rateLimit).1 = false)) = true := by decide +kernel
  obtain ⟨ts, g, run, found⟩ := LabelledRun.run_of_check _ evaluated
  exact ⟨ts, g, run, of_decide_eq_true found⟩

end Noxis
