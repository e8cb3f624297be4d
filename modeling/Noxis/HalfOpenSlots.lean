import Noxis.Dispatch

/-! Half-open trial slots. `allow_request` takes one while the ranked list is filtered;
only a success or a transient failure of the call gives it back. A run that leaves its
loop in any other way, or before it reaches the provider, drops the slots it still holds. -/
namespace Noxis

namespace RunState

/-- The providers the run is calling or still has ahead. -/
def ahead : RunState → List String
  | .calling a | .yielding a => (a.decision :: a.rest).map RoutingDecision.provider
  | .sleeping a _ => a.rest.map RoutingDecision.provider
  | .finished _ => []

def trials : RunState → List (String × ℕ)
  | .calling a | .yielding a | .sleeping a _ => a.loop.trials
  | .finished _ => []

/-- The run took a slot of the provider in this half-open period and may still use it. -/
def Holds (st : RunState) (name : String) (period : ℕ) : Prop :=
  name ∈ st.ahead ∧ (name, period) ∈ st.trials

instance (st : RunState) (name : String) (period : ℕ) : Decidable (st.Holds name period) :=
  inferInstanceAs (Decidable (_ ∧ _))

section holds
variable (a : Attempt) (name : String) (period : ℕ)

theorem holds_calling : (calling a).Holds name period ↔
    (name = a.decision.provider ∨ name ∈ a.rest.map RoutingDecision.provider) ∧
      (name, period) ∈ a.loop.trials := by
  rw [Holds, ahead, trials, List.map_cons, List.mem_cons]

theorem holds_yielding : (yielding a).Holds name period ↔ (calling a).Holds name period := .rfl

theorem holds_sleeping (wakeAt : ℚ) : (sleeping a wakeAt).Holds name period ↔
    name ∈ a.rest.map RoutingDecision.provider ∧ (name, period) ∈ a.loop.trials := .rfl

theorem not_holds_finished (e : RunEnd) : ¬ (finished e).Holds name period :=
  fun held => List.not_mem_nil held.1

end holds
end RunState

/-- The providers that a resumption puts behind the run without a success or a transient
failure of their own. -/
def Scheduler.abandons (sch : Scheduler) : RunState → RunAction → List String
  | .calling a, .callEnded (.success _) _ => a.rest.map RoutingDecision.provider
  | .calling a, .callEnded .otherError _ => (a.decision :: a.rest).map RoutingDecision.provider
  | .calling a, .callEnded (.apiError e) _ =>
      if e.retryable then
        if (a.loop.path = .executeStream ∧ a.startedEmitting) ∨
            Overflows (a.loop.attempts + 1) e.retryAfter then
          a.rest.map RoutingDecision.provider
        else []
      else a.decision.provider ::
        if a.loop.path = .execute ∧ ((a.loop.attempts + 1 : ℕ) : ℤ) < sch.maxRetries then []
        else a.rest.map RoutingDecision.provider
  | .calling a, .cancel | .yielding a, .cancel =>
      (a.decision :: a.rest).map RoutingDecision.provider
  | .sleeping a _, .cancel => a.rest.map RoutingDecision.provider
  | .sleeping a _, .wake =>
      if (a.loop.attempts : ℤ) < sch.maxRetries then []
      else a.rest.map RoutingDecision.provider
  | _, _ => []

namespace Gateway

/-- The runs that hold a slot of the provider's present half-open period. -/
def heldSlots (g : Gateway) (name : String) : ℕ :=
  g.runs.countP fun st => st.Holds name (g.periods name)

/-- The slots counted as in flight are those that some pending attempt will give back. -/
def SlotsReturned (g : Gateway) : Prop :=
  ∀ name, (g.app.provider name).circuitState = .halfOpen →
    (g.app.provider name).halfOpenCallsInFlight = g.heldSlots name

/-- A half-open provider that no run is calling or going to reach admits a trial. -/
def NoLockout (sch : Scheduler) (g : Gateway) : Prop :=
  ∀ name, (g.app.provider name).circuitState = .halfOpen → (∀ st ∈ g.runs, name ∉ st.ahead) →
    (g.app.provider name).halfOpenCallsInFlight < sch.breaker.halfOpenMaxCalls ∧
    (sch.breaker.allowRequest g.app.now (g.app.provider name)).1 = true

/-- A request that begins now is admitted to the provider, whose circuit is not closed. -/
def TakesSlot (sch : Scheduler) (g : Gateway) (name : String) (request : ChatCompletionRequest) :
    Prop :=
  name ∈ candidateProvidersForModel g.app.registry request.model ∧ g.app.Eligible request name ∧
    (g.app.provider name).circuitState ≠ .closed ∧
    (sch.breaker.allowRequest g.app.now (g.app.provider name)).1 = true

/-- The step drops a slot of the half-open provider: the resumed run abandons the provider
while it holds one, or a new run takes one that the retry bound never lets it use. -/
def DropsSlot (sch : Scheduler) (g : Gateway) (name : String) : Action → Prop
  | .run i act => ∃ st ∈ g.runs[i]?, st.Holds name (g.periods name) ∧
      name ∈ sch.abandons st act ∧ (g.app.provider name).circuitState = .halfOpen
  | .begin _ request => sch.maxRetries ≤ 0 ∧ g.TakesSlot sch name request
  | _ => False

/-- A run never remembers a half-open period that is still to come. -/
def PeriodsBounded (g : Gateway) : Prop :=
  ∀ st ∈ g.runs, ∀ name period, (name, period) ∈ st.trials → period ≤ g.periods name

end Gateway

/-- The breaker counts the same slots in the same state. -/
structure SameTrial (p p' : Provider) : Prop where
  circuit : p'.circuitState = p.circuitState
  inFlight : p'.halfOpenCallsInFlight = p.halfOpenCallsInFlight

theorem SameTrial.of_eq {p p' : Provider} (same : p' = p) : SameTrial p p' := by
  subst same
  exact ⟨rfl, rfl⟩

/-- After a recorded failure a provider is half-open only if the failure was terminal. -/
theorem recordFailure_halfOpen {b : CircuitBreaker} {now : ℚ} {p : Provider} {transient : Bool}
    (half : (b.recordFailure now p transient).circuitState = .halfOpen) : transient = false := by
  cases transient with
  | false => rfl
  | true =>
      rcases b.recordFailure_cases now p with tripped | ⟨closed, counted⟩
      · rw [tripped] at half
        exact absurd half (by simp [CircuitBreaker.trip])
      · rw [counted] at half
        exact absurd half closed

section resumptions
variable {sch : Scheduler} {s : AppState} {name : String}

theorem noteFailure_slots {provider : String} {e : ProviderAPIError}
    (half : ((sch.noteFailure s provider e).provider name).circuitState = .halfOpen) :
    SameTrial (s.provider name) ((sch.noteFailure s provider e).provider name) ∧
      (e.retryable = true → name ≠ provider) := by
  by_cases same : name = provider
  · subst same
    rw [Scheduler.noteFailure_provider_self] at half ⊢
    have terminal := recordFailure_halfOpen half
    rw [terminal]
    exact ⟨⟨rfl, rfl⟩, fun retryable => absurd retryable Bool.false_ne_true⟩
  · exact ⟨.of_eq (Scheduler.noteFailure_provider_other same), fun _ => same⟩

theorem afterTerminal_slots {provider : String} {e : ProviderAPIError} (final : e.retryable = false) :
    SameTrial (s.provider name) ((sch.afterTerminal s provider e).provider name) := by
  by_cases same : name = provider
  · subst same
    constructor <;> simp [Scheduler.afterTerminal, Scheduler.noteFailure, final]
  · exact .of_eq (agreesOn_afterTerminal sch s e same).provider

theorem noteSuccess_slots {a : Attempt}
    (half : ((Scheduler.noteSuccess s a).provider name).circuitState = .halfOpen) :
    SameTrial (s.provider name) ((Scheduler.noteSuccess s a).provider name) ∧
      name ≠ a.decision.provider := by
  by_cases same : name = a.decision.provider
  · subst same
    simp [Scheduler.noteSuccess] at half
  · exact ⟨.of_eq (Scheduler.noteSuccess_provider_other same), same⟩

variable (name) in
/-- The loop head keeps the slots of the decisions ahead unless the retries are spent. -/
theorem continues_holds {l : LoopState} {rest : List RoutingDecision} {s' : AppState}
    {st : RunState} {events : List Event} (next : sch.Continues s l rest s' st events)
    (period : ℕ) : st.Holds name period ↔
      (name ∈ rest.map RoutingDecision.provider ∧ (name, period) ∈ l.trials) ∧
        (l.attempts : ℤ) < sch.maxRetries := by
  cases next with
  | stop spent =>
      simp only [RunState.not_holds_finished, false_iff, not_and]
      rintro ⟨member, -⟩ room
      rcases spent with rfl | spent
      · simp at member
      · exact absurd room (not_lt.mpr spent)
  | dispatch room =>
      simp only [RunState.holds_calling, room, and_true, List.map_cons, List.mem_cons]

/-- What one resumption does to the slots of a provider that is half-open afterwards. -/
theorem resumes_slots {st st' : RunState} {act : RunAction} {s' : AppState} {events : List Event}
    (moved : sch.Resumes s st act s' st' events)
    (distinct : ∀ a, st.attempt = some a → a.Distinct)
    (half : (s'.provider name).circuitState = .halfOpen) :
    SameTrial (s.provider name) (s'.provider name) ∧
      ∀ period, st'.Holds name period ↔ st.Holds name period ∧ name ∉ sch.abandons st act := by
  have same : SameTrial (s.provider name) (s.provider name) := ⟨rfl, rfl⟩
  have apart : ∀ a, st.attempt = some a → name ∈ a.rest.map RoutingDecision.provider →
      name ≠ a.decision.provider := fun a live => (distinct a live).ahead_ne
  cases moved with
  | emit =>
      refine ⟨same, fun period => ?_⟩
      simp only [RunState.holds_yielding, RunState.holds_calling, Scheduler.abandons,
        List.not_mem_nil, not_false_eq_true, and_true]
  | pull =>
      refine ⟨same, fun period => ?_⟩
      simp only [RunState.holds_yielding, Scheduler.abandons, List.not_mem_nil,
        not_false_eq_true, and_true]
  | @success a result u e =>
      obtain ⟨kept, other⟩ := noteSuccess_slots half
      refine ⟨kept, fun period => ?_⟩
      simp only [RunState.not_holds_finished, RunState.holds_calling, Scheduler.abandons, other,
        false_or]
      tauto
  | otherError =>
      refine ⟨same, fun period => ?_⟩
      simp only [RunState.not_holds_finished, RunState.holds_calling, Scheduler.abandons,
        List.map_cons, List.mem_cons]
      tauto
  | @terminal a e u s' st' events path final next =>
      rw [next.provider] at half ⊢
      refine ⟨afterTerminal_slots final, fun period => ?_⟩
      have different := apart a rfl
      rw [continues_holds name next]
      by_cases room : ((a.loop.attempts + 1 : ℕ) : ℤ) < sch.maxRetries
      · simp only [RunState.holds_calling, Scheduler.abandons, final, path, room, LoopState.failed,
          List.mem_cons, and_true, if_true, if_false, Bool.false_eq_true, List.not_mem_nil, or_false]
        tauto
      · simp only [RunState.holds_calling, Scheduler.abandons, final, path, room, LoopState.failed,
          List.mem_cons, and_false, if_false, Bool.false_eq_true]
        tauto
  | @raised a e u path final =>
      obtain ⟨kept, apart⟩ := noteFailure_slots half
      refine ⟨kept, fun period => ?_⟩
      cases retryable : e.retryable with
      | false =>
          simp only [RunState.not_holds_finished, RunState.holds_calling, Scheduler.abandons,
            retryable, path, List.mem_cons, reduceCtorEq, false_and, if_false, Bool.false_eq_true]
          tauto
      | true =>
          have started : a.startedEmitting = true := by simpa [retryable] using final
          have other : name ≠ a.decision.provider := apart retryable
          simp only [RunState.not_holds_finished, RunState.holds_calling, Scheduler.abandons,
            retryable, path, started, and_self, true_or, if_true, other, false_or]
          tauto
  | @overflow a e u retryable early large =>
      obtain ⟨kept, apart⟩ := noteFailure_slots half
      refine ⟨kept, fun period => ?_⟩
      have other : name ≠ a.decision.provider := apart retryable
      have large : Overflows (a.loop.attempts + 1) e.retryAfter := large
      simp only [RunState.not_holds_finished, RunState.holds_calling, Scheduler.abandons,
        retryable, large, or_true, if_true, other, false_or]
      tauto
  | @backoff a e u delay retryable early delayed =>
      obtain ⟨kept, apart⟩ := noteFailure_slots half
      refine ⟨kept, fun period => ?_⟩
      have other : name ≠ a.decision.provider := apart retryable
      have unbroken : ¬ ((a.loop.path = .executeStream ∧ a.startedEmitting = true) ∨
          Overflows (a.loop.attempts + 1) e.retryAfter) := by
        rintro (⟨stream, started⟩ | large)
        · rcases early with path | silent
          · simp [path] at stream
          · simp [silent] at started
        · exact not_overflows_of_delayed delayed large
      simp only [RunState.holds_sleeping, RunState.holds_calling, Scheduler.abandons, retryable,
        unbroken, LoopState.failed, if_true, if_false, other, false_or, List.not_mem_nil,
        not_false_eq_true, and_true]
  | @wake a wakeAt s' st' events due next =>
      rw [next.provider]
      refine ⟨same, fun period => ?_⟩
      rw [continues_holds name next]
      by_cases room : (a.loop.attempts : ℤ) < sch.maxRetries
      · simp only [RunState.holds_sleeping, Scheduler.abandons, room, and_true, if_true,
          List.not_mem_nil, not_false_eq_true]
      · simp only [RunState.holds_sleeping, Scheduler.abandons, room, and_false, if_false]
        tauto
  | @cancel st a live =>
      refine ⟨same, fun period => ?_⟩
      have abandoned : sch.abandons st .cancel = st.ahead := by
        cases st with
        | finished e => simp [RunState.attempt] at live
        | _ => rfl
      rw [abandoned]
      exact ⟨fun held => absurd held (RunState.not_holds_finished name period _),
        fun held => absurd held.1.1 held.2⟩

theorem abandons_sameTrial {st st' : RunState} {act : RunAction} {s' : AppState}
    {events : List Event} (moved : sch.Resumes s st act s' st' events)
    (distinct : ∀ a, st.attempt = some a → a.Distinct) (abandoned : name ∈ sch.abandons st act) :
    SameTrial (s.provider name) (s'.provider name) := by
  have apart : ∀ a, st.attempt = some a → name ∈ a.rest.map RoutingDecision.provider →
      name ≠ a.decision.provider := fun a live => (distinct a live).ahead_ne
  have failure : ∀ a e, st.attempt = some a → (name = a.decision.provider → e.retryable = false) →
      SameTrial (s.provider name) ((sch.noteFailure s a.decision.provider e).provider name) := by
    intro a e live final
    by_cases same : name = a.decision.provider
    · subst same
      apply SameTrial.of_eq
      rw [Scheduler.noteFailure_provider_self, final rfl, CircuitBreaker.recordFailure_terminal]
    · exact .of_eq (Scheduler.noteFailure_provider_other same)
  cases moved with
  | @success a result u e =>
      exact .of_eq (Scheduler.noteSuccess_provider_other (apart a rfl abandoned))
  | @terminal a e u s' st' events path final next =>
      rw [next.provider]
      exact afterTerminal_slots final
  | @raised a e u path final =>
      refine failure a e rfl fun same => ?_
      cases retryable : e.retryable with
      | false => rfl
      | true =>
          have started : a.startedEmitting = true := by simpa [retryable] using final
          simp only [Scheduler.abandons, retryable, path, started, and_self, true_or, if_true]
            at abandoned
          exact absurd same (apart a rfl abandoned)
  | @overflow a e u retryable early large =>
      refine failure a e rfl fun same => ?_
      have large : Overflows (a.loop.attempts + 1) e.retryAfter := large
      simp only [Scheduler.abandons, retryable, large, or_true, if_true] at abandoned
      exact absurd same (apart a rfl abandoned)
  | @backoff a e u delay retryable early delayed =>
      refine failure a e rfl fun same => ?_
      simp only [Scheduler.abandons, retryable, if_true] at abandoned
      split_ifs at abandoned
      · exact absurd same (apart a rfl abandoned)
      · simp at abandoned
  | @wake a wakeAt s' st' events due next =>
      rw [next.provider]
      exact ⟨rfl, rfl⟩
  | _ => exact ⟨rfl, rfl⟩

theorem resumes_trials {st st' : RunState} {act : RunAction} {s' : AppState}
    {events : List Event} (moved : sch.Resumes s st act s' st' events) {trial : String × ℕ}
    (member : trial ∈ st'.trials) : trial ∈ st.trials := by
  have head : ∀ {s : AppState} {l : LoopState} {rest : List RoutingDecision} {s' : AppState}
      {st : RunState} {events : List Event}, sch.Continues s l rest s' st events →
      trial ∈ st.trials → trial ∈ l.trials := by
    intro s l rest s' st events next member
    cases next with
    | stop => simp [RunState.trials] at member
    | dispatch => exact member
  cases moved with
  | emit => exact member
  | pull => exact member
  | @terminal a e u s' st' events path final next =>
      have kept : trial ∈ (a.loop.failed e).trials := head next member
      exact kept
  | backoff => exact member
  | wake due next => exact head next member
  | _ => simp [RunState.trials] at member

end resumptions

namespace Gateway

variable {sch : Scheduler} {g g' : Gateway} {act : Action} {events : List Event} {name : String}

theorem mem_trialsOf {app : AppState} {periods : String → ℕ} {ds : List RoutingDecision} {k : ℕ}
    (half : (app.provider name).circuitState = .halfOpen) :
    (name, k) ∈ trialsOf app periods ds ↔
      name ∈ ds.map RoutingDecision.provider ∧ k = periods name := by
  simp only [trialsOf, List.mem_map, List.mem_filter, decide_eq_true_eq, Prod.mk.injEq]
  constructor
  · rintro ⟨d, ⟨member, -⟩, rfl, rfl⟩
    exact ⟨⟨d, member, rfl⟩, rfl⟩
  · rintro ⟨⟨d, member, rfl⟩, rfl⟩
    exact ⟨d, ⟨member, half⟩, rfl, rfl⟩

theorem takesSlot_iff {request : ChatCompletionRequest} {ds : List RoutingDecision} {s' : AppState}
    (admission : sch.Admission g.app request ds s') :
    g.TakesSlot sch name request ↔
      name ∈ ds.map RoutingDecision.provider ∧ (s'.provider name).circuitState = .halfOpen := by
  constructor
  · rintro ⟨candidate, eligible, tripped, allowed⟩
    have member := admission.admitted name candidate eligible allowed
    obtain ⟨d, inList, rfl⟩ := List.mem_map.mp member
    refine ⟨member, ?_⟩
    rw [admission.touched d inList]
    exact (sch.breaker.allowRequest_halfOpen_iff _ _ allowed).mpr tripped
  · rintro ⟨member, half⟩
    obtain ⟨d, inList, rfl⟩ := List.mem_map.mp member
    have allowed := admission.allowed d inList
    rw [admission.touched d inList] at half
    exact ⟨admission.candidate d inList, admission.eligible d inList,
      (sch.breaker.allowRequest_halfOpen_iff _ _ allowed).mp half, allowed⟩

theorem le_nextPeriods (before after : AppState) (periods : String → ℕ) (name : String) :
    periods name ≤ nextPeriods before after periods name := by
  unfold nextPeriods
  split_ifs <;> omega

theorem step_periodsBounded (bounded : g.PeriodsBounded)
    (moved : step sch g act = some (g', events)) : g'.PeriodsBounded := by
  cases step_steps moved with
  | begin admission fresh taken next =>
      intro other member name period trial
      rcases List.mem_append.mp member with old | new
      · exact (bounded other old name period trial).trans (le_nextPeriods _ _ _ _)
      · obtain rfl := List.mem_singleton.mp new
        cases next with
        | stop => simp [RunState.trials] at trial
        | dispatch =>
            simp only [RunState.trials, taken, trialsOf, List.mem_map, Prod.mk.injEq] at trial
            obtain ⟨d, -, rfl, rfl⟩ := trial
            exact le_rfl
  | @run pre post st st' act app events runs moved =>
      intro other member name period trial
      rcases List.mem_append.mp member with old | new
      · exact bounded other (by simp [runs, old]) name period trial
      · rcases List.mem_cons.mp new with rfl | old
        · exact bounded st (by simp [runs]) name period (resumes_trials moved trial)
        · exact bounded other (by simp [runs, old]) name period trial
  | elapse => exact bounded
  | beginSweep => exact bounded
  | sweep => exact bounded
  | setEnabled => exact bounded

theorem allowed_of_admitted {s' : AppState} {request : ChatCompletionRequest}
    {ds : List RoutingDecision} (admission : sch.Admission g.app request ds s')
    (member : name ∈ ds.map RoutingDecision.provider) :
    (sch.breaker.allowRequest g.app.now (g.app.provider name)).1 = true ∧
      s'.provider name = (sch.breaker.allowRequest g.app.now (g.app.provider name)).2 := by
  obtain ⟨d, inList, rfl⟩ := List.mem_map.mp member
  exact ⟨admission.allowed d inList, admission.touched d inList⟩

/-- A half-open provider that is admitted counts one trial more. -/
theorem not_admitted_of_same {s' : AppState} {request : ChatCompletionRequest}
    {ds : List RoutingDecision} (admission : sch.Admission g.app request ds s')
    (same : s'.provider name = g.app.provider name)
    (half : (g.app.provider name).circuitState = .halfOpen) :
    name ∉ ds.map RoutingDecision.provider := by
  intro member
  obtain ⟨ok, changed⟩ := allowed_of_admitted admission member
  rw [same] at changed
  rcases sch.breaker.allowRequest_cases g.app.now (g.app.provider name) with
    h | h | h | h | ⟨-, -, taken⟩
  · simp [half] at h
  · simp [h.1] at ok
  · simp [half] at h
  · simp [half] at h
  · rw [taken] at changed
    have counted := congrArg Provider.halfOpenCallsInFlight changed
    simp at counted

/-- What a ranking does to a provider that is half-open afterwards: it goes on with the
present half-open period or begins a new one, and counts the slot it takes. -/
theorem admission_trials {s' : AppState} {request : ChatCompletionRequest}
    {ds : List RoutingDecision} (admission : sch.Admission g.app request ds s')
    (half : (s'.provider name).circuitState = .halfOpen) :
    ((g.app.provider name).circuitState = .halfOpen ∧
      nextPeriods g.app s' g.periods name = g.periods name ∧
      (s'.provider name).halfOpenCallsInFlight = (g.app.provider name).halfOpenCallsInFlight +
        (if name ∈ ds.map RoutingDecision.provider then 1 else 0) ∧
      (name ∈ ds.map RoutingDecision.provider →
        ((g.app.provider name).halfOpenCallsInFlight : ℤ) < sch.breaker.halfOpenMaxCalls)) ∨
    (((g.app.provider name).circuitState = .opened ∧
        (g.app.provider name).cooldownUntil ≤ g.app.now ∧
        name ∈ candidateProvidersForModel g.app.registry request.model ∧
        g.app.Eligible request name) ∧
      nextPeriods g.app s' g.periods name = g.periods name + 1 ∧
      (s'.provider name).halfOpenCallsInFlight =
        (if name ∈ ds.map RoutingDecision.provider then 1 else 0) ∧
      (name ∈ ds.map RoutingDecision.provider → 0 < sch.breaker.halfOpenMaxCalls)) := by
  have samePeriod : (g.app.provider name).circuitState = .halfOpen →
      nextPeriods g.app s' g.periods name = g.periods name := by
    intro before
    simp [nextPeriods, before]
  have newPeriod : (g.app.provider name).circuitState = .opened →
      nextPeriods g.app s' g.periods name = g.periods name + 1 := by
    intro before
    simp [nextPeriods, before, half]
  rcases admission.effect name with same | ⟨candidate, eligible, touched⟩
  · rw [same] at half ⊢
    have absent := not_admitted_of_same admission same half
    exact .inl ⟨half, samePeriod half, by rw [if_neg absent]; rfl, fun member => absurd member absent⟩
  · have present : (sch.breaker.allowRequest g.app.now (g.app.provider name)).1 = true →
        name ∈ ds.map RoutingDecision.provider := admission.admitted name candidate eligible
    rcases sch.breaker.allowRequest_cases g.app.now (g.app.provider name) with
      ⟨closed, same⟩ | ⟨refused, -⟩ | ⟨before, elapsed, -, begun⟩ | ⟨before, elapsed, room, begun⟩ |
        ⟨before, room, taken⟩
    · rw [touched, same] at half
      exact absurd half (by simp [closed])
    · rw [refused] at touched
      have absent : name ∉ ds.map RoutingDecision.provider := fun member => by
        simpa [refused] using (allowed_of_admitted admission member).1
      rw [touched] at half ⊢
      exact .inl ⟨half, samePeriod half, by rw [if_neg absent]; rfl,
        fun member => absurd member absent⟩
    · have absent : name ∉ ds.map RoutingDecision.provider := fun member => by
        simpa [begun] using (allowed_of_admitted admission member).1
      refine .inr ⟨⟨before, elapsed, candidate, eligible⟩, newPeriod before, ?_,
        fun member => absurd member absent⟩
      rw [if_neg absent, touched, begun]
    · have member := present (by rw [begun])
      refine .inr ⟨⟨before, elapsed, candidate, eligible⟩, newPeriod before, ?_, fun _ => room⟩
      rw [if_pos member, touched, begun]
    · have member := present (by rw [taken])
      refine .inl ⟨before, samePeriod before, ?_, fun _ => room⟩
      rw [if_pos member, touched, taken]

/-- A run that begins counts with the runs there are. -/
theorem heldSlots_begin (g : Gateway) (app : AppState) (st : RunState) (periods : String → ℕ)
    (name : String) :
    heldSlots { g with app, runs := g.runs ++ [st], periods } name =
      g.runs.countP (fun st => st.Holds name (periods name)) +
        if st.Holds name (periods name) then 1 else 0 := by
  simp [heldSlots, List.countP_append, List.countP_singleton]

/-- Each run counts on its own. -/
theorem heldSlots_at (g : Gateway) (app : AppState) (pre post : List RunState) (st : RunState)
    (name : String) :
    heldSlots { g with app, runs := pre ++ st :: post } name =
      pre.countP (fun st => st.Holds name (g.periods name)) +
        ((if st.Holds name (g.periods name) then 1 else 0) +
        post.countP (fun st => st.Holds name (g.periods name))) := by
  simp [heldSlots, List.countP_append, List.countP_cons, add_comm]

/-- Slots in flight after a ranking: those that old runs hold in the present period, and the
one just taken if the provider was admitted. -/
theorem admission_slots {s' : AppState} {request : ChatCompletionRequest}
    {ds : List RoutingDecision} (admission : sch.Admission g.app request ds s')
    (bounded : g.PeriodsBounded)
    (returned : (g.app.provider name).circuitState = .halfOpen →
      (g.app.provider name).halfOpenCallsInFlight = g.heldSlots name)
    (half : (s'.provider name).circuitState = .halfOpen) :
    (s'.provider name).halfOpenCallsInFlight =
      g.runs.countP (fun st => st.Holds name (nextPeriods g.app s' g.periods name)) +
        if name ∈ ds.map RoutingDecision.provider then 1 else 0 := by
  rcases admission_trials admission half with ⟨before, same, counted, -⟩ | ⟨-, next, counted, -⟩
  · rw [counted, same, returned before]
    rfl
  · -- no run holds a slot of a period that begins only now
    have fresh : g.runs.countP (fun st => st.Holds name (nextPeriods g.app s' g.periods name)) = 0 := by
      rw [List.countP_eq_zero]
      intro st member
      simp only [next, decide_eq_true_eq]
      rintro ⟨-, trial⟩
      have := bounded st member name _ trial
      omega
    rw [counted, fresh, zero_add]

/-- After the step all slots in flight are accounted for, but for one that it drops. -/
def Accounted (sch : Scheduler) (g : Gateway) (act : Action) (name : String) (g' : Gateway) : Prop :=
  (¬ g.DropsSlot sch name act →
    (g'.app.provider name).halfOpenCallsInFlight = g'.heldSlots name) ∧
  (g.DropsSlot sch name act →
    (g'.app.provider name).halfOpenCallsInFlight = g'.heldSlots name + 1)

section accounts
variable (returned : (g.app.provider name).circuitState = .halfOpen →
  (g.app.provider name).halfOpenCallsInFlight = g.heldSlots name)
include returned

/-- A new run holds the slot it has taken unless it ends at once. -/
theorem begin_accounted {path : Path} {request : ChatCompletionRequest}
    {ds : List RoutingDecision} {app app' : AppState} {l : LoopState} {st : RunState}
    (bounded : g.PeriodsBounded) (admission : sch.Admission g.app request ds app)
    (fresh : l.attempts = 0) (taken : l.trials = trialsOf app (nextPeriods g.app app g.periods) ds)
    (next : sch.Continues app l ds app' st events)
    (half : (app'.provider name).circuitState = .halfOpen) :
    g.Accounted sch (.begin path request) name
      { g with app := app', runs := g.runs ++ [st], periods := nextPeriods g.app app g.periods } := by
  have untouched : app'.provider name = app.provider name := by rw [next.provider]
  have holds := continues_holds name next
  have half' : (app.provider name).circuitState = .halfOpen := untouched ▸ half
  have counted := admission_slots admission bounded returned half'
  have drops : g.DropsSlot sch name (.begin path request) ↔
      sch.maxRetries ≤ 0 ∧ name ∈ ds.map RoutingDecision.provider := by
    simp [DropsSlot, takesSlot_iff admission, half']
  have count : heldSlots { g with app := app', runs := g.runs ++ [st],
                                  periods := nextPeriods g.app app g.periods } name =
      g.runs.countP (fun st => st.Holds name (nextPeriods g.app app g.periods name)) +
        if name ∈ ds.map RoutingDecision.provider ∧ 0 < sch.maxRetries then 1 else 0 := by
    simp only [heldSlots_begin, holds, taken, mem_trialsOf half', fresh, and_self, and_true,
      Nat.cast_zero]
  rw [Accounted, drops, count, untouched, counted]
  by_cases member : name ∈ ds.map RoutingDecision.provider
  · by_cases room : 0 < sch.maxRetries
    · simp only [member, room, and_self, if_true, not_le.mpr room, false_and,
        not_false_eq_true, true_implies, false_implies]
    · simp only [member, room, and_false, if_true, if_false, not_lt.mp room, and_self,
        not_true_eq_false, false_implies, true_implies, add_zero]
  · simp only [member, false_and, and_false, if_false, not_false_eq_true, true_implies,
      false_implies, and_self]

/-- A resumed run keeps its slot, gives it back, or drops it. -/
theorem run_accounted {pre post : List RunState} {st st' : RunState} {act : RunAction}
    {app : AppState} (wf : g.WellFormed) (runs : g.runs = pre ++ st :: post)
    (moved : sch.Resumes g.app st act app st' events)
    (half : (app.provider name).circuitState = .halfOpen) :
    g.Accounted sch (.run pre.length act) name { g with app, runs := pre ++ st' :: post } := by
  obtain ⟨same, holds⟩ := resumes_slots moved (wf st (by simp [runs])) half
  have before := returned (same.circuit ▸ half)
  have drops : g.DropsSlot sch name (.run pre.length act) ↔
      st.Holds name (g.periods name) ∧ name ∈ sch.abandons st act := by
    simp [DropsSlot, resumed_getElem runs, same.circuit ▸ half]
  have count_before : g.heldSlots name = heldSlots { g with app, runs := pre ++ st :: post } name := by
    rw [heldSlots, runs]
    rfl
  rw [Accounted, drops, same.inFlight, before, count_before, heldSlots_at, heldSlots_at]
  simp only [holds]
  by_cases held : st.Holds name (g.periods name)
  · by_cases abandoned : name ∈ sch.abandons st act
    · simp [held, abandoned]
      omega
    · simp [held, abandoned]
  · simp [held]

/-- Any other step touches neither the runs nor the slots. -/
theorem other_accounted {app : AppState} {sweeps : List SweepState}
    (same : SameTrial (g.app.provider name) (app.provider name))
    (half : (app.provider name).circuitState = .halfOpen) (keeps : ¬ g.DropsSlot sch name act) :
    g.Accounted sch act name { g with app, sweeps } := by
  refine ⟨fun _ => ?_, fun drops => absurd drops keeps⟩
  rw [same.inFlight, returned (same.circuit ▸ half)]
  rfl

theorem step_accounted (wf : g.WellFormed) (bounded : g.PeriodsBounded)
    (moved : step sch g act = some (g', events))
    (half : (g'.app.provider name).circuitState = .halfOpen) : g.Accounted sch act name g' := by
  cases step_steps moved with
  | begin admission fresh taken next =>
      exact begin_accounted returned bounded admission fresh taken next half
  | run runs moved => exact run_accounted returned wf runs moved half
  | sweep found swept =>
      have change := sweepStep_onlyHealth swept
      exact other_accounted returned ⟨change.circuit name, change.inFlight name⟩ half id
  | beginSweep change next =>
      exact other_accounted returned ⟨change.circuit name, change.inFlight name⟩ half id
  | elapse => exact other_accounted returned ⟨rfl, rfl⟩ half id
  | @setEnabled other e =>
      have same : SameTrial (g.app.provider name)
          ((g.app.registry.setEnabled other e).2.provider name) := by
        rw [ProviderRegistry.setEnabled_provider]
        exact ⟨rfl, rfl⟩
      exact other_accounted returned same half id

end accounts

theorem dropsSlot_halfOpen (wf : g.WellFormed) (moved : step sch g act = some (g', events))
    (drops : g.DropsSlot sch name act) : (g'.app.provider name).circuitState = .halfOpen := by
  cases step_steps moved with
  | begin admission fresh taken next =>
      rw [next.provider]
      exact ((takesSlot_iff admission).mp drops.2).2
  | @run pre post st st' act app events runs moved =>
      obtain ⟨held, found, -, abandoned, half⟩ := drops
      obtain rfl : st = held := Option.some.inj ((resumed_getElem runs).symm.trans found)
      have same := abandons_sameTrial moved (wf st (by simp [runs])) abandoned
      exact same.circuit.trans half
  | _ => exact False.elim drops

theorem step_slotsReturned (wf : g.WellFormed) (bounded : g.PeriodsBounded)
    (returned : g.SlotsReturned) (moved : step sch g act = some (g', events)) :
    g'.SlotsReturned ↔ ∀ name, ¬ g.DropsSlot sch name act := by
  constructor
  · intro after name drops
    have half := dropsSlot_halfOpen wf moved drops
    have short := (step_accounted (returned name) wf bounded moved half).2 drops
    have full := after name half
    omega
  · intro keeps name half
    exact (step_accounted (returned name) wf bounded moved half).1 (keeps name)

/-- Where all slots are accounted for, a provider that nothing is pending on has a free one. -/
theorem noLockout_of_slotsReturned (room : 1 ≤ sch.breaker.halfOpenMaxCalls)
    (returned : g.SlotsReturned) : g.NoLockout sch := by
  intro name half idle
  have none_held : g.heldSlots name = 0 := by
    rw [heldSlots, List.countP_eq_zero]
    intro st member
    simp only [decide_eq_true_eq]
    rintro ⟨pending, -⟩
    exact idle st member pending
  have free : ((g.app.provider name).halfOpenCallsInFlight : ℤ) < sch.breaker.halfOpenMaxCalls := by
    rw [returned name half, none_held]
    exact_mod_cast room
  refine ⟨free, ?_⟩
  simp [CircuitBreaker.allowRequest, CircuitBreaker.allowHalfOpen, half, free]

end Gateway

/-- In every state of a run the trial slots are accounted for and no half-open provider is
locked out, if and only if no step of the run drops a slot. -/
theorem slots_returned_iff (sch : Scheduler) (room : 1 ≤ sch.breaker.halfOpenMaxCalls) (now : ℚ)
    (names : List String) (nodup : names.Nodup) (config : String → ProviderConfig)
    (ts : List GatewayTransition) (g : Gateway)
    (run : GatewayRun sch (.boot now names nodup config) ts g) :
    (∀ v, LabelledRun.Visits (.boot now names nodup config) ts v →
        v.SlotsReturned ∧ v.NoLockout sch) ↔
      ∀ t ∈ ts, ∀ name, ¬ t.before.DropsSlot sch name t.action := by
  have start : (Gateway.boot now names nodup config).SlotsReturned := by
    intro name half
    exact absurd half (by simp [Gateway.boot, AppState.provider, Provider.fresh])
  have sound : ∀ {past v}, GatewayRun sch (.boot now names nodup config) past v →
      v.WellFormed ∧ v.PeriodsBounded := by
    intro past v run
    refine run.invariant (fun _ (g : Gateway) => g.WellFormed ∧ g.PeriodsBounded)
      ⟨Gateway.boot_wellFormed now names nodup config, by simp [Gateway.PeriodsBounded, Gateway.boot]⟩ ?_
    rintro past t - ⟨wf, bounded⟩ valid
    exact ⟨Gateway.step_wellFormed wf valid, Gateway.step_periodsBounded bounded valid⟩
  constructor
  · intro all t member
    obtain ⟨past, later, eq⟩ := List.append_of_mem member
    obtain ⟨before, valid⟩ := run.split eq
    obtain ⟨wf, bounded⟩ := sound before
    have returned := (all _ (before.visits_of_prefix eq)).1
    exact (Gateway.step_slotsReturned wf bounded returned valid).mp (all _ (.inr ⟨t, member, rfl⟩)).1
  · intro keeps v visited
    obtain ⟨past, later, eq, partial_run⟩ := run.prefix_of_visits visited
    have returned := partial_run.invariant_under
      (fun _ t => ∀ name, ¬ t.before.DropsSlot sch name t.action)
      (fun _ (g : Gateway) => g.SlotsReturned) start
      (fun past t before returned valid keeps =>
        (Gateway.step_slotsReturned (sound before).1 (sound before).2 returned valid).mpr keeps)
      (fun earlier t between split => keeps t (by simp [eq, split]))
    exact ⟨returned, Gateway.noLockout_of_slotsReturned room returned⟩

/-- `a` fails once and its circuit opens; after the cooldown it is ranked behind `b`, takes a
trial slot, and `b` serves the request. -/
def neverReached : List Action :=
  [.begin .execute (Demo.request "m"), .run 0 (Demo.fails 503), .elapse 40, .run 0 .wake,
    .run 0 (Demo.succeeds "b"), .beginSweep .monitor, .sweep 0 (.answered (.status 200)),
    .sweep 0 (.answered (.status 200)), .begin .execute (Demo.request "m"),
    .run 1 (Demo.succeeds "b")]

theorem slots_returned_iff_never_reached :
    ∃ ts g, GatewayRun Demo.scheduler (Demo.gateway fun _ => Demo.config [] 10) ts g ∧
      ((∀ v, LabelledRun.Visits (Demo.gateway fun _ => Demo.config [] 10) ts v →
          v.SlotsReturned ∧ v.NoLockout Demo.scheduler) ↔
        ∀ t ∈ ts, ∀ name, ¬ t.before.DropsSlot Demo.scheduler name t.action) := by
  have possible : Demo.passes (Demo.gateway fun _ => Demo.config [] 10) neverReached
      (fun _ => true) = true := by decide +kernel
  obtain ⟨ts, g, run, -⟩ := Demo.exists_run possible
  exact ⟨ts, g, run, slots_returned_iff _ (by decide) _ _ _ _ ts g run⟩

theorem half_open_lockout :
    ∃ ts g, GatewayRun Demo.scheduler (Demo.gateway fun _ => Demo.config [] 10) ts g ∧
      (g.app.provider "a").circuitState = .halfOpen ∧ (∀ st ∈ g.runs, "a" ∉ st.ahead) ∧
      (Demo.scheduler.breaker.allowRequest g.app.now (g.app.provider "a")).1 = false := by
  have evaluated : Demo.passes (Demo.gateway fun _ => Demo.config [] 10) neverReached
      (fun r => decide ((r.1.app.provider "a").circuitState = .halfOpen ∧
        (∀ st ∈ r.1.runs, "a" ∉ st.ahead) ∧
        (Demo.scheduler.breaker.allowRequest r.1.app.now (r.1.app.provider "a")).1 = false)) =
      true := by decide +kernel
  obtain ⟨ts, g, run, found⟩ := Demo.exists_run evaluated
  exact ⟨ts, g, run, of_decide_eq_true found⟩

end Noxis
