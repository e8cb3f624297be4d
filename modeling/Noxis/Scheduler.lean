import Noxis.Failover
import Noxis.Router

/-! The failover loops of `execute` and `execute_stream`, cut at their await points.
What happens between two awaits is one function here, so that the gateway can interleave
runs exactly where the event loop can. The two paths share the loop head and differ in
how they settle an attempt. -/
namespace Noxis

structure Scheduler where
  breaker : CircuitBreaker
  maxRetries : ℤ
  backoffBase : ℚ
  backoffCap : ℚ

namespace AppState

variable (s : AppState)

def elapse (dt : ℚ≥0) : AppState := { s with now := s.now + dt }

def onProvider (name : String) (f : Provider → Provider) : AppState :=
  { s with registry := s.registry.modify name f }

def acquire (name : String) : AppState :=
  { s with rateLimiter := s.rateLimiter.acquire s.now name }

def release (name : String) : AppState :=
  { s with rateLimiter := s.rateLimiter.release name }

/-- `record_failure`, and `record_429` on a status of 429. -/
def limiterFailure (name : String) (e : ProviderAPIError) : AppState :=
  let limiter := s.rateLimiter.recordFailure name
  { s with
    rateLimiter := if e.statusCode = 429 then limiter.record429 s.now name e.retryAfter
      else limiter }

section projections
variable (name other : String) (f : Provider → Provider) (e : ProviderAPIError) (dt : ℚ≥0) (x : ℚ)

@[simp] theorem elapse_registry : (s.elapse dt).registry = s.registry := rfl
@[simp] theorem elapse_rateLimiter : (s.elapse dt).rateLimiter = s.rateLimiter := rfl
@[simp] theorem elapse_provider : (s.elapse dt).provider = s.provider := rfl
@[simp] theorem acquire_registry : (s.acquire name).registry = s.registry := rfl
@[simp] theorem acquire_provider : (s.acquire name).provider = s.provider := rfl
@[simp] theorem acquire_now : (s.acquire name).now = s.now := rfl
@[simp] theorem release_registry : (s.release name).registry = s.registry := rfl
@[simp] theorem release_provider : (s.release name).provider = s.provider := rfl
@[simp] theorem release_now : (s.release name).now = s.now := rfl
@[simp] theorem onProvider_now : (s.onProvider name f).now = s.now := rfl
@[simp] theorem onProvider_rateLimiter : (s.onProvider name f).rateLimiter = s.rateLimiter := rfl
@[simp] theorem onProvider_names : (s.onProvider name f).registry.names = s.registry.names := rfl
@[simp] theorem onProvider_disabledOverrides :
    (s.onProvider name f).registry.disabledOverrides = s.registry.disabledOverrides := rfl
@[simp] theorem observeLatency_registry : (s.observeLatency name x).registry = s.registry := rfl
@[simp] theorem observeLatency_provider : (s.observeLatency name x).provider = s.provider := rfl
@[simp] theorem observeLatency_now : (s.observeLatency name x).now = s.now := rfl
@[simp] theorem observeLatency_rateLimiter :
    (s.observeLatency name x).rateLimiter = s.rateLimiter := rfl
@[simp] theorem limiterFailure_registry : (s.limiterFailure name e).registry = s.registry := rfl
@[simp] theorem limiterFailure_provider : (s.limiterFailure name e).provider = s.provider := rfl
@[simp] theorem limiterFailure_now : (s.limiterFailure name e).now = s.now := rfl

@[simp] theorem onProvider_provider_self :
    (s.onProvider name f).provider name = f (s.provider name) := by
  simp [onProvider, provider]

theorem onProvider_provider_other {name other : String} (h : other ≠ name) :
    (s.onProvider name f).provider other = s.provider other := by
  simp [onProvider, provider, ProviderRegistry.modify_provider_other _ _ h]

end projections
end AppState

inductive Path where
  | execute | executeStream
  deriving DecidableEq

/-- How one awaited upstream call ends. The stream path ignores the result. -/
inductive CallOutcome where
  | success (result : ProviderResult)
  | apiError (e : ProviderAPIError)
  | otherError

inductive RunEnd where
  | returned (result : ProviderResult) (provider : String)
  | completed
  | unavailable (message : String)
  | providerError (e : ProviderAPIError)
  | otherError
  | cancelled

/-- The loop variables that survive an attempt. `trials` is a history variable: the
half-open trial slots taken for this run when it was ranked, with their period. -/
structure LoopState where
  path : Path
  request : ChatCompletionRequest
  attempts : ℕ := 0
  lastError : Option ProviderAPIError := none
  trials : List (String × ℕ) := []

/-- `attempts += 1; last_error = exc`. -/
def LoopState.failed (l : LoopState) (e : ProviderAPIError) : LoopState :=
  { l with attempts := l.attempts + 1, lastError := some e }

/-- One iteration that has acquired its provider, with the decisions still ahead. -/
structure Attempt where
  loop : LoopState
  decision : RoutingDecision
  rest : List RoutingDecision
  start : ℚ
  startedEmitting : Bool := false

/-- The await points of a run, and its end. A sleeping run still holds its slot. -/
inductive RunState where
  | calling (a : Attempt)
  | yielding (a : Attempt)
  | sleeping (a : Attempt) (wakeAt : ℚ)
  | finished (e : RunEnd)

/-- Observable events. A dispatch carries the state just before its `acquire` and the
number of providers the run has tried before. -/
inductive Event where
  | dispatched (before : AppState) (attempts : ℕ) (decision : RoutingDecision)
      (call : ChatCompletionRequest)
  | yielded (chunk : Json) (provider : String)
  | failed (time : ℚ) (provider : String) (e : ProviderAPIError)
  | probed (provider : String) (status : ℕ)

inductive Settled where
  | stop (e : RunEnd)
  | retry (l : LoopState)
  | backoff (l : LoopState) (delay : ℚ)

/-- What can resume a run. Cancellation covers the closing of a generator. -/
inductive RunAction where
  | emit (chunk : Json)
  | pull
  | callEnded (o : CallOutcome) (u : Sample)
  | wake
  | cancel

def noHealthyProvider : String := "No healthy provider is currently available."

/-- The error after the loop, whether it broke off or ran out of decisions. -/
def exhausted (l : LoopState) : RunEnd :=
  .unavailable <| match l.lastError, l.path with
    | none, _ => noHealthyProvider
    | some e, .execute => "All eligible providers failed after " ++ toString l.attempts ++
        " attempt(s). Last error: " ++ e.message
    | some e, .executeStream =>
        "All eligible providers failed before producing output. Last error: " ++ e.message

namespace Scheduler

variable (sch : Scheduler)

/-- The comprehension of `_eligible_decisions`; each test may take a trial slot. -/
def admitLoop (b : CircuitBreaker) (now : ℚ) : List RoutingDecision → ProviderRegistry →
    List RoutingDecision × ProviderRegistry
  | [], r => ([], r)
  | d :: ds, r =>
      let (ok, p) := b.allowRequest now (r.provider d.provider)
      let (admitted, r) := admitLoop b now ds (r.modify d.provider fun _ => p)
      (if ok then d :: admitted else admitted, r)

/-- `rank` never fails its assertion (`AppState.rank_spec`), so the default is not used. -/
def eligibleDecisions (s : AppState) (request : ChatCompletionRequest) :
    List RoutingDecision × AppState :=
  let (decisions, rateLimiter) := s.rank request
  let (admitted, registry) := admitLoop sch.breaker s.now (decisions.getD []) s.registry
  (admitted, { s with registry, rateLimiter })

/-- The loop head: stop, or acquire the next provider and send the call. -/
def nextAttempt (s : AppState) (l : LoopState) :
    List RoutingDecision → AppState × RunState × List Event
  | [] => (s, .finished (exhausted l), [])
  | d :: rest =>
      if sch.maxRetries ≤ l.attempts then (s, .finished (exhausted l), [])
      else (s.acquire d.provider, .calling { loop := l, decision := d, rest, start := s.now },
        [.dispatched s l.attempts d (l.request.withModel d.model)])

/-- From the entry of either path to its first await. -/
def enter (s : AppState) (l : LoopState) (decisions : List RoutingDecision) :
    AppState × RunState × List Event :=
  if decisions.isEmpty then (s, .finished (.unavailable noHealthyProvider), [])
  else sch.nextAttempt s l decisions

def noteSuccess (s : AppState) (a : Attempt) : AppState :=
  let s := s.onProvider a.decision.provider CircuitBreaker.recordSuccess
  s.observeLatency a.decision.provider ((s.now - a.start) * 1000)

def noteFailure (s : AppState) (name : String) (e : ProviderAPIError) : AppState :=
  (s.limiterFailure name e).onProvider name (sch.breaker.recordFailure s.now · e.retryable)

section providers
variable {sch} {s : AppState} {name other : String} {a : Attempt} {e : ProviderAPIError}

theorem noteSuccess_provider_self :
    (noteSuccess s a).provider a.decision.provider =
      CircuitBreaker.recordSuccess (s.provider a.decision.provider) := by
  simp [noteSuccess]

theorem noteSuccess_provider_other (h : name ≠ a.decision.provider) :
    (noteSuccess s a).provider name = s.provider name := by
  rw [noteSuccess, AppState.observeLatency_provider, s.onProvider_provider_other _ h]

theorem noteFailure_provider_self :
    (sch.noteFailure s name e).provider name =
      sch.breaker.recordFailure s.now (s.provider name) e.retryable := by
  simp [noteFailure]

theorem noteFailure_provider_other (h : name ≠ other) :
    (sch.noteFailure s other e).provider name = s.provider name := by
  rw [noteFailure, AppState.onProvider_provider_other _ _ h, AppState.limiterFailure_provider]

/-- A failure trips the breaker of a provider, counts for it, or leaves it as it is. -/
theorem noteFailure_provider_cases (sch : Scheduler) (s : AppState) (name other : String)
    (e : ProviderAPIError) :
    (sch.noteFailure s other e).provider name = s.provider name ∨
      (sch.noteFailure s other e).provider name =
        { s.provider name with consecutiveFailures := (s.provider name).consecutiveFailures + 1 } ∨
      (sch.noteFailure s other e).provider name = sch.breaker.trip s.now
        { s.provider name with consecutiveFailures := (s.provider name).consecutiveFailures + 1 } := by
  by_cases same : name = other
  · subst same
    rw [noteFailure_provider_self]
    cases e.retryable with
    | false => exact .inl rfl
    | true =>
        rcases sch.breaker.recordFailure_cases s.now (s.provider name) with tripped | ⟨-, counted⟩
        · exact .inr (.inr tripped)
        · exact .inr (.inl counted)
  · exact .inl (noteFailure_provider_other same)

end providers

/-- The backoff behind a retryable failure, awaited inside the `except` block: the slot is held
during the sleep, and `finally` releases it where no delay can be computed. -/
def backOff (s : AppState) (l : LoopState) (name : String) (e : ProviderAPIError) (u : Sample) :
    AppState × Settled :=
  match backoffDelay l.attempts sch.backoffBase sch.backoffCap e.retryAfter u with
  | some delay => (s, .backoff l delay)
  | none => (s.release name, .stop .otherError)

/-- The body of `execute` after its call has ended. `finally` releases the slot at once,
except before the backoff sleep. -/
def settleExecute (s : AppState) (a : Attempt) (o : CallOutcome) (u : Sample) :
    AppState × Settled :=
  let name := a.decision.provider
  match o with
  | .success result => ((noteSuccess s a).release name, .stop (.returned result name))
  | .apiError e =>
      let l := a.loop.failed e
      let s := sch.noteFailure s name e
      if !e.retryable then
        ((s.onProvider name (·.withHealth .unavailable)).release name, .retry l)
      else sch.backOff s l name e u
  | .otherError => (s.release name, .stop .otherError)

/-- The body of `execute_stream` after its upstream stream has ended. -/
def settleStream (s : AppState) (a : Attempt) (o : CallOutcome) (u : Sample) :
    AppState × Settled :=
  let name := a.decision.provider
  match o with
  | .success _ => ((noteSuccess s a).release name, .stop .completed)
  | .apiError e =>
      let s := sch.noteFailure s name e
      if a.startedEmitting || !e.retryable then (s.release name, .stop (.providerError e))
      else sch.backOff s (a.loop.failed e) name e u
  | .otherError => (s.release name, .stop .otherError)

def settle (s : AppState) (a : Attempt) (o : CallOutcome) (u : Sample) : AppState × Settled :=
  match a.loop.path with
  | .execute => sch.settleExecute s a o u
  | .executeStream => sch.settleStream s a o u

def outcomeEvents (s : AppState) (a : Attempt) : CallOutcome → List Event
  | .apiError e => [.failed s.now a.decision.provider e]
  | _ => []

/-- One resumption of one run, up to its next await; `none` where it cannot happen. Closing a run
at a chunk gives its slot back at once; `StreamedGateway` follows the stream it leaves open. -/
def runStep (s : AppState) : RunState → RunAction → Option (AppState × RunState × List Event)
  | .calling a, .emit chunk =>
      match a.loop.path with
      | .execute => none
      | .executeStream => some (s, .yielding { a with startedEmitting := true },
          [.yielded chunk a.decision.provider])
  | .yielding a, .pull => some (s, .calling a, [])
  | .calling a, .callEnded o u =>
      match sch.settle s a o u with
      | (s', .stop e) => some (s', .finished e, outcomeEvents s a o)
      | (s', .retry l) =>
          let (s', st, events) := sch.nextAttempt s' l a.rest
          some (s', st, outcomeEvents s a o ++ events)
      | (s', .backoff l delay) =>
          some (s', .sleeping { a with loop := l } (s.now + delay), outcomeEvents s a o)
  | .sleeping a wakeAt, .wake =>
      if wakeAt ≤ s.now then
        some (sch.nextAttempt (s.release a.decision.provider) a.loop a.rest)
      else none
  | .calling a, .cancel => some (s.release a.decision.provider, .finished .cancelled, [])
  | .yielding a, .cancel => some (s.release a.decision.provider, .finished .cancelled, [])
  | .sleeping a _, .cancel => some (s.release a.decision.provider, .finished .cancelled, [])
  | _, _ => none

end Scheduler
end Noxis
