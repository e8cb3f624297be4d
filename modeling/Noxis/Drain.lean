import Noxis.Resumption

/-! One request from its ranking to its end, given how every provider answers it and what
the rest of the process does to the shared state while the run waits. The consumer of a
stream takes every chunk. -/
namespace Noxis

/-- How a provider answers this run, and what other tasks do meanwhile: while the call is
out, and while the backoff of the given length is slept. -/
structure Upstream where
  chunks : List Json := []
  outcome : CallOutcome
  jitter : Sample
  during : AppState → AppState
  asleep : ℚ → AppState → AppState

abbrev Upstreams := String → Upstream

/-- How long a call and the oversleeping of a timer take, and the jitter drawn. -/
structure Timing where
  callTime : ℚ≥0
  oversleep : ℚ≥0
  jitter : Sample

/-- The provider in a process without other tasks: time passes, and nothing else. -/
def Upstream.alone (chunks : List Json) (outcome : CallOutcome) (timing : Timing) : Upstream :=
  { chunks, outcome, jitter := timing.jitter
    during := fun s => s.elapse timing.callTime
    asleep := fun delay s => s.elapse (delay.toNNRat + timing.oversleep) }

def Alone (env : Upstreams) : Prop :=
  ∀ name, ∃ chunks outcome timing, env name = .alone chunks outcome timing

/-- A finished run: the state it leaves, its events in order, and its end. -/
structure Drained where
  app : AppState
  events : List Event := []
  ending : RunEnd

def Drained.after (r : Drained) (earlier : List Event) : Drained :=
  { r with events := earlier ++ r.events }

def contacted (events : List Event) : List RoutingDecision :=
  events.filterMap fun
    | .dispatched _ _ d _ => some d
    | _ => none

def callsSent (events : List Event) : List (String × ChatCompletionRequest) :=
  events.filterMap fun
    | .dispatched _ _ d call => some (d.provider, call)
    | _ => none

def yielded (events : List Event) : List (Json × String) :=
  events.filterMap fun
    | .yielded chunk provider => some (chunk, provider)
    | _ => none

@[simp] theorem contacted_append (events more : List Event) :
    contacted (events ++ more) = contacted events ++ contacted more := List.filterMap_append

@[simp] theorem callsSent_append (events more : List Event) :
    callsSent (events ++ more) = callsSent events ++ callsSent more := List.filterMap_append

@[simp] theorem yielded_append (events more : List Event) :
    yielded (events ++ more) = yielded events ++ yielded more := List.filterMap_append

/-- Each decision with the number of its attempt, `k` attempts having been made before. -/
def numbered (k : ℕ) (tried : List RoutingDecision) : List (RoutingDecision × ℕ) :=
  tried.zipIdx (k + 1)

@[simp] theorem numbered_nil (k : ℕ) : numbered k [] = [] := rfl

@[simp] theorem numbered_cons (k : ℕ) (d : RoutingDecision) (rest : List RoutingDecision) :
    numbered k (d :: rest) = (d, k + 1) :: numbered (k + 1) rest := rfl

@[simp] theorem map_fst_numbered (k : ℕ) (tried : List RoutingDecision) :
    (numbered k tried).map Prod.fst = tried := List.zipIdx_map_fst _ _

namespace Scheduler

variable (sch : Scheduler) (env : Upstreams)

/-- The attempt at a decision, as it stands when its upstream call has ended. -/
def attemptAt (s : AppState) (l : LoopState) (d : RoutingDecision) (rest : List RoutingDecision) :
    Attempt :=
  { loop := l, decision := d, rest, start := s.now
    startedEmitting := decide (l.path = .executeStream) && !(env d.provider).chunks.isEmpty }

@[simp] theorem attemptAt_rest (s : AppState) (l : LoopState) (d : RoutingDecision)
    (rest : List RoutingDecision) : (attemptAt env s l d rest).rest = rest := rfl

def callEnded (s : AppState) (d : RoutingDecision) : AppState :=
  (env d.provider).during (s.acquire d.provider)

/-- The chunks passed on, each under the name of its provider. -/
def passedOn (l : LoopState) (d : RoutingDecision) : List Event :=
  match l.path with
  | .execute => []
  | .executeStream => (env d.provider).chunks.map fun chunk => .yielded chunk d.provider

def attemptEvents (s : AppState) (l : LoopState) (d : RoutingDecision)
    (rest : List RoutingDecision) : List Event :=
  .dispatched s l.attempts d (l.request.withModel d.model) ::
    (passedOn env l d ++ outcomeEvents (callEnded env s d) (attemptAt env s l d rest)
      (env d.provider).outcome)

/-- The `for` loop of either path. -/
def drainLoop : AppState → LoopState → List RoutingDecision → Drained
  | s, l, [] => { app := s, ending := exhausted l }
  | s, l, d :: rest =>
      if sch.maxRetries ≤ l.attempts then { app := s, ending := exhausted l }
      else match sch.settle (callEnded env s d) (attemptAt env s l d rest)
          (env d.provider).outcome (env d.provider).jitter with
        | (s', .stop e) => { app := s', events := attemptEvents env s l d rest, ending := e }
        | (s', .retry l') => (drainLoop s' l' rest).after (attemptEvents env s l d rest)
        | (s', .backoff l' delay) =>
            (drainLoop (((env d.provider).asleep delay s').release d.provider) l' rest).after
              (attemptEvents env s l d rest)

/-- A whole run of `execute` or `execute_stream`. -/
def drain (path : Path) (s : AppState) (request : ChatCompletionRequest) : Drained :=
  let (decisions, s) := sch.eligibleDecisions s request
  if decisions.isEmpty then { app := s, ending := .unavailable noHealthyProvider }
  else sch.drainLoop env s { path, request } decisions

/-- The loop covers the case of no decision, which the source tests first. -/
theorem drain_eq (path : Path) (s : AppState) (request : ChatCompletionRequest) :
    sch.drain env path s request =
      sch.drainLoop env (sch.eligibleDecisions s request).2 { path, request }
        (sch.eligibleDecisions s request).1 := by
  unfold drain
  generalize sch.eligibleDecisions s request = admitted
  obtain ⟨ds, s'⟩ := admitted
  cases ds with
  | nil => rfl
  | cons d ds => rfl

section loop
variable {sch env} {s : AppState} {l : LoopState} {d : RoutingDecision}
  {rest : List RoutingDecision}

theorem drainLoop_spent (spent : sch.maxRetries ≤ l.attempts) (ds : List RoutingDecision) :
    sch.drainLoop env s l ds = { app := s, ending := exhausted l } := by
  cases ds with
  | nil => rfl
  | cons d rest => simp only [drainLoop, if_pos spent]

theorem take_spent (spent : sch.maxRetries ≤ l.attempts) (ds : List RoutingDecision) :
    ds.take (sch.maxRetries - l.attempts).toNat = [] := by
  have none_left : (sch.maxRetries - l.attempts).toNat = 0 := by omega
  rw [none_left, List.take_zero]

/-- With retries left the first decision is tried, and one retry is used up. -/
theorem take_room (room : ¬ sch.maxRetries ≤ l.attempts) (d : RoutingDecision)
    (rest : List RoutingDecision) :
    (d :: rest).take (sch.maxRetries - l.attempts).toNat =
      d :: rest.take (sch.maxRetries - (l.attempts + 1 : ℕ)).toNat := by
  have one_left : (sch.maxRetries - l.attempts).toNat =
      (sch.maxRetries - (l.attempts + 1 : ℕ)).toNat + 1 := by omega
  rw [one_left, List.take_succ_cons]

theorem drainLoop_success (room : ¬ sch.maxRetries ≤ l.attempts) {result : ProviderResult}
    (ends : (env d.provider).outcome = .success result) :
    sch.drainLoop env s l (d :: rest) =
      { app := (noteSuccess (callEnded env s d) (attemptAt env s l d rest)).release d.provider
        events := attemptEvents env s l d rest
        ending := match l.path with
          | .execute => .returned result d.provider
          | .executeStream => .completed } := by
  cases path : l.path <;>
    simp [drainLoop, room, ends, settle, settleExecute, settleStream, attemptAt, path]

theorem drainLoop_otherError (room : ¬ sch.maxRetries ≤ l.attempts)
    (ends : (env d.provider).outcome = .otherError) :
    sch.drainLoop env s l (d :: rest) =
      { app := (callEnded env s d).release d.provider
        events := attemptEvents env s l d rest
        ending := .otherError } := by
  cases path : l.path <;>
    simp [drainLoop, room, ends, settle, settleExecute, settleStream, attemptAt, path]

/-- The delay behind this failure of the decision, when it can be computed. -/
def delayAfter (sch : Scheduler) (env : Upstreams) (l : LoopState) (d : RoutingDecision)
    (e : ProviderAPIError) : Option ℚ :=
  backoffDelay (l.failed e).attempts sch.backoffBase sch.backoffCap e.retryAfter
    (env d.provider).jitter

def afterBackoff (sch : Scheduler) (env : Upstreams) (s : AppState) (d : RoutingDecision)
    (e : ProviderAPIError) (delay : ℚ) : AppState :=
  ((env d.provider).asleep delay
    (sch.noteFailure (callEnded env s d) d.provider e)).release d.provider

theorem delayAfter_eq_none_iff {e : ProviderAPIError} :
    sch.delayAfter env l d e = none ↔ Overflows (l.attempts + 1) e.retryAfter :=
  backoffDelay_eq_none_iff

theorem small_of_delayAfter {e : ProviderAPIError} {delay : ℚ}
    (delayed : sch.delayAfter env l d e = some delay) :
    ¬ Overflows (l.attempts + 1) e.retryAfter := by
  intro large
  rw [delayAfter_eq_none_iff.mpr large] at delayed
  cases delayed

/-- A retryable error before any output goes to the delay on both paths. -/
theorem settle_silent {e : ProviderAPIError} (retryable : e.retryable = true)
    (silent : l.path = .execute ∨ (env d.provider).chunks = []) :
    sch.settle (callEnded env s d) (attemptAt env s l d rest) (.apiError e)
        (env d.provider).jitter =
      sch.backOff (sch.noteFailure (callEnded env s d) d.provider e) (l.failed e) d.provider e
        (env d.provider).jitter := by
  cases path : l.path with
  | execute => simp [settle, settleExecute, attemptAt, path, retryable]
  | executeStream =>
      have quiet : (env d.provider).chunks = [] := silent.resolve_left (by simp [path])
      simp [settle, settleStream, attemptAt, path, retryable, quiet]

/-- With a delay the run sleeps and goes on. -/
theorem drainLoop_backoff (room : ¬ sch.maxRetries ≤ l.attempts) {e : ProviderAPIError}
    {delay : ℚ} (ends : (env d.provider).outcome = .apiError e) (retryable : e.retryable = true)
    (silent : l.path = .execute ∨ (env d.provider).chunks = [])
    (delayed : sch.delayAfter env l d e = some delay) :
    sch.drainLoop env s l (d :: rest) =
      (sch.drainLoop env (sch.afterBackoff env s d e delay) (l.failed e) rest).after
        (attemptEvents env s l d rest) := by
  rw [delayAfter] at delayed
  simp only [drainLoop, room, if_false, ends, settle_silent retryable silent, backOff, delayed,
    afterBackoff]

/-- Without one the error of the product leaves the loop, after the slot has been freed. -/
theorem drainLoop_overflow (room : ¬ sch.maxRetries ≤ l.attempts) {e : ProviderAPIError}
    (ends : (env d.provider).outcome = .apiError e) (retryable : e.retryable = true)
    (silent : l.path = .execute ∨ (env d.provider).chunks = [])
    (large : Overflows (l.attempts + 1) e.retryAfter) :
    sch.drainLoop env s l (d :: rest) =
      { app := (sch.noteFailure (callEnded env s d) d.provider e).release d.provider
        events := attemptEvents env s l d rest
        ending := .otherError } := by
  have none_given : sch.delayAfter env l d e = none := delayAfter_eq_none_iff.mpr large
  rw [delayAfter] at none_given
  simp only [drainLoop, room, if_false, ends, settle_silent retryable silent, backOff, none_given]

/-- A terminal error on the non-streaming path: the provider is marked and the loop goes on. -/
theorem drainLoop_terminal (room : ¬ sch.maxRetries ≤ l.attempts) {e : ProviderAPIError}
    (ends : (env d.provider).outcome = .apiError e) (final : e.retryable = false)
    (path : l.path = .execute) :
    sch.drainLoop env s l (d :: rest) =
      (sch.drainLoop env (sch.afterTerminal (callEnded env s d) d.provider e) (l.failed e)
        rest).after (attemptEvents env s l d rest) := by
  simp [drainLoop, room, ends, settle, settleExecute, attemptAt, path, final, afterTerminal]

/-- The streaming path raises after its first chunk and on every terminal error. -/
theorem drainLoop_raised (room : ¬ sch.maxRetries ≤ l.attempts) {e : ProviderAPIError}
    (ends : (env d.provider).outcome = .apiError e) (path : l.path = .executeStream)
    (final : (env d.provider).chunks ≠ [] ∨ e.retryable = false) :
    sch.drainLoop env s l (d :: rest) =
      { app := (sch.noteFailure (callEnded env s d) d.provider e).release d.provider
        events := attemptEvents env s l d rest
        ending := .providerError e } := by
  have test : (!(env d.provider).chunks.isEmpty || !e.retryable) = true := by
    simpa [List.isEmpty_iff] using final
  simp only [drainLoop, room, if_false, ends, settle, settleStream, attemptAt, path,
    decide_true, Bool.true_and, test, if_true]

variable (sch env) in
/-- The ways one iteration of the loop can go, each with the result of the whole loop. -/
inductive Iterates (s : AppState) (l : LoopState) (d : RoutingDecision)
    (rest : List RoutingDecision) : Drained → Prop
  | spent (spent : sch.maxRetries ≤ l.attempts) :
      Iterates s l d rest { app := s, ending := exhausted l }
  | success {result : ProviderResult} (room : ¬ sch.maxRetries ≤ l.attempts)
      (ends : (env d.provider).outcome = .success result) :
      Iterates s l d rest
        { app := (noteSuccess (callEnded env s d) (attemptAt env s l d rest)).release d.provider
          events := attemptEvents env s l d rest
          ending := match l.path with
            | .execute => .returned result d.provider
            | .executeStream => .completed }
  | otherError (room : ¬ sch.maxRetries ≤ l.attempts)
      (ends : (env d.provider).outcome = .otherError) :
      Iterates s l d rest
        { app := (callEnded env s d).release d.provider
          events := attemptEvents env s l d rest
          ending := .otherError }
  | backoff {e : ProviderAPIError} {delay : ℚ} (room : ¬ sch.maxRetries ≤ l.attempts)
      (ends : (env d.provider).outcome = .apiError e) (retryable : e.retryable = true)
      (silent : l.path = .execute ∨ (env d.provider).chunks = [])
      (delayed : sch.delayAfter env l d e = some delay) :
      Iterates s l d rest
        ((sch.drainLoop env (sch.afterBackoff env s d e delay) (l.failed e) rest).after
          (attemptEvents env s l d rest))
  | overflow {e : ProviderAPIError} (room : ¬ sch.maxRetries ≤ l.attempts)
      (ends : (env d.provider).outcome = .apiError e) (retryable : e.retryable = true)
      (silent : l.path = .execute ∨ (env d.provider).chunks = [])
      (large : Overflows (l.attempts + 1) e.retryAfter) :
      Iterates s l d rest
        { app := (sch.noteFailure (callEnded env s d) d.provider e).release d.provider
          events := attemptEvents env s l d rest
          ending := .otherError }
  | terminal {e : ProviderAPIError} (room : ¬ sch.maxRetries ≤ l.attempts)
      (ends : (env d.provider).outcome = .apiError e) (final : e.retryable = false)
      (path : l.path = .execute) :
      Iterates s l d rest
        ((sch.drainLoop env (sch.afterTerminal (callEnded env s d) d.provider e) (l.failed e)
          rest).after (attemptEvents env s l d rest))
  | raised {e : ProviderAPIError} (room : ¬ sch.maxRetries ≤ l.attempts)
      (ends : (env d.provider).outcome = .apiError e) (path : l.path = .executeStream)
      (final : (env d.provider).chunks ≠ [] ∨ e.retryable = false) :
      Iterates s l d rest
        { app := (sch.noteFailure (callEnded env s d) d.provider e).release d.provider
          events := attemptEvents env s l d rest
          ending := .providerError e }

theorem silent_iterates (room : ¬ sch.maxRetries ≤ l.attempts) {e : ProviderAPIError}
    (ends : (env d.provider).outcome = .apiError e) (retryable : e.retryable = true)
    (silent : l.path = .execute ∨ (env d.provider).chunks = []) :
    Iterates sch env s l d rest (sch.drainLoop env s l (d :: rest)) := by
  cases delayed : sch.delayAfter env l d e with
  | some delay =>
      rw [drainLoop_backoff room ends retryable silent delayed]
      exact .backoff room ends retryable silent delayed
  | none =>
      have large := delayAfter_eq_none_iff.mp delayed
      rw [drainLoop_overflow room ends retryable silent large]
      exact .overflow room ends retryable silent large

variable (sch env s l d rest) in
theorem drainLoop_iterates : Iterates sch env s l d rest (sch.drainLoop env s l (d :: rest)) := by
  by_cases spent : sch.maxRetries ≤ l.attempts
  · rw [drainLoop_spent spent]
    exact .spent spent
  · cases ends : (env d.provider).outcome with
    | success result =>
        rw [drainLoop_success spent ends]
        exact .success spent ends
    | otherError =>
        rw [drainLoop_otherError spent ends]
        exact .otherError spent ends
    | apiError e =>
        cases path : l.path with
        | execute =>
            cases retryable : e.retryable with
            | true => exact silent_iterates spent ends retryable (.inl path)
            | false =>
                rw [drainLoop_terminal spent ends retryable path]
                exact .terminal spent ends retryable path
        | executeStream =>
            by_cases final : (env d.provider).chunks ≠ [] ∨ e.retryable = false
            · rw [drainLoop_raised spent ends path final]
              exact .raised spent ends path final
            · simp only [not_or, not_not, Bool.not_eq_false] at final
              exact silent_iterates spent ends final.2 (.inr final.1)

end loop

section alone
variable {sch env} {s : AppState} {l : LoopState} {d : RoutingDecision} {name : String}

theorem callEnded_registry (alone : Alone env) : (callEnded env s d).registry = s.registry := by
  obtain ⟨chunks, outcome, timing, eq⟩ := alone d.provider
  simp [callEnded, eq, Upstream.alone]

theorem callEnded_provider (alone : Alone env) :
    (callEnded env s d).provider name = s.provider name := by
  rw [AppState.provider, callEnded_registry alone, AppState.provider]

theorem afterBackoff_provider (alone : Alone env) (e : ProviderAPIError) (delay : ℚ)
    (other : name ≠ d.provider) :
    (sch.afterBackoff env s d e delay).provider name = s.provider name := by
  obtain ⟨chunks, outcome, timing, eq⟩ := alone d.provider
  rw [afterBackoff, AppState.release_provider, eq]
  simp only [Upstream.alone, AppState.elapse_provider]
  rw [noteFailure_provider_other other, callEnded_provider alone]

theorem afterTerminal_provider (alone : Alone env) (e : ProviderAPIError)
    (other : name ≠ d.provider) :
    (sch.afterTerminal (callEnded env s d) d.provider e).provider name = s.provider name := by
  rw [afterTerminal, AppState.release_provider, AppState.onProvider_provider_other _ _ other,
    noteFailure_provider_other other, callEnded_provider alone]

end alone

section observations
variable {env} (s : AppState) (l : LoopState) (d : RoutingDecision) (rest : List RoutingDecision)

@[simp] theorem contacted_attemptEvents : contacted (attemptEvents env s l d rest) = [d] := by
  cases path : l.path <;> cases ends : (env d.provider).outcome <;>
    simp [attemptEvents, passedOn, outcomeEvents, contacted, path, ends, List.filterMap_map]

@[simp] theorem callsSent_attemptEvents :
    callsSent (attemptEvents env s l d rest) = [(d.provider, l.request.withModel d.model)] := by
  cases path : l.path <;> cases ends : (env d.provider).outcome <;>
    simp [attemptEvents, passedOn, outcomeEvents, callsSent, path, ends, List.filterMap_map]

theorem yielded_attemptEvents (path : l.path = .executeStream) :
    yielded (attemptEvents env s l d rest) =
      (env d.provider).chunks.map fun chunk => (chunk, d.provider) := by
  cases ends : (env d.provider).outcome <;>
    simp [attemptEvents, passedOn, outcomeEvents, yielded, path, ends, List.filterMap_map]

end observations
end Scheduler

def Demo.instant : String → Timing := fun _ => { callTime := 0, oversleep := 0, jitter := Demo.half }

/-- No other tasks; the answers are still to be filled in. -/
def Demo.surroundings : Upstreams := fun name => .alone [] .otherError (Demo.instant name)

end Noxis
