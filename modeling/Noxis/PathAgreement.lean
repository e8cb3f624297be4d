import Noxis.FirstSuccess

/-! Streaming against non-streaming failover from the same state. The two loops agree as
long as no provider they reach answers with a terminal error; there `execute` marks the
provider and goes on, while `execute_stream` raises and marks nothing. Where no delay can be
computed both end alike. -/
namespace Noxis

/-- The answers of providers that never fail after their first chunk. -/
abbrev StreamAnswers := String → Except ProviderAPIError (ProviderResult × List Json)

/-- Both paths see the same upstream: outcome and timing of each call, and chunks before
a success only. -/
def StreamAnswers.upstreams (answers : StreamAnswers) (timing : String → Timing) : Upstreams :=
  fun name => match answers name with
    | .ok (result, chunks) => .alone chunks (.success result) (timing name)
    | .error e => .alone [] (.apiError e) (timing name)

section upstreams
variable {answers : StreamAnswers} {timing : String → Timing} {name : String}

theorem upstreams_ok {result : ProviderResult} {chunks : List Json}
    (answer : answers name = .ok (result, chunks)) :
    answers.upstreams timing name = .alone chunks (.success result) (timing name) := by
  simp [StreamAnswers.upstreams, answer]

theorem upstreams_error {e : ProviderAPIError} (answer : answers name = .error e) :
    answers.upstreams timing name = .alone [] (.apiError e) (timing name) := by
  simp [StreamAnswers.upstreams, answer]

end upstreams

/-- The attempt fails so that either loop sleeps and goes on. -/
def Retried (answers : StreamAnswers) (p : RoutingDecision × ℕ) : Prop :=
  ∃ e, answers p.1.provider = .error e ∧ e.retryable = true ∧ ¬ Overflows p.2 e.retryAfter

/-- No attempt behind retried ones meets a terminal error. -/
def NoTerminalError (answers : StreamAnswers) (tried : List (RoutingDecision × ℕ)) : Prop :=
  ∀ earlier p later e, tried = earlier ++ p :: later → (∀ q ∈ earlier, Retried answers q) →
    answers p.1.provider = .error e → e.retryable = true

section noTerminalError
variable {answers : StreamAnswers} {p : RoutingDecision × ℕ} {tried : List (RoutingDecision × ℕ)}

theorem NoTerminalError.first (free : NoTerminalError answers (p :: tried)) {e : ProviderAPIError}
    (answer : answers p.1.provider = .error e) : e.retryable = true :=
  free [] p tried e rfl (by simp) answer

theorem NoTerminalError.later (free : NoTerminalError answers (p :: tried))
    (retried : Retried answers p) : NoTerminalError answers tried := by
  intro earlier q later e split all answer
  refine free (p :: earlier) q later e (by rw [split]; rfl) ?_ answer
  simpa [retried] using all

end noTerminalError

def RunEnd.succeeded : RunEnd → Bool
  | .returned _ _ | .completed => true
  | _ => false

/-- The runs succeed from the same provider or both fail. -/
def SameResult (x y : Drained) : Prop :=
  (∃ result d, x.ending = .returned result d.provider ∧ y.ending = .completed ∧
    (contacted y.events).getLast? = some d) ∨
  (x.ending.succeeded = false ∧ y.ending.succeeded = false)

/-- The runs contact the same providers, with the same result, and leave the same breaker
state, health, failure count and usage window for every provider. -/
structure Agree (x y : Drained) : Prop where
  contacts : contacted x.events = contacted y.events
  result : SameResult x y
  circuit : ∀ name, (x.app.provider name).circuitState = (y.app.provider name).circuitState
  health : ∀ name, (x.app.provider name).health = (y.app.provider name).health
  failures : ∀ name,
    (x.app.provider name).consecutiveFailures = (y.app.provider name).consecutiveFailures
  usage : ∀ name, x.app.rateLimiter name = y.app.rateLimiter name

theorem Agree.of_app_eq {x y : Drained} (contacts : contacted x.events = contacted y.events)
    (result : SameResult x y) (same : x.app = y.app) : Agree x y := by
  refine ⟨contacts, result, ?_, ?_, ?_, ?_⟩
  all_goals
    intro name
    rw [same]

/-- The two loops at the same point of the same request. -/
structure LockStep (l l' : LoopState) : Prop where
  execute : l.path = .execute
  stream : l'.path = .executeStream
  attempts : l'.attempts = l.attempts

theorem LockStep.failed {l l' : LoopState} (h : LockStep l l') (e : ProviderAPIError) :
    LockStep (l.failed e) (l'.failed e) :=
  ⟨h.execute, h.stream, congrArg (· + 1) h.attempts⟩

theorem LockStep.start (request : ChatCompletionRequest) :
    LockStep { path := .execute, request } { path := .executeStream, request } := ⟨rfl, rfl, rfl⟩

namespace Scheduler

variable (sch : Scheduler) {answers : StreamAnswers} (timing : String → Timing)

theorem upstreams_alone (answers : StreamAnswers) (timing : String → Timing) :
    Alone (answers.upstreams timing) := by
  intro name
  cases answer : answers name with
  | ok value => exact ⟨_, _, _, upstreams_ok answer⟩
  | error e => exact ⟨_, _, _, upstreams_error answer⟩

section
variable {sch} {l l' : LoopState} {d : RoutingDecision} (s : AppState) (rest : List RoutingDecision)

theorem upstreams_outcome {e : ProviderAPIError} (answer : answers d.provider = .error e) :
    ((answers.upstreams timing) d.provider).outcome = .apiError e := by
  rw [upstreams_error answer]
  rfl

theorem upstreams_chunks {e : ProviderAPIError} (answer : answers d.provider = .error e) :
    ((answers.upstreams timing) d.provider).chunks = [] := by
  rw [upstreams_error answer]
  rfl

/-- On a retryable error with a delay both loops sleep and go on from the same state. -/
theorem drainLoop_backoff_both (step : LockStep l l') (room : ¬ sch.maxRetries ≤ l.attempts)
    {e : ProviderAPIError} (answer : answers d.provider = .error e)
    (retryable : e.retryable = true) (small : ¬ Overflows (l.attempts + 1) e.retryAfter) :
    ∃ delay,
      sch.drainLoop (answers.upstreams timing) s l (d :: rest) =
          (sch.drainLoop (answers.upstreams timing)
            (sch.afterBackoff (answers.upstreams timing) s d e delay) (l.failed e) rest).after
            (attemptEvents (answers.upstreams timing) s l d rest) ∧
        sch.drainLoop (answers.upstreams timing) s l' (d :: rest) =
          (sch.drainLoop (answers.upstreams timing)
            (sch.afterBackoff (answers.upstreams timing) s d e delay) (l'.failed e) rest).after
            (attemptEvents (answers.upstreams timing) s l' d rest) := by
  have ends := upstreams_outcome timing answer
  have silent := upstreams_chunks timing answer
  have room' : ¬ sch.maxRetries ≤ l'.attempts := step.attempts ▸ room
  cases delayed : sch.delayAfter (answers.upstreams timing) l d e with
  | none => exact absurd (delayAfter_eq_none_iff.mp delayed) small
  | some delay =>
      have delayed' : sch.delayAfter (answers.upstreams timing) l' d e = some delay := by
        rw [← delayed]
        simp only [delayAfter, LoopState.failed, step.attempts]
      exact ⟨delay, drainLoop_backoff room ends retryable (.inl step.execute) delayed,
        drainLoop_backoff room' ends retryable (.inr silent) delayed'⟩

end

/-- Without a terminal error among the providers reached, the loops run in lock-step. -/
theorem drainLoop_lockstep (ds : List RoutingDecision) (s : AppState) {l l' : LoopState}
    (step : LockStep l l')
    (free : NoTerminalError answers
      (numbered l.attempts (ds.take (sch.maxRetries - l.attempts).toNat))) :
    let x := sch.drainLoop (answers.upstreams timing) s l ds
    let y := sch.drainLoop (answers.upstreams timing) s l' ds
    contacted x.events = contacted y.events ∧ SameResult x y ∧ x.app = y.app := by
  have stopped : ∀ (l : LoopState), (exhausted l).succeeded = false := fun _ => rfl
  induction ds generalizing s l l' with
  | nil => exact ⟨rfl, .inr ⟨stopped l, stopped l'⟩, rfl⟩
  | cons d rest ih =>
      by_cases spent : sch.maxRetries ≤ l.attempts
      · rw [drainLoop_spent spent, drainLoop_spent (step.attempts ▸ spent)]
        exact ⟨rfl, .inr ⟨stopped l, stopped l'⟩, rfl⟩
      · have spent' : ¬ sch.maxRetries ≤ l'.attempts := step.attempts ▸ spent
        rw [take_room spent, numbered_cons] at free
        cases answer : answers d.provider with
        | ok value =>
            obtain ⟨result, chunks⟩ := value
            have ends : ((answers.upstreams timing) d.provider).outcome = .success result := by
              rw [upstreams_ok answer]
              rfl
            rw [drainLoop_success spent ends, drainLoop_success spent' ends]
            refine ⟨by simp, .inl ⟨result, d, by simp [step.execute], by simp [step.stream], by simp⟩,
              rfl⟩
        | error e =>
            have again : e.retryable = true := free.first answer
            by_cases large : Overflows (l.attempts + 1) e.retryAfter
            · have ends := upstreams_outcome timing answer
              have silent := upstreams_chunks timing answer
              rw [drainLoop_overflow spent ends again (.inl step.execute) large,
                drainLoop_overflow spent' ends again (.inr silent) (step.attempts ▸ large)]
              exact ⟨by simp, .inr ⟨rfl, rfl⟩, rfl⟩
            · obtain ⟨delay, eq, eq'⟩ :=
                drainLoop_backoff_both timing s rest step spent answer again large
              rw [eq, eq']
              obtain ⟨contacts, result, app⟩ := ih
                (sch.afterBackoff (answers.upstreams timing) s d e delay) (step.failed e)
                (free.later ⟨e, answer, again, large⟩)
              refine ⟨?_, ?_, app⟩
              · simpa [Drained.after] using contacts
              · rcases result with ⟨value, last, returned, completed, final⟩ | failures
                · refine .inl ⟨value, last, returned, completed, ?_⟩
                  simp [Drained.after, List.getLast?_cons, final]
                · exact .inr failures

theorem drainLoop_untouched {env : Upstreams} (alone : Alone env) {name : String}
    (ds : List RoutingDecision) (s : AppState) (l : LoopState)
    (absent : name ∉ ds.map RoutingDecision.provider) :
    (sch.drainLoop env s l ds).app.provider name = s.provider name := by
  induction ds generalizing s l with
  | nil => rfl
  | cons d rest ih =>
      simp only [List.map_cons, List.mem_cons, not_or] at absent
      obtain ⟨other, absent⟩ := absent
      have ended : (callEnded env s d).provider name = s.provider name := callEnded_provider alone
      have iterates := sch.drainLoop_iterates env s l d rest
      generalize sch.drainLoop env s l (d :: rest) = r at iterates ⊢
      cases iterates with
      | spent => rfl
      | success => exact (noteSuccess_provider_other other).trans ended
      | otherError => exact ended
      | raised => exact (noteFailure_provider_other other).trans ended
      | overflow => exact (noteFailure_provider_other other).trans ended
      | backoff => exact (ih _ _ absent).trans (afterBackoff_provider alone _ _ other)
      | terminal => exact (ih _ _ absent).trans (afterTerminal_provider alone _ other)

/-- A terminal error of the first provider leaves it in different health on the two paths. -/
theorem drainLoop_terminal_differs {d : RoutingDecision} {rest : List RoutingDecision}
    (absent : d.provider ∉ rest.map RoutingDecision.provider) (s : AppState)
    (healthy : eligibleHealth (s.provider d.provider).health = true) {l l' : LoopState}
    (step : LockStep l l') (room : ¬ sch.maxRetries ≤ l.attempts) {e : ProviderAPIError}
    (answer : answers d.provider = .error e) (final : e.retryable = false) :
    ((sch.drainLoop (answers.upstreams timing) s l (d :: rest)).app.provider d.provider).health ≠
      ((sch.drainLoop (answers.upstreams timing) s l' (d :: rest)).app.provider d.provider).health := by
  have alone := upstreams_alone answers timing
  have ends : ((answers.upstreams timing) d.provider).outcome = .apiError e := by
    rw [upstreams_error answer]
    rfl
  have marked : ((sch.drainLoop (answers.upstreams timing) s l
      (d :: rest)).app.provider d.provider).health = .unavailable := by
    rw [drainLoop_terminal room ends final step.execute, Drained.after,
      sch.drainLoop_untouched alone _ _ _ absent]
    simp [afterTerminal]
  have kept : ((sch.drainLoop (answers.upstreams timing) s l'
      (d :: rest)).app.provider d.provider).health = (s.provider d.provider).health := by
    have room' : ¬ sch.maxRetries ≤ l'.attempts := step.attempts ▸ room
    rw [drainLoop_raised room' ends step.stream (.inr final)]
    simp [noteFailure, final, callEnded_provider alone]
  rw [marked, kept]
  intro same
  rw [← same] at healthy
  simp [eligibleHealth] at healthy

/-- At the first terminal error the two paths leave that provider in different health. -/
theorem drainLoop_diverge (ds : List RoutingDecision)
    (distinct : (ds.map RoutingDecision.provider).Nodup) (s : AppState)
    (eligible : ∀ d ∈ ds, eligibleHealth (s.provider d.provider).health = true)
    {l l' : LoopState} (step : LockStep l l') {earlier later : List (RoutingDecision × ℕ)}
    {p : RoutingDecision × ℕ} {e : ProviderAPIError}
    (split : numbered l.attempts (ds.take (sch.maxRetries - l.attempts).toNat) =
      earlier ++ p :: later)
    (retried : ∀ q ∈ earlier, Retried answers q) (answered : answers p.1.provider = .error e)
    (final : e.retryable = false) :
    ∃ name,
      ((sch.drainLoop (answers.upstreams timing) s l ds).app.provider name).health ≠
      ((sch.drainLoop (answers.upstreams timing) s l' ds).app.provider name).health := by
  induction ds generalizing s l l' earlier with
  | nil => simp at split
  | cons first rest ih =>
      by_cases spent : sch.maxRetries ≤ l.attempts
      · rw [take_spent spent, numbered_nil] at split
        simp at split
      · rw [take_room spent, numbered_cons] at split
        simp only [List.map_cons, List.nodup_cons] at distinct
        cases earlier with
        | nil =>
            obtain ⟨rfl, -⟩ := List.cons.inj split
            exact ⟨first.provider, sch.drainLoop_terminal_differs timing distinct.1 s
              (eligible first List.mem_cons_self) step spent answered final⟩
        | cons q earlier =>
            obtain ⟨rfl, tail⟩ := List.cons.inj split
            obtain ⟨e', answer, retryable, small⟩ := retried _ List.mem_cons_self
            obtain ⟨delay, eq, eq'⟩ :=
              drainLoop_backoff_both timing s rest step spent answer retryable small
            rw [eq, eq']
            refine ih distinct.2 _ ?_ (step.failed e') tail
              fun q member => retried q (List.mem_cons_of_mem _ member)
            intro x member
            have other : x.provider ≠ first.provider := by
              rintro same
              exact distinct.1 (same ▸ List.mem_map_of_mem member)
            rw [afterBackoff_provider (upstreams_alone answers timing) e' _ other]
            exact eligible x (List.mem_cons_of_mem _ member)

end Scheduler

/-- The paths agree if and only if no provider within the retry bound, behind retryable failures
with a delay only, answers with a terminal error. -/
theorem paths_agree_iff (sch : Scheduler) (answers : StreamAnswers) (timing : String → Timing)
    (s : AppState) (request : ChatCompletionRequest) :
    Agree (sch.drain (answers.upstreams timing) .execute s request)
        (sch.drain (answers.upstreams timing) .executeStream s request) ↔
      NoTerminalError answers
        (numbered 0 ((sch.eligibleDecisions s request).1.take sch.maxRetries.toNat)) := by
  have admission := sch.eligibleDecisions_spec s request
  rw [sch.drain_eq, sch.drain_eq]
  have full : (sch.maxRetries - ((0 : ℕ) : ℤ)).toNat = sch.maxRetries.toNat := by simp
  constructor
  · intro agree earlier p later e split retried answered
    by_contra terminal
    have eligible : ∀ d ∈ (sch.eligibleDecisions s request).1,
        eligibleHealth ((sch.eligibleDecisions s request).2.provider d.provider).health = true := by
      intro d member
      rw [admission.touched d member, CircuitBreaker.allowRequest_health]
      exact (admission.eligible d member).1
    obtain ⟨name, differs⟩ := sch.drainLoop_diverge timing
      (sch.eligibleDecisions s request).1 admission.distinct _ eligible (.start request)
      (by rw [full]; exact split) retried answered (by simpa using terminal)
    exact differs (agree.health name)
  · intro free
    obtain ⟨contacts, result, app⟩ := sch.drainLoop_lockstep timing
      (sch.eligibleDecisions s request).1 (sch.eligibleDecisions s request).2 (.start request)
      (by rw [full]; exact free)
    exact .of_app_eq contacts result app

/-- Every provider answers with this status at once. -/
def Demo.answersWith (status : ℕ) : StreamAnswers := fun _ => .error (Demo.apiError status)

theorem paths_disagree_on_terminal_error :
    ¬ Agree
      (Demo.scheduler.drain ((Demo.answersWith 404).upstreams Demo.instant) .execute
        (Demo.gateway fun _ => Demo.config [] 10).app (Demo.request "m"))
      (Demo.scheduler.drain ((Demo.answersWith 404).upstreams Demo.instant) .executeStream
        (Demo.gateway fun _ => Demo.config [] 10).app (Demo.request "m")) := by
  intro agree
  have evaluated : ((Demo.scheduler.drain ((Demo.answersWith 404).upstreams Demo.instant) .execute
      (Demo.gateway fun _ => Demo.config [] 10).app (Demo.request "m")).app.provider "a").health ≠
      ((Demo.scheduler.drain ((Demo.answersWith 404).upstreams Demo.instant) .executeStream
      (Demo.gateway fun _ => Demo.config [] 10).app (Demo.request "m")).app.provider "a").health := by
    decide +kernel
  exact evaluated (agree.health "a")

end Noxis
