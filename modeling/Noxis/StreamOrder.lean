import Noxis.Drain

/-! The streaming path never mixes providers: every chunk it yields comes from the last
provider it contacts. -/
namespace Noxis

/-- The provider fails before its first chunk with an error that may be retried. -/
def FailsSilently (up : Upstream) : Prop :=
  up.chunks = [] ∧ ∃ e, up.outcome = .apiError e ∧ e.retryable = true

/-- It does, and a delay can be computed for this attempt, so that the run goes on. -/
def RetriedSilently (env : Upstreams) (p : RoutingDecision × ℕ) : Prop :=
  (env p.1.provider).chunks = [] ∧ ∃ e, (env p.1.provider).outcome = .apiError e ∧
    e.retryable = true ∧ ¬ Overflows p.2 e.retryAfter

theorem RetriedSilently.failsSilently {env : Upstreams} {p : RoutingDecision × ℕ}
    (retried : RetriedSilently env p) : FailsSilently (env p.1.provider) := by
  obtain ⟨quiet, e, ends, retryable, -⟩ := retried
  exact ⟨quiet, e, ends, retryable⟩

/-- A run of the path goes on to the next decision after this attempt, if there is one. -/
def GoesOn (env : Upstreams) (path : Path) (p : RoutingDecision × ℕ) : Prop :=
  match path with
  | .execute => ∃ e, (env p.1.provider).outcome = .apiError e ∧
      ¬ (e.retryable = true ∧ Overflows p.2 e.retryAfter)
  | .executeStream => RetriedSilently env p

/-- What a drained stream over `ds` owes its consumer. -/
structure SingleProvider (env : Upstreams) (maxRetries : ℤ) (ds : List RoutingDecision)
    (r : Drained) : Prop where
  inOrder : contacted r.events <+: ds
  bounded : (contacted r.events).length ≤ maxRetries.toNat
  once : ((contacted r.events).map RoutingDecision.provider).Nodup
  silent : contacted r.events = [] → yielded r.events = []
  chunks : ∀ d, (contacted r.events).getLast? = some d →
    yielded r.events = (env d.provider).chunks.map fun chunk => (chunk, d.provider)
  earlier : ∀ d ∈ (contacted r.events).dropLast, FailsSilently (env d.provider)
  ends : r.ending = .completed ↔ ∃ d result, (contacted r.events).getLast? = some d ∧
    (env d.provider).outcome = .success result

/-- How the generator ends at a provider that did not fail silently. -/
def streamEnd : CallOutcome → RunEnd
  | .success _ => .completed
  | .apiError e => .providerError e
  | .otherError => .otherError

/-- The outcome of a loop that had the attempts `tried` within its retries: all of them fail
silently, or the first that does not is the last one made, or the first that has no delay is. -/
inductive Streams (env : Upstreams) (tried : List (RoutingDecision × ℕ)) (r : Drained) : Prop
  | allSilent (silent : ∀ p ∈ tried, RetriedSilently env p)
      (called : contacted r.events = tried.map Prod.fst) (nothing : yielded r.events = [])
      (message : String) (ending : r.ending = .unavailable message)
  | stopsAt (earlier : List (RoutingDecision × ℕ)) (p : RoutingDecision × ℕ)
      (later : List (RoutingDecision × ℕ)) (split : tried = earlier ++ p :: later)
      (silent : ∀ q ∈ earlier, RetriedSilently env q)
      (speaks : ¬ FailsSilently (env p.1.provider))
      (called : contacted r.events = earlier.map Prod.fst ++ [p.1])
      (out : yielded r.events =
        (env p.1.provider).chunks.map fun chunk => (chunk, p.1.provider))
      (ending : r.ending = streamEnd (env p.1.provider).outcome)
  | overflows (earlier : List (RoutingDecision × ℕ)) (p : RoutingDecision × ℕ)
      (later : List (RoutingDecision × ℕ)) (split : tried = earlier ++ p :: later)
      (silent : ∀ q ∈ earlier, RetriedSilently env q)
      (fails : FailsSilently (env p.1.provider)) (large : ¬ RetriedSilently env p)
      (called : contacted r.events = earlier.map Prod.fst ++ [p.1])
      (nothing : yielded r.events = []) (ending : r.ending = .otherError)

/-- A silent failure in front of the loop leaves its outcome as it is. -/
theorem Streams.after_silent {env : Upstreams} {tried : List (RoutingDecision × ℕ)} {r : Drained}
    (rest : Streams env tried r) {p : RoutingDecision × ℕ} (retried : RetriedSilently env p)
    {events : List Event} (called : contacted events = [p.1]) (nothing : yielded events = []) :
    Streams env (p :: tried) (r.after events) := by
  cases rest with
  | allSilent silent called' nothing' message ending =>
      refine .allSilent ?_ ?_ ?_ message ending
      · simpa [retried] using silent
      · simp [Drained.after, called, called']
      · simp [Drained.after, nothing, nothing']
  | stopsAt earlier last later split silent speaks called' out ending =>
      refine .stopsAt (p :: earlier) last later (by simp [split]) ?_ speaks ?_ ?_ ending
      · simpa [retried] using silent
      · simp [Drained.after, called, called']
      · simp [Drained.after, nothing, out]
  | overflows earlier last later split silent fails large called' nothing' ending =>
      refine .overflows (p :: earlier) last later (by simp [split]) ?_ fails large ?_ ?_ ending
      · simpa [retried] using silent
      · simp [Drained.after, called, called']
      · simp [Drained.after, nothing, nothing']

namespace Scheduler

variable (sch : Scheduler) (env : Upstreams)

/-- The loop of `execute_stream` from any point on, with the retries that are left. -/
theorem drainLoop_streams (ds : List RoutingDecision) (s : AppState) {l : LoopState}
    (path : l.path = .executeStream) :
    Streams env (numbered l.attempts (ds.take (sch.maxRetries - l.attempts).toNat))
      (sch.drainLoop env s l ds) := by
  have nobody : ∀ (s : AppState) (l : LoopState),
      Streams env [] { app := s, ending := exhausted l } := fun s l =>
    .allSilent (by simp) rfl rfl _ rfl
  induction ds generalizing s l with
  | nil => simpa [drainLoop] using nobody s l
  | cons d rest ih =>
      -- whatever ends the run at this provider leaves its chunks as the only output
      have stops : ∀ (app : AppState) (ending : RunEnd), ¬ sch.maxRetries ≤ l.attempts →
          ¬ FailsSilently (env d.provider) → ending = streamEnd (env d.provider).outcome →
          Streams env (numbered l.attempts ((d :: rest).take (sch.maxRetries - l.attempts).toNat))
            { app, events := attemptEvents env s l d rest, ending } := by
        intro app ending room speaks eq
        rw [take_room room]
        exact .stopsAt [] (d, l.attempts + 1) _ rfl (by simp) speaks
          (contacted_attemptEvents s l d rest) (yielded_attemptEvents s l d rest path) eq
      have nothing : (env d.provider).chunks = [] →
          yielded (attemptEvents env s l d rest) = [] := by
        intro quiet
        rw [yielded_attemptEvents s l d rest path, quiet, List.map_nil]
      have iterates := sch.drainLoop_iterates env s l d rest
      generalize sch.drainLoop env s l (d :: rest) = r at iterates ⊢
      cases iterates with
      | spent spent =>
          rw [take_spent spent]
          exact nobody s l
      | success room ends =>
          exact stops _ _ room (by simp [FailsSilently, ends]) (by simp [path, streamEnd, ends])
      | otherError room ends =>
          exact stops _ _ room (by simp [FailsSilently, ends]) (by simp [streamEnd, ends])
      | @raised e room ends _ final =>
          refine stops _ _ room ?_ (by simp [streamEnd, ends])
          rintro ⟨quiet, e', same, retryable⟩
          obtain rfl : e = e' := CallOutcome.apiError.inj (ends.symm.trans same)
          simp [quiet, retryable] at final
      | @backoff e delay room ends retryable silent delayed =>
          have quiet : (env d.provider).chunks = [] := silent.resolve_left (by simp [path])
          have failed : (l.failed e).path = .executeStream := path
          rw [take_room room]
          exact (ih (sch.afterBackoff env s d e delay) failed).after_silent
            ⟨quiet, e, ends, retryable, small_of_delayAfter delayed⟩
            (contacted_attemptEvents s l d rest) (nothing quiet)
      | @overflow e room ends retryable silent large =>
          have quiet : (env d.provider).chunks = [] := silent.resolve_left (by simp [path])
          rw [take_room room]
          refine .overflows [] (d, l.attempts + 1) _ rfl (by simp) ⟨quiet, e, ends, retryable⟩ ?_
            (contacted_attemptEvents s l d rest) (nothing quiet) rfl
          rintro ⟨-, e', same, -, small⟩
          obtain rfl : e = e' := CallOutcome.apiError.inj (ends.symm.trans same)
          exact small large
      | terminal room ends final execute => simp [path] at execute

theorem drain_streams (s : AppState) (request : ChatCompletionRequest) :
    Streams env (numbered 0 ((sch.eligibleDecisions s request).1.take sch.maxRetries.toNat))
      (sch.drain env .executeStream s request) := by
  have start : ({ path := .executeStream, request } : LoopState).path = .executeStream := rfl
  have loop := sch.drainLoop_streams env (sch.eligibleDecisions s request).1
    (sch.eligibleDecisions s request).2 start
  rw [sch.drain_eq]
  simpa using loop

end Scheduler

/-- For every ranked list and every behaviour of the upstream streams, the generator yields
exactly the chunks of the last provider contacted, after silent retryable failures only. -/
theorem stream_single_provider (sch : Scheduler) (env : Upstreams) (s : AppState)
    (request : ChatCompletionRequest) :
    SingleProvider env sch.maxRetries (sch.eligibleDecisions s request).1
      (sch.drain env .executeStream s request) := by
  have distinct := (sch.eligibleDecisions_spec s request).distinct
  have run := sch.drain_streams env s request
  generalize sch.drain env .executeStream s request = r at run ⊢
  generalize (sch.eligibleDecisions s request).1 = ds at run distinct ⊢
  have tried : contacted r.events <+: ds.take sch.maxRetries.toNat := by
    rw [← map_fst_numbered 0 (ds.take sch.maxRetries.toNat)]
    cases run with
    | allSilent silent called => rw [called]
    | stopsAt earlier p later split silent speaks called =>
        rw [called, split]
        exact ⟨later.map Prod.fst, by simp⟩
    | overflows earlier p later split silent fails large called =>
        rw [called, split]
        exact ⟨later.map Prod.fst, by simp⟩
  have inOrder : contacted r.events <+: ds := tried.trans (List.take_prefix _ _)
  have bounded : (contacted r.events).length ≤ sch.maxRetries.toNat :=
    tried.length_le.trans (List.length_take_le _ _)
  have once := distinct.sublist (inOrder.sublist.map RoutingDecision.provider)
  have passed : ∀ {l : List (RoutingDecision × ℕ)}, (∀ p ∈ l, RetriedSilently env p) →
      ∀ d ∈ l.map Prod.fst, FailsSilently (env d.provider) := by
    intro l silent d member
    obtain ⟨p, inside, rfl⟩ := List.mem_map.mp member
    exact (silent p inside).failsSilently
  -- a silent failure of the last provider is no success, and leaves nothing to yield
  have unserved : (∀ d, (contacted r.events).getLast? = some d → FailsSilently (env d.provider)) →
      ¬ ∃ d result, (contacted r.events).getLast? = some d ∧
        (env d.provider).outcome = .success result := by
    rintro last_silent ⟨d, result, last, success⟩
    obtain ⟨-, e, error, -⟩ := last_silent d last
    simp [success] at error
  cases run with
  | allSilent silent called nothing message ending =>
      have last_silent : ∀ d, (contacted r.events).getLast? = some d →
          FailsSilently (env d.provider) := by
        intro d last
        exact passed silent d (called ▸ List.mem_of_getLast? last)
      refine ⟨inOrder, bounded, once, fun _ => nothing, ?_, ?_, ?_⟩
      · intro d last
        rw [nothing, (last_silent d last).1, List.map_nil]
      · intro d member
        exact passed silent d (called ▸ List.mem_of_mem_dropLast member)
      · simpa only [ending, reduceCtorEq, false_iff] using unserved last_silent
  | stopsAt earlier p later split silent speaks called out ending =>
      refine ⟨inOrder, bounded, once, by simp [called], ?_, by simpa [called] using passed silent, ?_⟩
      · intro last final
        obtain rfl : p.1 = last := by simpa [called] using final
        exact out
      · rw [ending]
        cases ends : (env p.1.provider).outcome <;> simp [called, streamEnd, ends]
  | overflows earlier p later split silent fails large called nothing ending =>
      have last_silent : ∀ d, (contacted r.events).getLast? = some d →
          FailsSilently (env d.provider) := by
        intro d last
        obtain rfl : p.1 = d := by simpa [called] using last
        exact fails
      refine ⟨inOrder, bounded, once, by simp [called], ?_, by simpa [called] using passed silent, ?_⟩
      · intro d last
        rw [nothing, (last_silent d last).1, List.map_nil]
      · simpa only [ending, reduceCtorEq, false_iff] using unserved last_silent

end Noxis
