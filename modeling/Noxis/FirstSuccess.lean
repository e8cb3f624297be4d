import Noxis.Drain

/-! Failover on the non-streaming path: `execute` is a search for the first provider that
succeeds among the first `max_retries` decisions, as long as a delay can be computed behind each
retryable failure before it. -/
namespace Noxis

/-- The list up to and including its first element that passes the test. -/
def throughFirst {α : Type} (test : α → Bool) (l : List α) : List α :=
  l.takeWhile (fun x => !test x) ++ (l.find? test).toList

section throughFirst
variable {α : Type} {test : α → Bool}

@[simp] theorem throughFirst_nil : throughFirst test [] = [] := rfl

theorem throughFirst_cons_pos {x : α} (passes : test x = true) (l : List α) :
    throughFirst test (x :: l) = [x] := by
  simp [throughFirst, passes]

theorem throughFirst_cons_neg {x : α} (refused : test x = false) (l : List α) :
    throughFirst test (x :: l) = x :: throughFirst test l := by
  simp [throughFirst, refused]

theorem throughFirst_prefix (l : List α) : throughFirst test l <+: l := by
  induction l with
  | nil => exact List.prefix_rfl
  | cons x l ih =>
      cases result : test x with
      | true =>
          rw [throughFirst_cons_pos result]
          exact ⟨l, rfl⟩
      | false =>
          rw [throughFirst_cons_neg result]
          exact (List.prefix_cons_inj x).mpr ih

end throughFirst

/-- The answers of a world in which every call ends in a result or a provider error. -/
abbrev Answers := String → Except ProviderAPIError ProviderResult

def CallOutcome.ofAnswer : Except ProviderAPIError ProviderResult → CallOutcome
  | .ok result => .success result
  | .error e => .apiError e

section ofAnswer
variable {answer : Except ProviderAPIError ProviderResult}

theorem ofAnswer_success {result : ProviderResult}
    (eq : CallOutcome.ofAnswer answer = .success result) : answer = .ok result := by
  cases answer with
  | ok value => exact congrArg _ (CallOutcome.success.inj eq)
  | error e => simp [CallOutcome.ofAnswer] at eq

theorem ofAnswer_apiError {e : ProviderAPIError} (eq : CallOutcome.ofAnswer answer = .apiError e) :
    answer = .error e := by
  cases answer with
  | ok value => simp [CallOutcome.ofAnswer] at eq
  | error e' => exact congrArg _ (CallOutcome.apiError.inj eq)

theorem ofAnswer_ne_otherError (answer : Except ProviderAPIError ProviderResult) :
    CallOutcome.ofAnswer answer ≠ .otherError := by
  cases answer <;> simp [CallOutcome.ofAnswer]

end ofAnswer

def Upstreams.answering (env : Upstreams) (answers : Answers) : Upstreams :=
  fun name => { env name with outcome := .ofAnswer (answers name) }

def serves (answers : Answers) (d : RoutingDecision) : Bool :=
  match answers d.provider with
  | .ok _ => true
  | .error _ => false

/-- One of the attempts that fail before the first success is so late that no delay can be
computed for it. -/
def Overruns (answers : Answers) (tried : List (RoutingDecision × ℕ)) : Prop :=
  ∃ p ∈ tried.takeWhile fun p => !serves answers p.1, ∃ e, answers p.1.provider = .error e ∧
    e.retryable = true ∧ Overflows p.2 e.retryAfter

section overruns
variable {answers : Answers} {d : RoutingDecision} {n : ℕ}

theorem not_overruns_nil (answers : Answers) : ¬ Overruns answers [] := by
  rintro ⟨p, member, -⟩
  cases member

theorem not_overruns_served (served : serves answers d = true)
    (rest : List (RoutingDecision × ℕ)) : ¬ Overruns answers ((d, n) :: rest) := by
  rintro ⟨p, member, -⟩
  simp [served] at member

/-- Where the first attempt fails, either its delay overflows or a later one does. -/
theorem overruns_cons {e : ProviderAPIError} (answer : answers d.provider = .error e)
    (rest : List (RoutingDecision × ℕ)) :
    Overruns answers ((d, n) :: rest) ↔
      (e.retryable = true ∧ Overflows n e.retryAfter) ∨ Overruns answers rest := by
  have refused : serves answers d = false := by simp [serves, answer]
  simp [Overruns, refused, answer]

end overruns

/-- What a failover run over `ds` owes its caller. -/
structure FailsOver (answers : Answers) (maxRetries : ℤ) (request : ChatCompletionRequest)
    (ds : List RoutingDecision) (r : Drained) : Prop where
  called : contacted r.events = throughFirst (serves answers) (ds.take maxRetries.toNat)
  inOrder : contacted r.events <+: ds
  bounded : (contacted r.events).length ≤ maxRetries.toNat
  once : ((contacted r.events).map RoutingDecision.provider).Nodup
  models : callsSent r.events =
    (contacted r.events).map fun d => (d.provider, request.withModel d.model)
  returns : ∀ d result, (ds.take maxRetries.toNat).find? (serves answers) = some d →
    answers d.provider = .ok result → r.ending = .returned result d.provider
  raises : (∃ message, r.ending = .unavailable message) ↔
    ∀ d ∈ ds.take maxRetries.toNat, serves answers d = false
  idle : ds = [] ∨ maxRetries ≤ 0 → ∃ message, r.ending = .unavailable message
  contained : ∀ e, r.ending ≠ .providerError e

namespace Scheduler

variable (sch : Scheduler) (env : Upstreams) (answers : Answers)

/-- The outcome of a loop that had the decisions `tried` within its retries. -/
structure Searches (answers : Answers) (request : ChatCompletionRequest)
    (tried : List RoutingDecision) (r : Drained) : Prop where
  called : contacted r.events = throughFirst (serves answers) tried
  sent : callsSent r.events =
    (contacted r.events).map fun d => (d.provider, request.withModel d.model)
  result :
    (∃ d value, tried.find? (serves answers) = some d ∧ answers d.provider = .ok value ∧
      r.ending = .returned value d.provider) ∨
    (tried.find? (serves answers) = none ∧ ∃ message, r.ending = .unavailable message)

/-- What the loop of `execute` comes to: the search, or the error of the product. -/
structure SearchesOrOverruns (answers : Answers) (request : ChatCompletionRequest) (k : ℕ)
    (tried : List RoutingDecision) (r : Drained) : Prop where
  searches : ¬ Overruns answers (numbered k tried) → Searches answers request tried r
  overruns : Overruns answers (numbered k tried) → r.ending = .otherError

theorem SearchesOrOverruns.of_searches {answers : Answers} {request : ChatCompletionRequest}
    {k : ℕ} {tried : List RoutingDecision} {r : Drained}
    (fits : ¬ Overruns answers (numbered k tried))
    (searches : Searches answers request tried r) :
    SearchesOrOverruns answers request k tried r :=
  ⟨fun _ => searches, fun overruns => absurd overruns fits⟩

/-- Either kind of error costs one attempt and leaves the rest of the list. -/
theorem SearchesOrOverruns.after_error {answers : Answers} {request : ChatCompletionRequest} {k : ℕ}
    {d : RoutingDecision} {tried : List RoutingDecision} {r : Drained} {e : ProviderAPIError}
    {events : List Event} (answer : answers d.provider = .error e)
    (small : ¬ (e.retryable = true ∧ Overflows (k + 1) e.retryAfter))
    (contacts : contacted events = [d])
    (sends : callsSent events = [(d.provider, request.withModel d.model)])
    (later : SearchesOrOverruns answers request (k + 1) tried r) :
    SearchesOrOverruns answers request k (d :: tried) (r.after events) := by
  have refused : serves answers d = false := by simp [serves, answer]
  constructor
  · intro fits
    rw [numbered_cons, overruns_cons answer, not_or] at fits
    obtain ⟨called, sent, result⟩ := later.searches fits.2
    refine ⟨?_, ?_, ?_⟩
    · simp only [Drained.after, contacted_append, contacts, List.singleton_append,
        throughFirst_cons_neg refused]
      exact congrArg _ called
    · simp only [Drained.after, contacted_append, callsSent_append, contacts, sends,
        List.singleton_append, List.map_cons]
      exact congrArg _ sent
    · simpa [refused, Drained.after] using result
  · intro overruns
    rw [numbered_cons, overruns_cons answer] at overruns
    exact later.overruns (overruns.resolve_left small)

/-- The loop of `execute` from any point on, with the retries that are left. -/
theorem drainLoop_searches (ds : List RoutingDecision) (s : AppState) {l : LoopState}
    (path : l.path = .execute) :
    SearchesOrOverruns answers l.request l.attempts
      (ds.take (sch.maxRetries - l.attempts).toNat)
      (sch.drainLoop (env.answering answers) s l ds) := by
  induction ds generalizing s l with
  | nil =>
      rw [List.take_nil]
      exact .of_searches (not_overruns_nil _)
        ⟨by simp [drainLoop, contacted], rfl, .inr ⟨rfl, _, rfl⟩⟩
  | cons d rest ih =>
      have outcome : ((env.answering answers) d.provider).outcome = .ofAnswer (answers d.provider) :=
        rfl
      have goes_on : ∀ s' e, ¬ sch.maxRetries ≤ l.attempts → answers d.provider = .error e →
          ¬ (e.retryable = true ∧ Overflows (l.attempts + 1) e.retryAfter) →
          SearchesOrOverruns answers l.request l.attempts
            ((d :: rest).take (sch.maxRetries - l.attempts).toNat)
            ((sch.drainLoop (env.answering answers) s' (l.failed e) rest).after
              (attemptEvents (env.answering answers) s l d rest)) := by
        intro s' e room answer small
        have failed : (l.failed e).path = .execute := path
        rw [take_room room]
        exact .after_error answer small (contacted_attemptEvents ..) (callsSent_attemptEvents ..)
          (ih s' failed)
      have iterates := sch.drainLoop_iterates (env.answering answers) s l d rest
      generalize sch.drainLoop (env.answering answers) s l (d :: rest) = r at iterates ⊢
      cases iterates with
      | spent spent =>
          rw [take_spent spent]
          exact .of_searches (not_overruns_nil _) ⟨by simp [contacted], rfl, .inr ⟨by simp, _, rfl⟩⟩
      | @success result room ends =>
          have answer : answers d.provider = .ok result := ofAnswer_success (outcome.symm.trans ends)
          have served : serves answers d = true := by simp [serves, answer]
          rw [take_room room]
          refine .of_searches (not_overruns_served served _)
            ⟨?_, by simp, .inl ⟨d, result, by simp [served], answer, by simp [path]⟩⟩
          rw [contacted_attemptEvents, throughFirst_cons_pos served]
      | backoff room ends retryable silent delayed =>
          exact goes_on _ _ room (ofAnswer_apiError (outcome.symm.trans ends))
            fun large => small_of_delayAfter delayed large.2
      | terminal room ends final =>
          exact goes_on _ _ room (ofAnswer_apiError (outcome.symm.trans ends))
            fun large => by simp [large.1] at final
      | overflow room ends retryable silent large =>
          have answer := ofAnswer_apiError (outcome.symm.trans ends)
          rw [take_room room]
          have overruns : Overruns answers (numbered l.attempts
              (d :: rest.take (sch.maxRetries - (l.attempts + 1 : ℕ)).toNat)) :=
            (overruns_cons answer _).mpr (.inl ⟨retryable, large⟩)
          exact ⟨fun fits => absurd overruns fits, fun _ => rfl⟩
      | otherError room ends => exact absurd (outcome.symm.trans ends) (ofAnswer_ne_otherError _)
      | raised room ends stream => simp [path] at stream

end Scheduler

theorem execute_searches (sch : Scheduler) (env : Upstreams) (answers : Answers)
    (s : AppState) (request : ChatCompletionRequest) :
    Scheduler.SearchesOrOverruns answers request 0
      ((sch.eligibleDecisions s request).1.take sch.maxRetries.toNat)
      (sch.drain (env.answering answers) .execute s request) := by
  have start : ({ path := .execute, request } : LoopState).path = .execute := rfl
  have search := sch.drainLoop_searches env answers (sch.eligibleDecisions s request).1
    (sch.eligibleDecisions s request).2 start
  simp only [Nat.cast_zero, sub_zero] at search
  rw [sch.drain_eq]
  exact search

theorem failsOver_of_searches {answers : Answers} {maxRetries : ℤ}
    {request : ChatCompletionRequest} {ds : List RoutingDecision} {r : Drained}
    (distinct : (ds.map RoutingDecision.provider).Nodup)
    (search : Scheduler.Searches answers request (ds.take maxRetries.toNat) r) :
    FailsOver answers maxRetries request ds r := by
  obtain ⟨called, sent, result⟩ := search
  have tried : contacted r.events <+: ds.take maxRetries.toNat := by
    rw [called]
    exact throughFirst_prefix _
  have inOrder : contacted r.events <+: ds := tried.trans (List.take_prefix _ _)
  have raises : (∃ message, r.ending = .unavailable message) ↔
      ∀ d ∈ ds.take maxRetries.toNat, serves answers d = false := by
    rcases result with ⟨d, value, found, -, ending⟩ | ⟨missing, message, ending⟩
    · have served := List.find?_some found
      have member := List.mem_of_find?_eq_some found
      simp only [ending, reduceCtorEq, exists_false, false_iff]
      intro all
      simp [all d member] at served
    · exact ⟨fun _ => by simpa using missing, fun _ => ⟨message, ending⟩⟩
  refine ⟨called, inOrder, ?_, distinct.sublist (inOrder.sublist.map _), sent, ?_, raises, ?_, ?_⟩
  · exact tried.length_le.trans (List.length_take_le _ _)
  · intro d value found answer
    rcases result with ⟨other, value', found', answer', ending⟩ | ⟨missing, -⟩
    · obtain rfl : other = d := Option.some.inj (found'.symm.trans found)
      obtain rfl : value' = value := Except.ok.inj (answer'.symm.trans answer)
      exact ending
    · simp [missing] at found
  · intro nothing
    apply raises.mpr
    rcases nothing with rfl | spent
    · simp
    · simp [Int.toNat_eq_zero.mpr spent]
  · intro e escaped
    rcases result with ⟨d, value, -, -, ending⟩ | ⟨-, message, ending⟩
    · simp [ending] at escaped
    · simp [ending] at escaped

/-- The error of the product is neither a result nor the report that no provider is available. -/
theorem not_failsOver_of_otherError {answers : Answers} {maxRetries : ℤ}
    {request : ChatCompletionRequest} {ds : List RoutingDecision} {r : Drained}
    (ending : r.ending = .otherError) : ¬ FailsOver answers maxRetries request ds r := by
  intro failsOver
  cases found : (ds.take maxRetries.toNat).find? (serves answers) with
  | none =>
      obtain ⟨message, unavailable⟩ := failsOver.raises.mpr (by simpa using found)
      simp [ending] at unavailable
  | some d =>
      have served := List.find?_some found
      cases answer : answers d.provider with
      | error e => simp [serves, answer] at served
      | ok result => simpa [ending] using failsOver.returns d result found answer

/-- `execute` calls the ranked providers in order through the first success within the retry
bound, returns that result, and otherwise reports that no provider is available, if and only if
a delay can be computed behind each retryable failure before the first success. -/
theorem execute_first_success_iff (sch : Scheduler) (env : Upstreams) (answers : Answers)
    (s : AppState) (request : ChatCompletionRequest) :
    FailsOver answers sch.maxRetries request (sch.eligibleDecisions s request).1
        (sch.drain (env.answering answers) .execute s request) ↔
      ¬ Overruns answers
        (numbered 0 ((sch.eligibleDecisions s request).1.take sch.maxRetries.toNat)) := by
  have distinct := (sch.eligibleDecisions_spec s request).distinct
  have search := execute_searches sch env answers s request
  constructor
  · intro failsOver overruns
    exact not_failsOver_of_otherError (search.overruns overruns) failsOver
  · intro fits
    exact failsOver_of_searches distinct (search.searches fits)

namespace Demo

def manyNames : List String := (List.range 1024).map fun n => .ofList (List.replicate n 'a')

theorem manyNames_nodup : manyNames.Nodup := by
  refine List.Nodup.map ?_ List.nodup_range
  intro m n same
  simpa using congrArg String.length same

/-- A thousand and twenty-four keyless providers, and as many retries. -/
def crowd : AppState := (Gateway.boot 1000 manyNames manyNames_nodup fun _ => config [] 10).app

def persistent : Scheduler := { scheduler with maxRetries := 1024 }

/-- Just after the start every such provider is tried. -/
theorem all_eligible (sch : Scheduler) {now : ℚ} (nonneg : 0 ≤ now) (names : List String)
    (nodup : names.Nodup) :
    names.length ≤ (sch.eligibleDecisions (Gateway.boot now names nodup fun _ => config [] 10).app
      (request "m")).1.length := by
  have admission := sch.eligibleDecisions_spec
    (Gateway.boot now names nodup fun _ => config [] 10).app (request "m")
  rw [← List.length_map (f := RoutingDecision.provider)]
  refine (nodup.subperm fun name member => ?_).length_le
  refine admission.admitted name ?_ ?_ rfl
  · exact List.mem_filter.mpr ⟨List.mem_filter.mpr ⟨member, rfl⟩, rfl⟩
  · refine ⟨rfl, rfl, ?_, ⟨_, rfl, rfl⟩, by simp [capabilityScore, request]⟩
    change (RateLimiter.canServe (fun _ => {}) now name { maxConcurrency := 10 }).1 = true
    simp [RateLimiter.canServe, ProviderUsageWindow.isRateLimited, not_lt.mpr nonneg]

/-- Every provider answers 503 without a `Retry-After`. -/
def overloadedAnswers : Answers := fun _ => .error (apiError 503)

end Demo

theorem execute_overflows :
    ¬ FailsOver Demo.overloadedAnswers Demo.persistent.maxRetries (Demo.request "m")
      (Demo.persistent.eligibleDecisions Demo.crowd (Demo.request "m")).1
      (Demo.persistent.drain (Demo.surroundings.answering Demo.overloadedAnswers) .execute
        Demo.crowd (Demo.request "m")) := by
  have search := execute_searches Demo.persistent Demo.surroundings Demo.overloadedAnswers
    Demo.crowd (Demo.request "m")
  refine not_failsOver_of_otherError (search.overruns ?_)
  have many : 1024 ≤ (Demo.persistent.eligibleDecisions Demo.crowd (Demo.request "m")).1.length := by
    have count : Demo.manyNames.length = 1024 := by simp [Demo.manyNames]
    rw [← count]
    exact Demo.all_eligible _ (by norm_num) _ _
  generalize (Demo.persistent.eligibleDecisions Demo.crowd (Demo.request "m")).1 = ds at many ⊢
  have all : ∀ tried : List (RoutingDecision × ℕ),
      (tried.takeWhile fun p => !serves Demo.overloadedAnswers p.1) = tried :=
    fun tried => List.takeWhile_eq_self_iff.mpr fun _ _ => rfl
  have inside : 1023 < (ds.take Demo.persistent.maxRetries.toNat).length := by
    rw [List.length_take]
    exact lt_min (by decide) many
  refine ⟨((ds.take Demo.persistent.maxRetries.toNat)[1023], 1024), ?_, Demo.apiError 503, rfl, rfl,
    rfl, le_rfl⟩
  rw [all, numbered, List.mk_mem_zipIdx_iff_le_and_getElem?_sub]
  exact ⟨by decide, List.getElem?_eq_getElem inside⟩

end Noxis
