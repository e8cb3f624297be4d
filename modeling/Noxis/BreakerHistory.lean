import Noxis.Failover

/-! The breaker over a whole history of calls on one provider: its state is a function of
the transient failures recorded since the last success. -/
namespace Noxis

/-- The public methods of the breaker. -/
inductive BreakerMethod where
  | allowRequest
  | recordSuccess
  | recordFailure (transient : Bool)
  deriving DecidableEq

/-- One call of a method, with the reading of the clock it makes. -/
structure BreakerCall where
  time : ℚ
  method : BreakerMethod
  deriving DecidableEq

namespace CircuitBreaker

variable (b : CircuitBreaker)

/-- The answer, for the one method that has one, and the provider afterwards. -/
def call (p : Provider) (c : BreakerCall) : Option Bool × Provider :=
  match c.method with
  | .allowRequest =>
      let (allowed, p) := b.allowRequest c.time p
      (some allowed, p)
  | .recordSuccess => (none, recordSuccess p)
  | .recordFailure transient => (none, b.recordFailure c.time p transient)

def stateAfter (p : Provider) (cs : List BreakerCall) : Provider :=
  cs.foldl (fun p c => (b.call p c).2) p

/-- Every call with its answer and the state it leaves. -/
def trace (p : Provider) : List BreakerCall → List (BreakerCall × Option Bool × Provider)
  | [] => []
  | c :: rest => (c, b.call p c) :: trace (b.call p c).2 rest

@[simp] theorem stateAfter_nil (p : Provider) : b.stateAfter p [] = p := rfl

@[simp] theorem stateAfter_snoc (p : Provider) (past : List BreakerCall) (c : BreakerCall) :
    b.stateAfter p (past ++ [c]) = (b.call (b.stateAfter p past) c).2 := by
  simp [stateAfter]

/-- A failure that the breaker ignores. -/
def isTerminal (c : BreakerCall) : Bool := decide (c.method = .recordFailure false)

theorem call_terminal {c : BreakerCall} (terminal : isTerminal c = true) (p : Provider) :
    b.call p c = (none, p) := by
  have method : c.method = .recordFailure false := of_decide_eq_true terminal
  simp [call, method]

/-- Without the terminal failures the other calls answer the same and leave the same states. -/
theorem trace_filter (p : Provider) (cs : List BreakerCall) :
    b.trace p (cs.filter fun c => !isTerminal c) =
      (b.trace p cs).filter fun entry => !isTerminal entry.1 := by
  induction cs generalizing p with
  | nil => rfl
  | cons c rest ih =>
      cases terminal : isTerminal c with
      | true =>
          have ignored := b.call_terminal terminal p
          rw [trace, List.filter_cons_of_neg (by simp [terminal]),
            List.filter_cons_of_neg (by simp [terminal]), ih p, ignored]
      | false =>
          rw [trace, List.filter_cons_of_pos (by simp [terminal]),
            List.filter_cons_of_pos (by simp [terminal]), trace, ih]

/-- The transient failures recorded since the last success, or since the start. -/
def failuresSince (cs : List BreakerCall) : ℕ :=
  (cs.reverse.takeWhile fun c => decide (c.method ≠ .recordSuccess)).countP
    fun c => decide (c.method = .recordFailure true)

@[simp] theorem failuresSince_nil : failuresSince [] = 0 := rfl

theorem failuresSince_snoc (past : List BreakerCall) (c : BreakerCall) :
    failuresSince (past ++ [c]) =
      match c.method with
      | .recordSuccess => 0
      | .recordFailure true => failuresSince past + 1
      | _ => failuresSince past := by
  unfold failuresSince
  rw [List.reverse_append, List.reverse_singleton, List.singleton_append]
  cases method : c.method with
  | allowRequest => simp [method]
  | recordSuccess => simp [method]
  | recordFailure transient => cases transient <;> simp [method]

/-- What the history of a fresh provider says about its state. -/
structure Explains (cs : List BreakerCall) (p : Provider) : Prop where
  failures : p.consecutiveFailures = failuresSince cs
  closed : p.circuitState = .closed ↔ (failuresSince cs : ℤ) < b.failureThreshold
  trials : (p.halfOpenCallsInFlight : ℤ) ≤ b.halfOpenMaxCalls

section
variable {b}

theorem Explains.reached {past : List BreakerCall} {p : Provider} (h : b.Explains past p)
    (tripped : p.circuitState ≠ .closed) : b.failureThreshold ≤ failuresSince past :=
  not_lt.mp (h.closed.not.mp tripped)

theorem Explains.allowRequest (room : 0 ≤ b.halfOpenMaxCalls) {past : List BreakerCall}
    {p : Provider} (h : b.Explains past p) (now : ℚ) :
    b.Explains past (b.allowRequest now p).2 := by
  rcases b.allowRequest_cases now p with ⟨-, eq⟩ | ⟨eq, -⟩ | ⟨opened, -, -, eq⟩ |
    ⟨opened, -, free, eq⟩ | ⟨half, free, eq⟩
  · rw [eq]
    exact h
  · rw [eq]
    exact h
  · -- out of OPEN without a trial slot
    have reached := h.reached (by simp [opened])
    rw [eq]
    exact ⟨h.failures, iff_of_false (by simp) (not_lt.mpr reached), room⟩
  · have reached := h.reached (by simp [opened])
    rw [eq]
    exact ⟨h.failures, iff_of_false (by simp) (not_lt.mpr reached), by exact_mod_cast free⟩
  · have reached := h.reached (by simp [half])
    rw [eq]
    refine ⟨h.failures, iff_of_false (by simp [half]) (not_lt.mpr reached), ?_⟩
    push_cast
    omega

/-- A transient failure trips exactly when the count with it reaches the threshold: on trial
and in OPEN the count is there already. -/
theorem recordFailure_transient {past : List BreakerCall} {p : Provider} (h : b.Explains past p)
    (now : ℚ) :
    b.recordFailure now p true =
      if b.failureThreshold ≤ failuresSince past + 1 then
        b.trip now { p with consecutiveFailures := failuresSince past + 1 }
      else { p with consecutiveFailures := failuresSince past + 1 } := by
  unfold recordFailure
  simp only [not_true_eq_false, if_false, h.failures, Nat.cast_add, Nat.cast_one]
  split_ifs with half reached
  · rfl
  · have already := h.reached (by simp [half])
    omega
  · rfl
  · rfl

theorem Explains.recordFailure {past : List BreakerCall} {p : Provider} (h : b.Explains past p)
    (c : BreakerCall) (method : c.method = .recordFailure true) :
    b.Explains (past ++ [c]) (b.recordFailure c.time p true) := by
  have counted : failuresSince (past ++ [c]) = failuresSince past + 1 := by
    rw [failuresSince_snoc, method]
  rw [recordFailure_transient h]
  split_ifs with reached
  · refine ⟨counted.symm, iff_of_false (by simp [trip]) ?_, h.trials⟩
    rw [counted]
    exact not_lt.mpr (by exact_mod_cast reached)
  · refine ⟨counted.symm, ?_, h.trials⟩
    rw [counted]
    refine iff_of_true (h.closed.mpr ?_) (by push_cast; exact not_le.mp reached)
    omega

variable (threshold : 1 ≤ b.failureThreshold) (room : 0 ≤ b.halfOpenMaxCalls)
include threshold room

theorem Explains.fresh (config : ProviderConfig) : b.Explains [] (Provider.fresh config) where
  failures := rfl
  closed := by
    simp only [Provider.fresh, failuresSince_nil, true_iff]
    exact lt_of_lt_of_le zero_lt_one threshold
  trials := room

/-- Every method keeps the relation between the history and the state. -/
theorem Explains.call {past : List BreakerCall} {p : Provider} (h : b.Explains past p)
    (c : BreakerCall) : b.Explains (past ++ [c]) (b.call p c).2 := by
  have counted := failuresSince_snoc past c
  unfold CircuitBreaker.call
  cases method : c.method with
  | allowRequest =>
      obtain ⟨failures, closed, trials⟩ := h.allowRequest room c.time
      simp only [method] at counted
      exact ⟨by rw [counted]; exact failures, by rw [counted]; exact closed, trials⟩
  | recordSuccess =>
      simp only [method] at counted
      refine ⟨by rw [counted]; rfl, ?_, room⟩
      rw [counted]
      exact iff_of_true rfl (lt_of_lt_of_le zero_lt_one threshold)
  | recordFailure transient =>
      cases transient with
      | false =>
          simp only [method] at counted
          exact ⟨by rw [counted]; exact h.failures, by rw [counted]; exact h.closed, h.trials⟩
      | true => exact h.recordFailure c method

theorem stateAfter_explains (config : ProviderConfig) (cs : List BreakerCall) :
    b.Explains cs (b.stateAfter (Provider.fresh config) cs) := by
  induction cs using List.reverseRecOn with
  | nil => exact Explains.fresh threshold room config
  | append_singleton past c ih =>
      rw [stateAfter_snoc]
      exact ih.call threshold room c

end

/-- A call keeps the cooldown, and then a closed circuit closed, or it trips the breaker. -/
theorem call_cooldown (p : Provider) (c : BreakerCall) :
    ((b.call p c).2.cooldownUntil = p.cooldownUntil ∧
      (p.circuitState = .closed → (b.call p c).2.circuitState = .closed)) ∨
    ((b.call p c).2.circuitState = .opened ∧
      (b.call p c).2.cooldownUntil = c.time + b.cooldownSeconds) := by
  unfold call
  cases c.method with
  | allowRequest =>
      left
      dsimp only
      rcases b.allowRequest_cases c.time p with h | h | ⟨before, -, -, eq⟩ | ⟨before, -, -, eq⟩ |
        ⟨before, -, eq⟩
      · simp [h]
      · simp [h]
      · simp [eq, before]
      · simp [eq, before]
      · simp [eq, before]
  | recordSuccess => exact .inl ⟨rfl, fun _ => rfl⟩
  | recordFailure transient =>
      cases transient with
      | false => exact .inl ⟨rfl, id⟩
      | true =>
          rcases b.recordFailure_cases c.time p with tripped | ⟨-, counted⟩
          · right
            dsimp only
            rw [tripped]
            exact ⟨rfl, rfl⟩
          · left
            dsimp only
            rw [counted]
            exact ⟨rfl, id⟩

/-- The circuit has been closed at every point of the history. -/
def NeverTripped (p : Provider) (cs : List BreakerCall) : Prop :=
  ∀ earlier, earlier <+: cs → (b.stateAfter p earlier).circuitState = .closed

theorem NeverTripped.snoc {p : Provider} {past : List BreakerCall} (h : b.NeverTripped p past)
    {c : BreakerCall} (closed : (b.stateAfter p (past ++ [c])).circuitState = .closed) :
    b.NeverTripped p (past ++ [c]) := by
  intro earlier isPrefix
  rcases List.prefix_concat_iff.mp isPrefix with rfl | inPast
  · exact closed
  · exact h earlier inPast

/-- The cooldown stems from the last trip, if there was one. -/
theorem cooldown_origin (config : ProviderConfig) (cs : List BreakerCall) :
    (b.NeverTripped (Provider.fresh config) cs ∧
      (b.stateAfter (Provider.fresh config) cs).cooldownUntil = 0) ∨
    ∃ c ∈ cs, (b.stateAfter (Provider.fresh config) cs).cooldownUntil =
      c.time + b.cooldownSeconds := by
  induction cs using List.reverseRecOn with
  | nil =>
      refine .inl ⟨?_, rfl⟩
      intro earlier isPrefix
      rw [List.prefix_nil.mp isPrefix]
      rfl
  | append_singleton past c ih =>
      rcases b.call_cooldown (b.stateAfter (Provider.fresh config) past) c with
        ⟨kept, stays⟩ | ⟨-, fromNow⟩
      · rw [← stateAfter_snoc] at kept stays
        rcases ih with ⟨never, zero⟩ | ⟨earlier, member, origin⟩
        · have closed := stays (never past (List.prefix_refl past))
          exact .inl ⟨NeverTripped.snoc b never closed, kept.trans zero⟩
        · exact .inr ⟨earlier, List.mem_append_left _ member, kept.trans origin⟩
      · exact .inr ⟨c, by simp, by rw [stateAfter_snoc, fromNow]⟩

/-- The clock never goes back from one call to a later one. -/
def Nondecreasing (cs : List BreakerCall) : Prop := cs.Pairwise fun c d => c.time ≤ d.time

/-- A cooldown can only grow, except that the first trip of all replaces the initial zero. -/
theorem cooldown_step (config : ProviderConfig) {past : List BreakerCall} {c : BreakerCall}
    {later : List BreakerCall} (ordered : Nondecreasing (past ++ c :: later)) :
    (b.stateAfter (Provider.fresh config) past).cooldownUntil ≤
        (b.stateAfter (Provider.fresh config) (past ++ [c])).cooldownUntil ∨
      b.NeverTripped (Provider.fresh config) past ∧
        (b.stateAfter (Provider.fresh config) past).cooldownUntil = 0 ∧
        (b.stateAfter (Provider.fresh config) (past ++ [c])).circuitState = .opened ∧
        (b.stateAfter (Provider.fresh config) (past ++ [c])).cooldownUntil =
          c.time + b.cooldownSeconds := by
  have moved := b.call_cooldown (b.stateAfter (Provider.fresh config) past) c
  rw [← stateAfter_snoc] at moved
  rcases moved with ⟨kept, -⟩ | ⟨opened, fromNow⟩
  · exact .inl kept.ge
  · rcases b.cooldown_origin config past with ⟨never, zero⟩ | ⟨trip, member, origin⟩
    · exact .inr ⟨never, zero, opened, fromNow⟩
    · left
      have sooner : trip.time ≤ c.time :=
        (List.pairwise_append.mp ordered).2.2 trip member c List.mem_cons_self
      rw [origin, fromNow]
      exact add_le_add_left sooner b.cooldownSeconds

/-- The state after a history of calls, and what a history without its terminal failures shows. -/
theorem breaker_characterised (config : ProviderConfig) (threshold : 1 ≤ b.failureThreshold)
    (room : 0 ≤ b.halfOpenMaxCalls) (cs : List BreakerCall) (ordered : Nondecreasing cs) :
    ((b.stateAfter (Provider.fresh config) cs).circuitState = .closed ↔
      (failuresSince cs : ℤ) < b.failureThreshold) ∧
    (b.stateAfter (Provider.fresh config) cs).consecutiveFailures = failuresSince cs ∧
    0 ≤ (b.stateAfter (Provider.fresh config) cs).halfOpenCallsInFlight ∧
    ((b.stateAfter (Provider.fresh config) cs).halfOpenCallsInFlight : ℤ) ≤ b.halfOpenMaxCalls ∧
    (∀ past c later, cs = past ++ c :: later →
      (b.stateAfter (Provider.fresh config) past).cooldownUntil ≤
          (b.stateAfter (Provider.fresh config) (past ++ [c])).cooldownUntil ∨
        b.NeverTripped (Provider.fresh config) past ∧
          (b.stateAfter (Provider.fresh config) past).cooldownUntil = 0 ∧
          (b.stateAfter (Provider.fresh config) (past ++ [c])).circuitState = .opened ∧
          (b.stateAfter (Provider.fresh config) (past ++ [c])).cooldownUntil =
            c.time + b.cooldownSeconds) ∧
    b.trace (Provider.fresh config) (cs.filter fun c => !isTerminal c) =
      (b.trace (Provider.fresh config) cs).filter fun entry => !isTerminal entry.1 := by
  have explains := stateAfter_explains threshold room config cs
  refine ⟨explains.closed, explains.failures, Nat.zero_le _, explains.trials, ?_,
    b.trace_filter _ cs⟩
  intro past c later split
  rw [split] at ordered
  exact b.cooldown_step config ordered

theorem breaker_characterised_two_failures :
    let b : CircuitBreaker := { failureThreshold := 2, cooldownSeconds := 30, halfOpenMaxCalls := 1 }
    let fresh := Provider.fresh { providerType := .keyless, baseUrl := "https://a.test/v1" }
    let cs : List BreakerCall := [⟨5, .recordFailure true⟩, ⟨6, .recordFailure false⟩,
      ⟨8, .recordFailure true⟩, ⟨39, .allowRequest⟩]
    ((b.stateAfter fresh cs).circuitState = .closed ↔ (failuresSince cs : ℤ) < 2) ∧
      (b.stateAfter fresh cs).consecutiveFailures = 2 ∧
      ((b.stateAfter fresh cs).halfOpenCallsInFlight : ℤ) ≤ 1 := by
  intro b fresh cs
  obtain ⟨closed, failures, -, trials, -, -⟩ :=
    b.breaker_characterised { providerType := .keyless, baseUrl := "https://a.test/v1" }
      (by decide) (by decide) cs (by norm_num [cs, Nondecreasing])
  exact ⟨closed, failures, trials⟩

/-- A cooldown that is long and negative sets `cooldown_until` below its initial zero. -/
theorem negative_cooldown_decreases :
    ¬ ∀ (b : CircuitBreaker) (config : ProviderConfig) (cs : List BreakerCall),
      1 ≤ b.failureThreshold → 0 ≤ b.halfOpenMaxCalls → Nondecreasing cs →
      ∀ past c later, cs = past ++ c :: later →
        (b.stateAfter (Provider.fresh config) past).cooldownUntil ≤
          (b.stateAfter (Provider.fresh config) (past ++ [c])).cooldownUntil := by
  intro never
  have lower := never
    { failureThreshold := 1, cooldownSeconds := -2000000000, halfOpenMaxCalls := 1 }
    { providerType := .keyless, baseUrl := "https://a.test/v1" }
    [⟨1700000000, .recordFailure true⟩] (by decide) (by decide) (by simp [Nondecreasing])
    [] ⟨1700000000, .recordFailure true⟩ [] rfl
  norm_num [stateAfter, call, recordFailure, trip, Provider.fresh] at lower

end CircuitBreaker
end Noxis
