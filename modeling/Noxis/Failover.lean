import Noxis.ProviderBase

/-! Circuit breaker and backoff. The breaker keeps its state on the provider object;
each operation takes the clock reading it would make. -/
namespace Noxis

structure CircuitBreaker where
  failureThreshold : ℤ
  cooldownSeconds : ℚ
  halfOpenMaxCalls : ℤ

namespace CircuitBreaker

/-- The HALF_OPEN branch of `allow_request`: a free trial slot is taken. -/
def allowHalfOpen (b : CircuitBreaker) (p : Provider) : Bool × Provider :=
  if p.halfOpenCallsInFlight < b.halfOpenMaxCalls then
    (true, { p with halfOpenCallsInFlight := p.halfOpenCallsInFlight + 1 })
  else (false, p)

/-- The source's recursive call happens at most once, in the HALF_OPEN branch. -/
def allowRequest (b : CircuitBreaker) (now : ℚ) (p : Provider) : Bool × Provider :=
  match p.circuitState with
  | .closed => (true, p)
  | .opened =>
      if p.cooldownUntil ≤ now then
        b.allowHalfOpen { p with circuitState := .halfOpen, halfOpenCallsInFlight := 0 }
      else (false, p)
  | .halfOpen => b.allowHalfOpen p

def recordSuccess (p : Provider) : Provider :=
  { p with
    consecutiveFailures := 0
    circuitState := .closed
    halfOpenCallsInFlight := 0
    health := if p.health = .rateLimited ∨ p.health = .cooldown ∨ p.health = .circuitOpen
      then .healthy else p.health }

def trip (b : CircuitBreaker) (now : ℚ) (p : Provider) : Provider :=
  { p with
    circuitState := .opened
    cooldownUntil := now + b.cooldownSeconds
    health := .circuitOpen }

/-- A terminal error leaves the provider as it is. -/
def recordFailure (b : CircuitBreaker) (now : ℚ) (p : Provider) (transient : Bool) : Provider :=
  if ¬ transient then p
  else
    let p := { p with consecutiveFailures := p.consecutiveFailures + 1 }
    if p.circuitState = .halfOpen then b.trip now p
    else if b.failureThreshold ≤ p.consecutiveFailures then b.trip now p
    else p

@[simp] theorem recordSuccess_config (p : Provider) : (recordSuccess p).config = p.config := rfl

@[simp] theorem recordSuccess_circuitState (p : Provider) :
    (recordSuccess p).circuitState = .closed := rfl

@[simp] theorem recordFailure_terminal (b : CircuitBreaker) (now : ℚ) (p : Provider) :
    b.recordFailure now p false = p := rfl

/-- What `allow_request` can do, with the guard of each case. -/
theorem allowRequest_cases (b : CircuitBreaker) (now : ℚ) (p : Provider) :
    (p.circuitState = .closed ∧ b.allowRequest now p = (true, p)) ∨
    (b.allowRequest now p = (false, p) ∧ p.circuitState ≠ .closed) ∨
    (p.circuitState = .opened ∧ p.cooldownUntil ≤ now ∧ ¬ 0 < b.halfOpenMaxCalls ∧
      b.allowRequest now p =
        (false, { p with circuitState := .halfOpen, halfOpenCallsInFlight := 0 })) ∨
    (p.circuitState = .opened ∧ p.cooldownUntil ≤ now ∧ 0 < b.halfOpenMaxCalls ∧
      b.allowRequest now p =
        (true, { p with circuitState := .halfOpen, halfOpenCallsInFlight := 1 })) ∨
    (p.circuitState = .halfOpen ∧ (p.halfOpenCallsInFlight : ℤ) < b.halfOpenMaxCalls ∧
      b.allowRequest now p =
        (true, { p with halfOpenCallsInFlight := p.halfOpenCallsInFlight + 1 })) := by
  cases hc : p.circuitState with
  | closed => simp [allowRequest, hc]
  | opened =>
      by_cases elapsed : p.cooldownUntil ≤ now
      · by_cases room : 0 < b.halfOpenMaxCalls
        · simp [allowRequest, allowHalfOpen, hc, elapsed, room]
        · simp [allowRequest, allowHalfOpen, hc, elapsed, room]
      · simp [allowRequest, hc, elapsed]
  | halfOpen =>
      by_cases room : (p.halfOpenCallsInFlight : ℤ) < b.halfOpenMaxCalls
      · simp [allowRequest, allowHalfOpen, hc, room]
      · simp [allowRequest, allowHalfOpen, hc, room]

@[simp] theorem allowRequest_config (b : CircuitBreaker) (now : ℚ) (p : Provider) :
    (b.allowRequest now p).2.config = p.config := by
  rcases b.allowRequest_cases now p with h | h | h | h | h <;> simp [h]

@[simp] theorem allowRequest_health (b : CircuitBreaker) (now : ℚ) (p : Provider) :
    (b.allowRequest now p).2.health = p.health := by
  rcases b.allowRequest_cases now p with h | h | h | h | h <;> simp [h]

/-- An admitted provider is never OPEN afterwards. -/
theorem allowRequest_not_opened (b : CircuitBreaker) (now : ℚ) (p : Provider)
    (admitted : (b.allowRequest now p).1 = true) :
    (b.allowRequest now p).2.circuitState ≠ .opened := by
  rcases b.allowRequest_cases now p with h | h | h | h | h <;> simp_all

/-- An admitted provider is on trial afterwards unless its circuit was closed. -/
theorem allowRequest_halfOpen_iff (b : CircuitBreaker) (now : ℚ) (p : Provider)
    (admitted : (b.allowRequest now p).1 = true) :
    (b.allowRequest now p).2.circuitState = .halfOpen ↔ p.circuitState ≠ .closed := by
  rcases b.allowRequest_cases now p with h | h | h | h | h <;> simp_all

/-- `allow_request` moves a circuit only out of OPEN, after the cooldown, to HALF_OPEN. -/
theorem allowRequest_circuit (b : CircuitBreaker) (now : ℚ) (p : Provider) :
    (b.allowRequest now p).2.circuitState = p.circuitState ∨
      p.circuitState = .opened ∧ p.cooldownUntil ≤ now ∧
        (b.allowRequest now p).2.circuitState = .halfOpen := by
  rcases b.allowRequest_cases now p with h | h | ⟨before, elapsed, -, begun⟩ |
    ⟨before, elapsed, -, begun⟩ | ⟨before, -, taken⟩
  · simp [h]
  · simp [h]
  · exact .inr ⟨before, elapsed, by rw [begun]⟩
  · exact .inr ⟨before, elapsed, by rw [begun]⟩
  · simp [taken]

/-- What a transient failure can do: it trips the breaker or only counts. -/
theorem recordFailure_cases (b : CircuitBreaker) (now : ℚ) (p : Provider) :
    (b.recordFailure now p true =
      b.trip now { p with consecutiveFailures := p.consecutiveFailures + 1 }) ∨
    (p.circuitState ≠ .halfOpen ∧ b.recordFailure now p true =
      { p with consecutiveFailures := p.consecutiveFailures + 1 }) := by
  by_cases half : p.circuitState = .halfOpen
  · simp [recordFailure, half]
  · by_cases reached : b.failureThreshold ≤ ((p.consecutiveFailures + 1 : ℕ) : ℤ)
    · left
      simp only [recordFailure, not_true_eq_false, if_false, half]
      rw [if_pos reached]
    · right
      refine ⟨half, ?_⟩
      simp only [recordFailure, not_true_eq_false, if_false, half]
      rw [if_neg reached]

@[simp] theorem recordFailure_config (b : CircuitBreaker) (now : ℚ) (p : Provider) (t : Bool) :
    (b.recordFailure now p t).config = p.config := by
  cases t with
  | false => rfl
  | true => rcases b.recordFailure_cases now p with h | ⟨-, h⟩ <;> simp [h, trip]

end CircuitBreaker

/-- A sample of `random.random()`. -/
abbrev Sample := { u : ℚ // 0 ≤ u ∧ u ≤ 1 }

/-- `random.uniform(a, b)` for one sample. -/
def uniform (a b : ℚ) (u : Sample) : ℚ := a + (b - a) * u.val

/-- `min(cap, max(0.0, retry_after))`. Python's `max(0.0, nan)` is `0.0`. -/
def cappedRetryAfter (cap : ℚ) : PyFloat → ℚ
  | .finite q => min cap (max 0 q)
  | .inf => cap
  | .negInf | .nan => min cap 0

/-- Exponential backoff with full jitter, honoring an explicit Retry-After. `2 ** attempt` is an
integer, and `base` times an integer from `2 ** 1024` on raises an `OverflowError`. -/
def backoffDelay (attempt : ℕ) (base cap : ℚ) (retryAfter : Option PyFloat) (u : Sample) :
    Option ℚ :=
  match retryAfter with
  | some r => some (cappedRetryAfter cap r + uniform 0 (1 / 4) u)
  | none =>
      if attempt < 1024 then some (uniform 0 (min cap (base * 2 ^ attempt)) u)
      else none

/-- No delay can be computed for this attempt. -/
def Overflows (attempt : ℕ) (retryAfter : Option PyFloat) : Prop :=
  retryAfter = none ∧ 1024 ≤ attempt

instance (attempt : ℕ) (retryAfter : Option PyFloat) : Decidable (Overflows attempt retryAfter) :=
  inferInstanceAs (Decidable (_ ∧ _))

theorem backoffDelay_eq_none_iff {attempt : ℕ} {base cap : ℚ} {retryAfter : Option PyFloat}
    {u : Sample} : backoffDelay attempt base cap retryAfter u = none ↔
      Overflows attempt retryAfter := by
  cases retryAfter <;> simp [backoffDelay, Overflows]

theorem not_overflows_of_delayed {attempt : ℕ} {base cap delay : ℚ} {retryAfter : Option PyFloat}
    {u : Sample} (delayed : backoffDelay attempt base cap retryAfter u = some delay) :
    ¬ Overflows attempt retryAfter := by
  intro large
  rw [backoffDelay_eq_none_iff.mpr large] at delayed
  cases delayed

theorem uniform_mem {a b : ℚ} (le : a ≤ b) (u : Sample) :
    a ≤ uniform a b u ∧ uniform a b u ≤ b := by
  have low : 0 ≤ (b - a) * u.val := mul_nonneg (by linarith) u.property.1
  have high : (b - a) * u.val ≤ (b - a) * 1 :=
    mul_le_mul_of_nonneg_left u.property.2 (by linarith)
  unfold uniform
  constructor <;> linarith

theorem cappedRetryAfter_mem {cap : ℚ} (nonneg : 0 ≤ cap) (retryAfter : PyFloat) :
    0 ≤ cappedRetryAfter cap retryAfter ∧ cappedRetryAfter cap retryAfter ≤ cap := by
  cases retryAfter with
  | finite q => exact ⟨le_min nonneg (le_max_left 0 q), min_le_left _ _⟩
  | inf => exact ⟨nonneg, le_rfl⟩
  | negInf => exact ⟨le_min nonneg le_rfl, min_le_left _ _⟩
  | nan => exact ⟨le_min nonneg le_rfl, min_le_left _ _⟩

/-- A delay is at most the cap and a quarter of a second of jitter. -/
theorem backoffDelay_mem {base cap : ℚ} (base_nonneg : 0 ≤ base) (cap_nonneg : 0 ≤ cap)
    (attempt : ℕ) (retryAfter : Option PyFloat) (u : Sample) :
    ∀ delay ∈ backoffDelay attempt base cap retryAfter u, 0 ≤ delay ∧ delay ≤ cap + 1 / 4 := by
  intro delay given
  cases retryAfter with
  | some r =>
      have asked := cappedRetryAfter_mem cap_nonneg r
      have jitter := uniform_mem (a := 0) (b := 1 / 4) (by norm_num) u
      obtain rfl := Option.some.inj given
      constructor <;> linarith
  | none =>
      have grown : 0 ≤ base * 2 ^ attempt := mul_nonneg base_nonneg (by positivity)
      have jitter := uniform_mem (le_min cap_nonneg grown) u
      have capped : min cap (base * 2 ^ attempt) ≤ cap := min_le_left _ _
      rw [backoffDelay] at given
      split_ifs at given
      · obtain rfl := Option.some.inj given
        constructor <;> linarith
      · cases given

end Noxis
