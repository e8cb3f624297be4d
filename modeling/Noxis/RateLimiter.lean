import Noxis.ProviderBase

/-! Per-provider rate-limit bookkeeping. Every function that reads the clock takes
the reading as its argument; the reads that trim a window return the trimmed window. -/
namespace Noxis

structure ProviderUsageWindow where
  minuteHits : List ℚ := []
  dayHits : List ℚ := []
  concurrent : ℕ := 0
  totalRequests : ℕ := 0
  totalFailures : ℕ := 0
  total429s : ℕ := 0
  rateLimitedUntil : WithTop ℚ := 0

namespace ProviderUsageWindow

/-- Both deques lose their expired hits from the left, up to the first one that is not. -/
def trim (w : ProviderUsageWindow) (now : ℚ) : ProviderUsageWindow :=
  { w with
    minuteHits := w.minuteHits.dropWhile (fun t => now - t > 60)
    dayHits := w.dayHits.dropWhile (fun t => now - t > 86400) }

def recordRequest (w : ProviderUsageWindow) (now : ℚ) : ProviderUsageWindow :=
  { w with
    minuteHits := w.minuteHits ++ [now]
    dayHits := w.dayHits ++ [now]
    totalRequests := w.totalRequests + 1 }.trim now

/-- A missing, zero, negative or NaN Retry-After counts as 15 seconds; an infinite one
never ends. -/
def cooldown429 : Option PyFloat → WithTop ℚ
  | some (.finite q) => if 0 < q then (q : WithTop ℚ) else (15 : ℚ)
  | some .inf => ⊤
  | _ => (15 : ℚ)

def record429 (w : ProviderUsageWindow) (now : ℚ) (retryAfter : Option PyFloat) :
    ProviderUsageWindow :=
  { w with
    total429s := w.total429s + 1
    rateLimitedUntil := max w.rateLimitedUntil (now + cooldown429 retryAfter) }

def recordFailure (w : ProviderUsageWindow) : ProviderUsageWindow :=
  { w with totalFailures := w.totalFailures + 1 }

def requestsLastMinute (w : ProviderUsageWindow) (now : ℚ) : ℕ := (w.trim now).minuteHits.length
def requestsLastDay (w : ProviderUsageWindow) (now : ℚ) : ℕ := (w.trim now).dayHits.length

def isRateLimited (w : ProviderUsageWindow) (now : ℚ) : Bool :=
  decide ((now : WithTop ℚ) < w.rateLimitedUntil)

def secondsUntilAvailable (w : ProviderUsageWindow) (now : ℚ) : WithTop ℚ :=
  w.rateLimitedUntil.map (fun u => max 0 (u - now))

@[simp] theorem trim_trim (w : ProviderUsageWindow) (now : ℚ) :
    (w.trim now).trim now = w.trim now := by
  simp only [trim, List.dropWhile_idempotent]

@[simp] theorem trim_concurrent (w : ProviderUsageWindow) (now : ℚ) :
    (w.trim now).concurrent = w.concurrent := rfl

@[simp] theorem trim_rateLimitedUntil (w : ProviderUsageWindow) (now : ℚ) :
    (w.trim now).rateLimitedUntil = w.rateLimitedUntil := rfl

@[simp] theorem trim_totalRequests (w : ProviderUsageWindow) (now : ℚ) :
    (w.trim now).totalRequests = w.totalRequests := rfl

@[simp] theorem trim_totalFailures (w : ProviderUsageWindow) (now : ℚ) :
    (w.trim now).totalFailures = w.totalFailures := rfl

end ProviderUsageWindow

/-- One window per provider name. A name asked for the first time gets a fresh window,
so the dictionary is a total function. -/
abbrev RateLimiter := String → ProviderUsageWindow

structure UsageSnapshot where
  requestsLastMinute : ℕ
  requestsLastDay : ℕ
  concurrent : ℕ
  totalRequests : ℕ
  totalFailures : ℕ
  total429s : ℕ
  rateLimited : Bool
  secondsUntilAvailable : WithTop ℚ

namespace RateLimiter

def window (limiter : RateLimiter) (name : String) : ProviderUsageWindow := limiter name

def trimmed (limiter : RateLimiter) (now : ℚ) (name : String) : RateLimiter :=
  Function.update limiter name ((limiter name).trim now)

/-- The checks stop at the first that refuses, and only the two window reads trim. -/
def canServe (limiter : RateLimiter) (now : ℚ) (name : String) (limits : RateLimitConfig) :
    Bool × RateLimiter :=
  let w := limiter name
  if w.isRateLimited now then (false, limiter)
  else if w.concurrent ≥ limits.maxConcurrency then (false, limiter)
  else match limits.requestsPerMinute, limits.requestsPerDay with
    | none, none => (true, limiter)
    | some rpm, none => (!decide (w.requestsLastMinute now ≥ rpm), limiter.trimmed now name)
    | none, some rpd => (!decide (w.requestsLastDay now ≥ rpd), limiter.trimmed now name)
    | some rpm, some rpd =>
        (!decide (w.requestsLastMinute now ≥ rpm) && !decide (w.requestsLastDay now ≥ rpd),
          limiter.trimmed now name)

def acquire (limiter : RateLimiter) (now : ℚ) (name : String) : RateLimiter :=
  let w := limiter name
  Function.update limiter name ({ w with concurrent := w.concurrent + 1 }.recordRequest now)

/-- `max(0, concurrent - 1)` is natural-number subtraction. -/
def release (limiter : RateLimiter) (name : String) : RateLimiter :=
  let w := limiter name
  Function.update limiter name { w with concurrent := w.concurrent - 1 }

def record429 (limiter : RateLimiter) (now : ℚ) (name : String) (retryAfter : Option PyFloat) :
    RateLimiter :=
  Function.update limiter name ((limiter name).record429 now retryAfter)

def recordFailure (limiter : RateLimiter) (name : String) : RateLimiter :=
  Function.update limiter name (limiter name).recordFailure

/-- The window counts are read first, so the snapshot is taken from a trimmed window. -/
def snapshot (limiter : RateLimiter) (now : ℚ) (name : String) : UsageSnapshot × RateLimiter :=
  let limiter := limiter.trimmed now name
  let w := limiter name
  ({ requestsLastMinute := w.minuteHits.length
     requestsLastDay := w.dayHits.length
     concurrent := w.concurrent
     totalRequests := w.totalRequests
     totalFailures := w.totalFailures
     total429s := w.total429s
     rateLimited := w.isRateLimited now
     secondsUntilAvailable := w.secondsUntilAvailable now }, limiter)

/-- What a limiter read at one clock reading can change: some windows are trimmed. -/
def Trimmed (now : ℚ) (limiter limiter' : RateLimiter) : Prop :=
  ∀ name, limiter' name = limiter name ∨ limiter' name = (limiter name).trim now

theorem Trimmed.refl (now : ℚ) (limiter : RateLimiter) : Trimmed now limiter limiter :=
  fun _ => .inl rfl

theorem Trimmed.trans {now : ℚ} {l₁ l₂ l₃ : RateLimiter} (h₁ : Trimmed now l₁ l₂)
    (h₂ : Trimmed now l₂ l₃) : Trimmed now l₁ l₃ := by
  intro name
  rcases h₁ name with h | h <;> rcases h₂ name with h' | h' <;> simp [h, h']

theorem trimmed_trimmed (limiter : RateLimiter) (now : ℚ) (name : String) :
    Trimmed now limiter (limiter.trimmed now name) := by
  intro other
  by_cases same : other = name
  · subst same; right; simp [trimmed]
  · left; simp [trimmed, same]

theorem canServe_trims (limiter : RateLimiter) (now : ℚ) (name : String)
    (limits : RateLimitConfig) : Trimmed now limiter (limiter.canServe now name limits).2 := by
  unfold canServe
  dsimp only
  split_ifs
  · exact .refl now limiter
  · exact .refl now limiter
  · split
    · exact .refl now limiter
    all_goals exact trimmed_trimmed limiter now name

theorem snapshot_trims (limiter : RateLimiter) (now : ℚ) (name : String) :
    Trimmed now limiter (limiter.snapshot now name).2 := trimmed_trimmed limiter now name

/-- The admission test in one formula. -/
theorem canServe_iff (limiter : RateLimiter) (now : ℚ) (name : String)
    (limits : RateLimitConfig) :
    (limiter.canServe now name limits).1 = true ↔
      (limiter name).rateLimitedUntil ≤ now ∧ (limiter name).concurrent < limits.maxConcurrency ∧
      (∀ rpm, limits.requestsPerMinute = some rpm → (limiter name).requestsLastMinute now < rpm) ∧
      (∀ rpd, limits.requestsPerDay = some rpd → (limiter name).requestsLastDay now < rpd) := by
  unfold canServe ProviderUsageWindow.isRateLimited
  dsimp only
  split_ifs with limited full
  · simp only [decide_eq_true_eq] at limited
    simp [limited]
  · simp only [decide_eq_true_eq, not_lt, ge_iff_le] at limited full
    simp [full]
  · simp only [decide_eq_true_eq, not_lt, ge_iff_le, not_le] at limited full
    split <;> simp_all

/-- Trimming at the same clock reading changes no admission test. -/
theorem Trimmed.canServe_eq {now : ℚ} {limiter limiter' : RateLimiter}
    (h : Trimmed now limiter limiter') (name : String) (limits : RateLimitConfig) :
    (limiter'.canServe now name limits).1 = (limiter.canServe now name limits).1 := by
  rw [Bool.eq_iff_iff, canServe_iff, canServe_iff]
  rcases h name with same | same <;>
    simp [same, ProviderUsageWindow.requestsLastMinute, ProviderUsageWindow.requestsLastDay]

end RateLimiter
end Noxis
