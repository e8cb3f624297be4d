import Noxis.StreamOrder
import Noxis.SoloRun

/-! When a run sleeps, and for how long. Both loops sleep inside the `except` block, before
they know whether another attempt is going to be made. -/
namespace Noxis

/-- One upstream attempt of a run: when its call had ended, and the delay slept after it. -/
structure Try where
  decision : RoutingDecision
  endedAt : ℚ
  slept : Option ℚ

/-- The last attempt is slept after. -/
def AsleepAtEnd (tries : List Try) : Prop := ∃ t, tries.getLast? = some t ∧ t.slept.isSome

@[simp] theorem not_asleepAtEnd_nil : ¬ AsleepAtEnd [] := by
  rintro ⟨t, last, -⟩
  cases last

theorem asleepAtEnd_cons {t : Try} {tries : List Try} :
    AsleepAtEnd (t :: tries) ↔ tries = [] ∧ t.slept.isSome ∨ AsleepAtEnd tries := by
  cases tries <;> simp [AsleepAtEnd]

/-- The run sleeps after this attempt. -/
def BacksOff (env : Upstreams) (path : Path) (p : RoutingDecision × ℕ) : Prop :=
  match path with
  | .execute => ∃ e, (env p.1.provider).outcome = .apiError e ∧ e.retryable = true ∧
      ¬ Overflows p.2 e.retryAfter
  | .executeStream => RetriedSilently env p

theorem BacksOff.goesOn {env : Upstreams} {path : Path} {p : RoutingDecision × ℕ}
    (fails : BacksOff env path p) : GoesOn env path p := by
  cases path with
  | execute =>
      obtain ⟨e, ends, -, small⟩ := fails
      exact ⟨e, ends, fun large => small large.2⟩
  | executeStream => exact fails

/-- Every one of the attempts fails in such a way that the run goes on, and the last of them
is slept after. -/
def EndsAsleep (env : Upstreams) (path : Path) (tried : List (RoutingDecision × ℕ)) : Prop :=
  ∃ earlier p, tried = earlier ++ [p] ∧ (∀ q ∈ earlier, GoesOn env path q) ∧ BacksOff env path p

theorem not_endsAsleep_nil (env : Upstreams) (path : Path) : ¬ EndsAsleep env path [] := by
  rintro ⟨earlier, d, split, -⟩
  exact absurd split.symm (List.append_ne_nil_of_right_ne_nil _ (List.cons_ne_nil _ _))

theorem endsAsleep_cons {env : Upstreams} {path : Path} {p : RoutingDecision × ℕ}
    {tried : List (RoutingDecision × ℕ)} :
    EndsAsleep env path (p :: tried) ↔
      tried = [] ∧ BacksOff env path p ∨ GoesOn env path p ∧ EndsAsleep env path tried := by
  constructor
  · rintro ⟨earlier, last, split, go, fails⟩
    cases earlier with
    | nil =>
        obtain ⟨rfl, rfl⟩ : p = last ∧ tried = [] := by simpa using split
        exact .inl ⟨rfl, fails⟩
    | cons q earlier =>
        obtain ⟨rfl, rfl⟩ : p = q ∧ tried = earlier ++ [last] := by simpa using split
        exact .inr ⟨go p (by simp), earlier, last, rfl, fun q member => go q (by simp [member]),
          fails⟩
  · rintro (⟨rfl, fails⟩ | ⟨goes, earlier, last, rfl, go, fails⟩)
    · exact ⟨[], p, rfl, by simp, fails⟩
    · exact ⟨p :: earlier, last, rfl, by simpa [goes] using go, fails⟩

namespace Scheduler

variable (sch : Scheduler) (env : Upstreams)

/-- The attempts of the loop of either path, in order. -/
def tries : AppState → LoopState → List RoutingDecision → List Try
  | _, _, [] => []
  | s, l, d :: rest =>
      if sch.maxRetries ≤ l.attempts then []
      else match sch.settle (callEnded env s d) (attemptAt env s l d rest)
          (env d.provider).outcome (env d.provider).jitter with
        | (_, .stop _) => [{ decision := d, endedAt := (callEnded env s d).now, slept := none }]
        | (s', .retry l') =>
            { decision := d, endedAt := (callEnded env s d).now, slept := none } ::
              tries s' l' rest
        | (s', .backoff l' delay) =>
            { decision := d, endedAt := (callEnded env s d).now, slept := some delay } ::
              tries (((env d.provider).asleep delay s').release d.provider) l' rest

/-- The attempts are the upstream calls that the run sends. -/
theorem tries_decision (ds : List RoutingDecision) (s : AppState) (l : LoopState) :
    (sch.tries env s l ds).map Try.decision = contacted (sch.drainLoop env s l ds).events := by
  induction ds generalizing s l with
  | nil => rfl
  | cons d rest ih =>
      simp only [tries, drainLoop]
      split
      · rfl
      · generalize sch.settle (callEnded env s d) (attemptAt env s l d rest)
          (env d.provider).outcome (env d.provider).jitter = settled
        obtain ⟨s', next⟩ := settled
        cases next with
        | stop ending => exact (contacted_attemptEvents s l d rest).symm
        | retry l' => simp [Drained.after, ih]
        | backoff l' delay => simp [Drained.after, ih]

/-- What settling the attempt `p` does, in the state `s` that its upstream call leaves. -/
inductive Settles (s : AppState) (l : LoopState) (p : RoutingDecision × ℕ) :
    AppState × Settled → Prop
  | stops {s' : AppState} {ending : RunEnd} (stays : ¬ GoesOn env l.path p)
      (now : s'.now = s.now) : Settles s l p (s', .stop ending)
  | retries {s' : AppState} (e : ProviderAPIError) (goes : GoesOn env l.path p)
      (awake : ¬ BacksOff env l.path p) (now : s'.now = s.now) :
      Settles s l p (s', .retry (l.failed e))
  | sleeps {s' : AppState} {delay : ℚ} (e : ProviderAPIError) (fails : BacksOff env l.path p)
      (delayed : sch.delayAfter env l p.1 e = some delay) :
      Settles s l p (s', .backoff (l.failed e) delay)

/-- A retryable error before any output is slept after, unless no delay can be computed. -/
theorem backOff_settles {s s₀ : AppState} {l : LoopState} {d : RoutingDecision}
    {e : ProviderAPIError} (ends : (env d.provider).outcome = .apiError e)
    (retryable : e.retryable = true)
    (silent : l.path = .execute ∨ (env d.provider).chunks = []) (now : s.now = s₀.now) :
    Settles sch env s₀ l (d, l.attempts + 1)
      (sch.backOff s (l.failed e) d.provider e (env d.provider).jitter) := by
  cases delayed : sch.delayAfter env l d e with
  | some delay =>
      have small := small_of_delayAfter delayed
      have fails : BacksOff env l.path (d, l.attempts + 1) := by
        cases path : l.path with
        | execute => exact ⟨e, ends, retryable, small⟩
        | executeStream =>
            exact ⟨silent.resolve_left (by simp [path]), e, ends, retryable, small⟩
      have same := delayed
      rw [delayAfter] at same
      rw [backOff, same]
      exact .sleeps e fails delayed
  | none =>
      have large := delayAfter_eq_none_iff.mp delayed
      have stays : ¬ GoesOn env l.path (d, l.attempts + 1) := by
        cases path : l.path with
        | execute =>
            rintro ⟨e', same, small⟩
            obtain rfl : e = e' := CallOutcome.apiError.inj (ends.symm.trans same)
            exact small ⟨retryable, large⟩
        | executeStream =>
            rintro ⟨-, e', same, -, small⟩
            obtain rfl : e = e' := CallOutcome.apiError.inj (ends.symm.trans same)
            exact small large
      rw [delayAfter] at delayed
      rw [backOff, delayed]
      exact .stops stays now

theorem settle_settles (s : AppState) (l : LoopState) (d : RoutingDecision)
    (rest : List RoutingDecision) :
    Settles sch env (callEnded env s d) l (d, l.attempts + 1) (sch.settle (callEnded env s d)
      (attemptAt env s l d rest) (env d.provider).outcome (env d.provider).jitter) := by
  have now := settle_now sch (callEnded env s d) (attemptAt env s l d rest)
    (env d.provider).outcome (env d.provider).jitter
  cases ends : (env d.provider).outcome with
  | success result =>
      have stays : ¬ GoesOn env l.path (d, l.attempts + 1) := by
        cases l.path <;> simp [GoesOn, RetriedSilently, ends]
      cases path : l.path <;>
        simp only [settle, settleExecute, settleStream, attemptAt, path, ends] at now ⊢ <;>
        exact .stops stays now
  | otherError =>
      have stays : ¬ GoesOn env l.path (d, l.attempts + 1) := by
        cases l.path <;> simp [GoesOn, RetriedSilently, ends]
      cases path : l.path <;>
        simp only [settle, settleExecute, settleStream, attemptAt, path, ends] at now ⊢ <;>
        exact .stops stays now
  | apiError e =>
      by_cases silent : e.retryable = true ∧ (l.path = .execute ∨ (env d.provider).chunks = [])
      · rw [settle_silent silent.1 silent.2]
        exact backOff_settles sch env ends silent.1 silent.2 (by simp [noteFailure])
      · cases path : l.path with
        | execute =>
            have final : e.retryable = false := by simpa [path] using silent
            have goes : GoesOn env l.path (d, l.attempts + 1) := by
              simp [GoesOn, path, ends, final]
            have awake : ¬ BacksOff env l.path (d, l.attempts + 1) := by
              simp [BacksOff, path, ends, final]
            simp only [settle, settleExecute, attemptAt, path, ends, final] at now ⊢
            exact .retries e goes awake now
        | executeStream =>
            have stays : ¬ GoesOn env l.path (d, l.attempts + 1) := by
              rw [path]
              rintro ⟨quiet, e', same, retryable, -⟩
              obtain rfl : e = e' := CallOutcome.apiError.inj (ends.symm.trans same)
              exact silent ⟨retryable, .inr quiet⟩
            have raises : (!(env d.provider).chunks.isEmpty || !e.retryable) = true := by
              by_contra quiet
              exact silent (by simpa [path, List.isEmpty_iff, and_comm] using quiet)
            simp only [settle, settleStream, attemptAt, path, ends, decide_true, Bool.true_and,
              raises, if_true] at now ⊢
            exact .stops stays now

/-- What a loop does with the attempts `tried` that it has retries for, from one time to
another, attempt by attempt. -/
inductive Course (path : Path) : ℚ → List (RoutingDecision × ℕ) → ℚ → List Try → Prop
  | exhausted (now : ℚ) : Course path now [] now []
  | stops {start now : ℚ} {p : RoutingDecision × ℕ} {tried : List (RoutingDecision × ℕ)}
      (stays : ¬ GoesOn env path p) :
      Course path start (p :: tried) now [{ decision := p.1, endedAt := now, slept := none }]
  | retries {start now finish : ℚ} {p : RoutingDecision × ℕ} {tried : List (RoutingDecision × ℕ)}
      {ts : List Try} (goes : GoesOn env path p)
      (awake : ¬ BacksOff env path p) (rest : Course path now tried finish ts) :
      Course path start (p :: tried) finish
        ({ decision := p.1, endedAt := now, slept := none } :: ts)
  | sleeps {start now woken finish : ℚ} {p : RoutingDecision × ℕ}
      {tried : List (RoutingDecision × ℕ)} {ts : List Try} {delay : ℚ}
      (fails : BacksOff env path p) (attempt : ℕ) (retryAfter : Option PyFloat)
      (delayed : backoffDelay attempt sch.backoffBase sch.backoffCap retryAfter
        (env p.1.provider).jitter = some delay) (rest : Course path woken tried finish ts) :
      Course path start (p :: tried) finish
        ({ decision := p.1, endedAt := now, slept := some delay } :: ts)

/-- The loop from any point on, with the retries that are left. -/
theorem drainLoop_course (ds : List RoutingDecision) (s : AppState) (l : LoopState) :
    Course sch env l.path s.now
      (numbered l.attempts (ds.take (sch.maxRetries - l.attempts).toNat))
      (sch.drainLoop env s l ds).app.now (sch.tries env s l ds) := by
  induction ds generalizing s l with
  | nil =>
      rw [List.take_nil]
      exact .exhausted s.now
  | cons d rest ih =>
      by_cases spent : sch.maxRetries ≤ l.attempts
      · rw [take_spent spent, drainLoop_spent spent, tries, if_pos spent]
        exact .exhausted s.now
      · have settled := sch.settle_settles env s l d rest
        rw [take_room spent, numbered_cons]
        simp only [tries, drainLoop, if_neg spent]
        generalize sch.settle (callEnded env s d) (attemptAt env s l d rest)
          (env d.provider).outcome (env d.provider).jitter = next at settled ⊢
        cases settled with
        | stops stays now =>
            dsimp only
            rw [now]
            exact .stops stays
        | @retries s' e goes awake now =>
            dsimp only
            rw [← now]
            exact .retries goes awake (ih s' (l.failed e))
        | sleeps e fails delayed => exact .sleeps fails _ _ delayed (ih _ (l.failed e))

namespace Course

variable {sch env} {path : Path} {start finish : ℚ} {tried : List (RoutingDecision × ℕ)}
  {ts : List Try}

theorem eq_nil_iff (course : Course sch env path start tried finish ts) :
    ts = [] ↔ tried = [] := by
  cases course <;> simp

/-- The run sleeps after its last attempt exactly where its decisions end so. -/
theorem asleepAtEnd_iff (course : Course sch env path start tried finish ts) :
    AsleepAtEnd ts ↔ EndsAsleep env path tried := by
  induction course with
  | exhausted => simp [not_endsAsleep_nil]
  | stops stays =>
      have awake := mt BacksOff.goesOn stays
      simp [asleepAtEnd_cons, endsAsleep_cons, stays, awake]
  | retries goes awake rest ih => simp [asleepAtEnd_cons, endsAsleep_cons, goes, awake, ih]
  | sleeps fails attempt retryAfter delayed rest ih =>
      simp [asleepAtEnd_cons, endsAsleep_cons, fails, fails.goesOn, ih, rest.eq_nil_iff]

/-- Where nothing is slept after the last attempt, the run ends with it. -/
theorem finish_eq (course : Course sch env path start tried finish ts) {t : Try}
    (last : ts.getLast? = some t) (awake : t.slept = none) : finish = t.endedAt := by
  induction course with
  | exhausted => cases last
  | stops stays =>
      obtain rfl := Option.some.inj last
      rfl
  | retries goes sleepless rest ih =>
      cases rest with
      | exhausted =>
          obtain rfl := Option.some.inj last
          rfl
      | _ => exact ih last
  | sleeps fails attempt retryAfter delayed rest ih =>
      cases rest with
      | exhausted =>
          obtain rfl := Option.some.inj last
          cases awake
      | _ => exact ih last

theorem slept_mem (base : 0 ≤ sch.backoffBase) (cap : 0 ≤ sch.backoffCap)
    (course : Course sch env path start tried finish ts) :
    ∀ t ∈ ts, ∀ delay, t.slept = some delay → 0 ≤ delay ∧ delay ≤ sch.backoffCap + 1 / 4 := by
  induction course with
  | exhausted => simp
  | stops stays => simp
  | retries goes awake rest ih => simpa using ih
  | sleeps fails attempt retryAfter delayed rest ih =>
      simp only [List.forall_mem_cons, Option.some.injEq, forall_eq']
      exact ⟨backoffDelay_mem base cap attempt retryAfter _ _ delayed, ih⟩

end Course
end Scheduler

/-- The run ends with an exception. -/
def RunEnd.Raises : RunEnd → Prop
  | .returned .. | .completed => False
  | _ => True

/-- Backoff happens only between the attempts of the loop over `ds`. -/
structure BackoffBetween (sch : Scheduler) (env : Upstreams) (s : AppState) (l : LoopState)
    (ds : List RoutingDecision) : Prop where
  followed : ∀ earlier t later, sch.tries env s l ds = earlier ++ t :: later →
    t.slept.isSome → later ≠ []
  fewer : (sch.tries env s l ds).countP (·.slept.isSome) ≤
    (contacted (sch.drainLoop env s l ds).events).length - 1
  bounded : ∀ t ∈ sch.tries env s l ds, ∀ delay, t.slept = some delay →
    0 ≤ delay ∧ delay ≤ sch.backoffCap + 1 / 4
  prompt : (sch.drainLoop env s l ds).ending.Raises →
    ∀ t, (sch.tries env s l ds).getLast? = some t →
      (sch.drainLoop env s l ds).app.now ≤ t.endedAt

theorem followed_iff {ts : List Try} :
    (∀ earlier t later, ts = earlier ++ t :: later → t.slept.isSome → later ≠ []) ↔
      ¬ AsleepAtEnd ts := by
  constructor
  · rintro followed ⟨t, last, slept⟩
    obtain ⟨earlier, split⟩ := List.getLast?_eq_some_iff.mp last
    exact followed earlier t [] split slept rfl
  · rintro awake earlier t later split slept rfl
    exact awake ⟨t, by simp [split], slept⟩

theorem slept_countP_le {ts : List Try} (awake : ¬ AsleepAtEnd ts) :
    ts.countP (·.slept.isSome) ≤ ts.length - 1 := by
  induction ts using List.reverseRecOn with
  | nil => simp
  | append_singleton earlier t _ =>
      have last : ¬ t.slept.isSome := fun slept => awake ⟨t, by simp, slept⟩
      have total : earlier.countP (·.slept.isSome) ≤ earlier.length := List.countP_le_length
      simpa [List.countP_append, last] using total

/-- A run sleeps only between two attempts, and fails no later than its last call, if and
only if the attempts it has retries for do not end in a retryable failure with a delay, after
failures only behind which it goes on. -/
theorem backoff_between_iff (sch : Scheduler) (base : 0 ≤ sch.backoffBase)
    (cap : 0 ≤ sch.backoffCap) (env : Upstreams) (s : AppState) (path : Path)
    (request : ChatCompletionRequest) (ds : List RoutingDecision) :
    BackoffBetween sch env s { path, request } ds ↔
      ¬ EndsAsleep env path (numbered 0 (ds.take sch.maxRetries.toNat)) := by
  have course := sch.drainLoop_course env ds s { path, request }
  have asleep := course.asleepAtEnd_iff
  simp only [Nat.cast_zero, sub_zero] at asleep
  rw [← asleep]
  constructor
  · intro between
    exact followed_iff.mp between.followed
  · intro awake
    refine ⟨followed_iff.mpr awake, ?_, course.slept_mem base cap, ?_⟩
    · rw [← sch.tries_decision, List.length_map]
      exact slept_countP_le awake
    intro _ t last
    have sleepless : t.slept = none := by
      rw [← Option.not_isSome_iff_eq_none]
      exact fun slept => awake ⟨t, last, slept⟩
    exact (course.finish_eq last sleepless).le

namespace Demo

/-- A decision for each of the named providers. -/
def decisions (names : List String) : List RoutingDecision :=
  names.map fun provider => { provider, model := "m", score := 0 }

/-- The provider `a` fails with 503, and every other answers. -/
def overloaded : Upstreams := fun name =>
  .alone [] (if name = "a" then .apiError (apiError 503)
    else .success { raw := .null, latencyMs := 120, providerName := name }) (instant name)

end Demo

theorem backoff_between_two_attempts :
    BackoffBetween Demo.scheduler Demo.overloaded (Demo.gateway fun _ => Demo.config [] 10).app
      { path := .execute, request := Demo.request "m" } (Demo.decisions ["a", "b"]) := by
  refine (backoff_between_iff _ (by norm_num [Demo.scheduler]) (by norm_num [Demo.scheduler])
    _ _ _ _ _).mpr ?_
  have answers : ∀ d n, d.provider = "b" → ¬ BacksOff Demo.overloaded .execute (d, n) := by
    intro d n named
    simp [BacksOff, Demo.overloaded, Upstream.alone, named]
  simp [Demo.decisions, Demo.scheduler, endsAsleep_cons, not_endsAsleep_nil, answers]

/-- The only provider fails, and the run sleeps before it says so. -/
theorem backoff_after_last_attempt :
    ¬ BackoffBetween Demo.scheduler Demo.overloaded (Demo.gateway fun _ => Demo.config [] 10).app
      { path := .execute, request := Demo.request "m" } (Demo.decisions ["a"]) := by
  have evaluated : (Demo.scheduler.tries Demo.overloaded
      (Demo.gateway fun _ => Demo.config [] 10).app { path := .execute, request := Demo.request "m" }
      (Demo.decisions ["a"])).map (·.slept.isSome) = [true] := by decide +kernel
  rintro ⟨followed, -, -, -⟩
  obtain ⟨t, only, slept⟩ := List.map_eq_singleton_iff.mp evaluated
  exact followed [] t [] only slept rfl

end Noxis
