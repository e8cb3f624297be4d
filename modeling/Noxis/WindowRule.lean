import Noxis.Dispatch

/-! A rule for usage windows: what every use of one provider's window keeps, every step of the
gateway keeps. -/
namespace Noxis

/-- The event starts or ends a call to the provider. -/
def Event.Concerns (name : String) : Event → Prop
  | .dispatched _ _ d _ => d.provider = name
  | .failed _ provider _ => provider = name
  | _ => False

/-- `record_failure`, and `record_429` on a status of 429. -/
def ProviderUsageWindow.fail (w : ProviderUsageWindow) (now : ℚ) (e : ProviderAPIError) :
    ProviderUsageWindow :=
  if e.statusCode = 429 then w.recordFailure.record429 now e.retryAfter else w.recordFailure

/-- A property of the time, the events so far and the window of one provider that the passing
of time, the events of others and each operation on the window keep. -/
structure WindowRule (name : String) (P : ℚ → List Event → ProviderUsageWindow → Prop) :
    Prop where
  later : ∀ {now now' events w}, now ≤ now' → P now events w → P now' events w
  other : ∀ {now events w event}, ¬ event.Concerns name → P now events w →
    P now (events ++ [event]) w
  trim : ∀ {now events w}, P now events w → P now events (w.trim now)
  release : ∀ {now events w}, P now events w →
    P now events { w with concurrent := w.concurrent - 1 }
  acquire : ∀ {events w} {s : AppState} {d : RoutingDecision} (attempts : ℕ)
    (call : ChatCompletionRequest), d.provider = name → P s.now events w →
      P s.now (events ++ [.dispatched s attempts d call])
        ({ w with concurrent := w.concurrent + 1 }.recordRequest s.now)
  fail : ∀ {now events w} (e : ProviderAPIError), P now events w →
    P now (events ++ [.failed now name e]) (w.fail now e)

/-- The property of a state, read off the window it keeps for the provider. -/
def AtWindow (P : ℚ → List Event → ProviderUsageWindow → Prop) (name : String)
    (events : List Event) (s : AppState) : Prop :=
  P s.now events (s.rateLimiter name)

namespace WindowRule

variable {name : String} {P : ℚ → List Event → ProviderUsageWindow → Prop}
  (rule : WindowRule name P) {events : List Event} {s : AppState}

include rule

theorem atRelease (other : String) (h : AtWindow P name events s) :
    AtWindow P name events (s.release other) := by
  by_cases same : name = other
  · subst same
    simpa [AtWindow, AppState.release, RateLimiter.release] using rule.release h
  · rw [AtWindow, (agreesOn_release s same).window]
    exact h

theorem atAcquire (d : RoutingDecision) (attempts : ℕ) (call : ChatCompletionRequest)
    (h : AtWindow P name events s) :
    AtWindow P name (events ++ [.dispatched s attempts d call]) (s.acquire d.provider) := by
  by_cases same : d.provider = name
  · have used := rule.acquire attempts call same h
    subst same
    simpa [AtWindow, AppState.acquire, RateLimiter.acquire] using used
  · have kept : P s.now (events ++ [.dispatched s attempts d call]) (s.rateLimiter name) :=
      rule.other same h
    simpa [AtWindow, AppState.acquire, RateLimiter.acquire, Ne.symm same] using kept

theorem atFailure (other : String) (e : ProviderAPIError) (h : AtWindow P name events s) :
    AtWindow P name (events ++ [.failed s.now other e]) (s.limiterFailure other e) := by
  by_cases same : other = name
  · subst same
    have failed := rule.fail e h
    by_cases limited : e.statusCode = 429
    · simpa [AtWindow, ProviderUsageWindow.fail, AppState.limiterFailure,
        RateLimiter.recordFailure, RateLimiter.record429, limited] using failed
    · simpa [AtWindow, ProviderUsageWindow.fail, AppState.limiterFailure,
        RateLimiter.recordFailure, limited] using failed
  · rw [AtWindow, (agreesOn_limiterFailure s e (Ne.symm same)).window]
    exact rule.other same h

theorem atContinues {sch : Scheduler} {l : LoopState} {rest : List RoutingDecision}
    {s' : AppState} {st : RunState} {more : List Event}
    (next : sch.Continues s l rest s' st more) (h : AtWindow P name events s) :
    AtWindow P name (events ++ more) s' := by
  cases next with
  | stop => simpa using h
  | dispatch => exact rule.atAcquire _ _ _ h

theorem atResumes {sch : Scheduler} {st st' : RunState} {act : RunAction} {s' : AppState}
    {more : List Event} (moved : sch.Resumes s st act s' st' more)
    (h : AtWindow P name events s) : AtWindow P name (events ++ more) s' := by
  -- the breaker and the health of a provider are no part of its window
  cases moved with
  | emit => exact rule.other id h
  | pull => simpa using h
  | @success a => simpa using rule.atRelease (s := Scheduler.noteSuccess s a) _ h
  | otherError => simpa using rule.atRelease _ h
  | @terminal a e u s' st' rest path final next =>
      have failed := rule.atFailure a.decision.provider e h
      have released := rule.atRelease (s := (sch.noteFailure s a.decision.provider e).onProvider
        a.decision.provider (·.withHealth .unavailable)) a.decision.provider failed
      simpa using rule.atContinues next released
  | @raised a e =>
      have failed := rule.atFailure a.decision.provider e h
      exact rule.atRelease (s := sch.noteFailure s a.decision.provider e) _ failed
  | @overflow a e =>
      have failed := rule.atFailure a.decision.provider e h
      exact rule.atRelease (s := sch.noteFailure s a.decision.provider e) _ failed
  | @backoff a e => exact rule.atFailure a.decision.provider e h
  | wake due next => exact rule.atContinues next (rule.atRelease _ h)
  | cancel => simpa using rule.atRelease _ h

/-- One step of the gateway keeps the property. -/
theorem step {sch : Scheduler} {g g' : Gateway} {act : Action} {more : List Event}
    (moved : Gateway.step sch g act = some (g', more)) (h : AtWindow P name events g.app) :
    AtWindow P name (events ++ more) g'.app := by
  have onlyHealth : ∀ {app : AppState}, OnlyHealth g.app app → AtWindow P name events app := by
    intro app change
    rw [AtWindow, change.now, change.rateLimiter]
    exact h
  cases Gateway.step_steps moved with
  | @elapse dt =>
      rw [List.append_nil]
      exact rule.later (le_add_of_nonneg_right dt.2) h
  | @begin path request ds app app' l st more admission fresh taken next =>
      have ranked : AtWindow P name events app := by
        rw [AtWindow, admission.now]
        rcases admission.trims name with same | same
        · rw [same]
          exact h
        · rw [same]
          exact rule.trim h
      exact rule.atContinues next ranked
  | run runs moved => exact rule.atResumes moved h
  | beginSweep change next => simpa using onlyHealth change
  | sweep found swept =>
      have after := onlyHealth (sweepStep_onlyHealth swept)
      rcases sweepStep_events swept with rfl | ⟨other, code, rfl⟩
      · simpa using after
      · exact rule.other id after
  | setEnabled =>
      rw [List.append_nil]
      exact h

/-- A property that holds at the start holds along every run. -/
theorem run {sch : Scheduler} {start g : Gateway} {ts : List GatewayTransition}
    (base : AtWindow P name [] start.app) (run : GatewayRun sch start ts g) :
    AtWindow P name (LabelledRun.eventsOf ts) g.app := by
  refine run.invariant
    (fun past (g : Gateway) => AtWindow P name (LabelledRun.eventsOf past) g.app) base ?_
  intro past t _ before valid
  rw [LabelledRun.eventsOf_snoc]
  exact rule.step valid before

end WindowRule
end Noxis
