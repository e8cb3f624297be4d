import Noxis.Dispatch
import Noxis.Library.SlidingWindow

/-! Provider budgets. The usage window of a provider tracks the calls sent to it; a call
sent while `can_serve` holds keeps every budget, and only failover attempts are sent
without asking. -/
namespace Noxis

open SlidingWindow

namespace ProviderUsageWindow

/-- The window accounts for the calls sent at `times` and the cooldowns that end at `ends`. -/
structure Tracks (w : ProviderUsageWindow) (limits : RateLimitConfig) (now : ℚ)
    (times : List ℚ) (ends : List (WithTop ℚ)) : Prop where
  concurrency : w.concurrent ≤ limits.maxConcurrency
  minute : Keeps 60 now times w.minuteHits
  day : Keeps 86400 now times w.dayHits
  perMinute : ∀ rpm, limits.requestsPerMinute = some rpm → Admitted 60 rpm times
  perDay : ∀ rpd, limits.requestsPerDay = some rpd → Admitted 86400 rpd times
  cooldowns : ∀ u ∈ ends, u ≤ w.rateLimitedUntil

variable {w : ProviderUsageWindow} {limits : RateLimitConfig} {now : ℚ} {times : List ℚ}
  {ends : List (WithTop ℚ)}

theorem Tracks.later (h : w.Tracks limits now times ends) {now' : ℚ} (le : now ≤ now') :
    w.Tracks limits now' times ends :=
  { h with minute := h.minute.later le, day := h.day.later le }

theorem Tracks.trim (h : w.Tracks limits now times ends) :
    (w.trim now).Tracks limits now times ends :=
  { h with minute := h.minute.trim, day := h.day.trim }

theorem Tracks.release (h : w.Tracks limits now times ends) :
    { w with concurrent := w.concurrent - 1 }.Tracks limits now times ends :=
  { h with concurrency := (Nat.sub_le _ _).trans h.concurrency }

theorem Tracks.recordFailure (h : w.Tracks limits now times ends) :
    w.recordFailure.Tracks limits now times ends := { h with }

theorem Tracks.record429 (h : w.Tracks limits now times ends) (retryAfter : Option PyFloat) :
    (w.record429 now retryAfter).Tracks limits now times
      (ends ++ [now + cooldown429 retryAfter]) := by
  refine { h with cooldowns := ?_ }
  intro u member
  rcases List.mem_append.mp member with old | new
  · exact (h.cooldowns u old).trans (le_max_left _ _)
  · obtain rfl := List.mem_singleton.mp new
    exact le_max_right _ _

/-- A call admitted by every check of `can_serve` keeps all budgets. -/
theorem Tracks.acquire (h : w.Tracks limits now times ends)
    (slot : w.concurrent < limits.maxConcurrency)
    (minuteRoom : ∀ rpm, limits.requestsPerMinute = some rpm → w.requestsLastMinute now < rpm)
    (dayRoom : ∀ rpd, limits.requestsPerDay = some rpd → w.requestsLastDay now < rpd) :
    ({ w with concurrent := w.concurrent + 1 }.recordRequest now).Tracks limits now
      (times ++ [now]) ends where
  concurrency := slot
  minute := (h.minute.push now).trim
  day := (h.day.push now).trim
  perMinute rpm limit :=
    (h.perMinute rpm limit).push (h.minute.trim.recent_le.trans_lt (minuteRoom rpm limit))
  perDay rpd limit :=
    (h.perDay rpd limit).push (h.day.trim.recent_le.trans_lt (dayRoom rpd limit))
  cooldowns := h.cooldowns

end ProviderUsageWindow

def Servable (s : AppState) (name : String) : Prop :=
  (s.rateLimiter.canServe s.now name (s.provider name).config.rateLimit).1 = true

instance (s : AppState) (name : String) : Decidable (Servable s name) :=
  inferInstanceAs (Decidable (_ = true))

theorem servable_congr (name : String) (s s' : AppState) (h : AgreesOn name s s') :
    Servable s name ↔ Servable s' name := by
  simp only [Servable, RateLimiter.canServe_iff, h.provider, h.window, h.now]

theorem servable_of_admission {sch : Scheduler} {s s' : AppState}
    {request : ChatCompletionRequest} {ds : List RoutingDecision}
    (admission : sch.Admission s request ds s') {d : RoutingDecision} (member : d ∈ ds) :
    Servable s' d.provider := by
  have before : Servable s d.provider := (admission.eligible d member).2.2.1
  rw [Servable, admission.now, admission.touched d member, CircuitBreaker.allowRequest_config,
    admission.trims.canServe_eq]
  exact before

def dispatchTimes (name : String) (events : List Event) : List ℚ :=
  events.filterMap fun
    | .dispatched before _ d _ => if d.provider = name then some before.now else none
    | _ => none

/-- When the cooldowns end that its 429 answers asked for. -/
def cooldownEnds (name : String) (events : List Event) : List (WithTop ℚ) :=
  events.filterMap fun
    | .failed time provider e =>
        if provider = name ∧ e.statusCode = 429 then
          some ((time : WithTop ℚ) + ProviderUsageWindow.cooldown429 e.retryAfter)
        else none
    | _ => none

@[simp] theorem dispatchTimes_append (name : String) (events more : List Event) :
    dispatchTimes name (events ++ more) = dispatchTimes name events ++ dispatchTimes name more :=
  List.filterMap_append

@[simp] theorem cooldownEnds_append (name : String) (events more : List Event) :
    cooldownEnds name (events ++ more) = cooldownEnds name events ++ cooldownEnds name more :=
  List.filterMap_append

/-- The second event is no call inside a cooldown that the first one began. -/
def RespectsCooldown : Event → Event → Prop
  | .failed time provider e, .dispatched before _ d _ =>
      d.provider = provider → e.statusCode = 429 →
        (time : WithTop ℚ) + ProviderUsageWindow.cooldown429 e.retryAfter ≤ before.now
  | _, _ => True

structure BudgetsHold (config : String → ProviderConfig) (start : Gateway)
    (ts : List GatewayTransition) : Prop where
  concurrency : ∀ g name, LabelledRun.Visits start ts g →
    (g.app.rateLimiter name).concurrent ≤ (config name).rateLimit.maxConcurrency
  minutes : ∀ name rpm, (config name).rateLimit.requestsPerMinute = some rpm → ∀ a : ℚ,
    (dispatchTimes name (LabelledRun.eventsOf ts)).countP (fun t => a ≤ t ∧ t ≤ a + 60) ≤ rpm
  days : ∀ name rpd, (config name).rateLimit.requestsPerDay = some rpd → ∀ a : ℚ,
    (dispatchTimes name (LabelledRun.eventsOf ts)).countP (fun t => a ≤ t ∧ t ≤ a + 86400) ≤ rpd
  cooldowns : (LabelledRun.eventsOf ts).Pairwise RespectsCooldown

/-- The invariant: every window tracks the events so far. -/
structure Tracks (config : String → ProviderConfig) (events : List Event) (s : AppState) :
    Prop where
  configured : ∀ name, (s.provider name).config = config name
  windows : ∀ name, (s.rateLimiter name).Tracks (config name).rateLimit s.now
    (dispatchTimes name events) (cooldownEnds name events)
  respected : events.Pairwise RespectsCooldown

section preservation
variable {config : String → ProviderConfig} {events : List Event} {s : AppState}

theorem Tracks.elapse (h : Tracks config events s) (dt : ℚ≥0) :
    Tracks config events (s.elapse dt) :=
  { h with windows := fun name => (h.windows name).later (le_add_of_nonneg_right dt.2) }

theorem Tracks.onProvider (h : Tracks config events s) (name : String) {f : Provider → Provider}
    (keeps : ∀ p, (f p).config = p.config) : Tracks config events (s.onProvider name f) := by
  refine ⟨?_, h.windows, h.respected⟩
  intro other
  by_cases same : other = name
  · subst same
    rw [AppState.onProvider_provider_self, keeps]
    exact h.configured other
  · rw [s.onProvider_provider_other f same]
    exact h.configured other

theorem Tracks.release (h : Tracks config events s) (name : String) :
    Tracks config events (s.release name) := by
  refine ⟨h.configured, ?_, h.respected⟩
  intro other
  by_cases same : other = name
  · subst same
    simpa [AppState.release, RateLimiter.release] using (h.windows other).release
  · simpa [AppState.release, RateLimiter.release, same] using h.windows other

/-- An event that is neither a call nor a failure changes no account. -/
theorem Tracks.quiet (h : Tracks config events s) {event : Event}
    (calls : ∀ name, dispatchTimes name [event] = [])
    (answers : ∀ name, cooldownEnds name [event] = []) : Tracks config (events ++ [event]) s := by
  refine ⟨h.configured, ?_, ?_⟩
  · intro name
    simpa [calls, answers] using h.windows name
  · rw [List.pairwise_append]
    refine ⟨h.respected, List.pairwise_singleton _ _, ?_⟩
    intro x _ y new
    obtain rfl := List.mem_singleton.mp new
    cases x <;> cases y <;> try exact True.intro
    rename_i before attempts d call
    simpa [dispatchTimes] using calls d.provider

/-- A failed call is accounted for by `record_failure` and `record_429`. -/
theorem Tracks.limiterFailure (h : Tracks config events s) (name : String) (e : ProviderAPIError) :
    Tracks config (events ++ [.failed s.now name e]) (s.limiterFailure name e) := by
  refine ⟨h.configured, ?_, ?_⟩
  · intro other
    have before := h.windows other
    by_cases same : name = other
    · subst same
      by_cases limited : e.statusCode = 429
      · simpa [AppState.limiterFailure, RateLimiter.recordFailure, RateLimiter.record429,
          dispatchTimes, cooldownEnds, limited] using before.recordFailure.record429 e.retryAfter
      · simpa [AppState.limiterFailure, RateLimiter.recordFailure, dispatchTimes, cooldownEnds,
          limited] using before.recordFailure
    · have untouched : (s.limiterFailure name e).rateLimiter other = s.rateLimiter other :=
        (agreesOn_limiterFailure s e (Ne.symm same)).window
      rw [untouched]
      simpa [dispatchTimes, cooldownEnds, same] using before
  · rw [List.pairwise_append]
    refine ⟨h.respected, List.pairwise_singleton _ _, ?_⟩
    intro x _ y new
    obtain rfl := List.mem_singleton.mp new
    cases x <;> exact True.intro

theorem mem_cooldownEnds {time : ℚ} {name : String} {e : ProviderAPIError}
    (member : .failed time name e ∈ events) (limited : e.statusCode = 429) :
    (time : WithTop ℚ) + ProviderUsageWindow.cooldown429 e.retryAfter ∈ cooldownEnds name events :=
  List.mem_filterMap.mpr ⟨_, member, by simp [limited]⟩

/-- A call sent in a servable state keeps all accounts within the budgets. -/
theorem Tracks.acquire (h : Tracks config events s) {d : RoutingDecision}
    (servable : Servable s d.provider) (attempts : ℕ) (call : ChatCompletionRequest) :
    Tracks config (events ++ [.dispatched s attempts d call]) (s.acquire d.provider) := by
  rw [Servable, h.configured, RateLimiter.canServe_iff] at servable
  obtain ⟨open_, slot, minuteRoom, dayRoom⟩ := servable
  refine ⟨h.configured, ?_, ?_⟩
  · intro other
    have before := h.windows other
    by_cases same : d.provider = other
    · subst same
      simpa [AppState.acquire, RateLimiter.acquire, dispatchTimes, cooldownEnds] using
        before.acquire slot minuteRoom dayRoom
    · simpa [AppState.acquire, RateLimiter.acquire, dispatchTimes, cooldownEnds, same,
        Ne.symm same] using before
  · rw [List.pairwise_append]
    refine ⟨h.respected, List.pairwise_singleton _ _, ?_⟩
    intro x old y new
    obtain rfl := List.mem_singleton.mp new
    cases x with
    | failed time provider e =>
        rintro rfl limited
        exact ((h.windows d.provider).cooldowns _ (mem_cooldownEnds old limited)).trans open_
    | dispatched => exact True.intro
    | yielded => exact True.intro
    | probed => exact True.intro

theorem Tracks.onlyHealth (h : Tracks config events s) {s' : AppState} (change : OnlyHealth s s') :
    Tracks config events s' := by
  refine ⟨fun name => (change.config name).trans (h.configured name), ?_, h.respected⟩
  rw [change.now, change.rateLimiter]
  exact h.windows

theorem Tracks.admission (h : Tracks config events s) {sch : Scheduler} {s' : AppState}
    {request : ChatCompletionRequest} {ds : List RoutingDecision}
    (admission : sch.Admission s request ds s') : Tracks config events s' := by
  refine ⟨?_, ?_, h.respected⟩
  · intro name
    rcases admission.effect name with same | ⟨-, -, same⟩
    · rw [same]
      exact h.configured name
    · rw [same, CircuitBreaker.allowRequest_config]
      exact h.configured name
  · intro name
    rw [admission.now]
    rcases admission.trims name with same | same
    · rw [same]
      exact h.windows name
    · rw [same]
      exact (h.windows name).trim

theorem Tracks.noteFailure (h : Tracks config events s) (sch : Scheduler) (name : String)
    (e : ProviderAPIError) :
    Tracks config (events ++ [.failed s.now name e]) (sch.noteFailure s name e) :=
  (h.limiterFailure name e).onProvider name fun p =>
    sch.breaker.recordFailure_config s.now p e.retryable

theorem Tracks.noteSuccess (h : Tracks config events s) (a : Attempt) :
    Tracks config events (Scheduler.noteSuccess s a) :=
  let recorded := h.onProvider a.decision.provider CircuitBreaker.recordSuccess_config
  ⟨recorded.configured, recorded.windows, recorded.respected⟩

theorem Tracks.afterTerminal (h : Tracks config events s) (sch : Scheduler) (name : String)
    (e : ProviderAPIError) :
    Tracks config (events ++ [.failed s.now name e]) (sch.afterTerminal s name e) :=
  ((h.noteFailure sch name e).onProvider name fun p => p.withHealth_config _).release name

/-- One condition on the events of a step: each call is sent in a servable state. -/
def CallsServable (events : List Event) : Prop :=
  ∀ before attempts d call, .dispatched before attempts d call ∈ events →
    Servable before d.provider

theorem Tracks.continues (h : Tracks config events s) {sch : Scheduler} {l : LoopState}
    {rest : List RoutingDecision} {s' : AppState} {st : RunState} {more : List Event}
    (next : sch.Continues s l rest s' st more) (servable : CallsServable more) :
    Tracks config (events ++ more) s' := by
  cases next with
  | stop => simpa using h
  | @dispatch d rest room =>
      exact h.acquire (servable s _ d _ (List.mem_singleton_self _)) _ _

theorem Tracks.resumes (h : Tracks config events s) {sch : Scheduler} {st st' : RunState}
    {act : RunAction} {s' : AppState} {more : List Event}
    (moved : sch.Resumes s st act s' st' more) (servable : CallsServable more) :
    Tracks config (events ++ more) s' := by
  cases moved with
  | emit => exact h.quiet (fun _ => rfl) (fun _ => rfl)
  | pull => simpa using h
  | success => simpa using (h.noteSuccess _).release _
  | otherError => simpa using h.release _
  | @terminal a e u s' st' rest path final next =>
      have after := (h.afterTerminal sch a.decision.provider e).continues next
        fun before k d call sent => servable before k d call (List.mem_cons_of_mem _ sent)
      simpa using after
  | raised => exact (h.noteFailure sch _ _).release _
  | overflow => exact (h.noteFailure sch _ _).release _
  | backoff => exact h.noteFailure sch _ _
  | wake due next => exact (h.release _).continues next servable
  | cancel => simpa using h.release _

end preservation

namespace Gateway

/-- One step keeps the accounts if the calls it sends are servable. -/
theorem step_tracks {sch : Scheduler} {config : String → ProviderConfig} {events : List Event}
    {g g' : Gateway} {act : Action} {more : List Event} (h : Tracks config events g.app)
    (moved : step sch g act = some (g', more)) (servable : CallsServable more) :
    Tracks config (events ++ more) g'.app := by
  cases step_steps moved with
  | elapse => simpa using h.elapse _
  | begin admission fresh taken next => exact (h.admission admission).continues next servable
  | run runs moved => exact h.resumes moved servable
  | beginSweep change next => simpa using h.onlyHealth change
  | sweep found swept =>
      have after := h.onlyHealth (sweepStep_onlyHealth swept)
      rcases sweepStep_events swept with rfl | ⟨name, code, rfl⟩
      · simpa using after
      · exact after.quiet (fun _ => rfl) (fun _ => rfl)
  | setEnabled =>
      refine ⟨?_, by simpa using h.windows, by simpa using h.respected⟩
      intro other
      simpa [AppState.provider] using h.configured other

theorem boot_tracks (now : ℚ) (names : List String) (nodup : names.Nodup)
    (config : String → ProviderConfig) : Tracks config [] (boot now names nodup config).app where
  configured _ := rfl
  windows name :=
    { concurrency := Nat.zero_le _
      minute := .refl _ _ _
      day := .refl _ _ _
      perMinute := fun _ _ => .nil _ _
      perDay := fun _ _ => .nil _ _
      cooldowns := by simp [cooldownEnds] }
  respected := .nil

theorem run_budgetsHold {sch : Scheduler} {now : ℚ} {names : List String} {nodup : names.Nodup}
    {config : String → ProviderConfig} {ts : List GatewayTransition} {g : Gateway}
    (run : GatewayRun sch (boot now names nodup config) ts g)
    (servable : CallsServable (LabelledRun.eventsOf ts)) :
    BudgetsHold config (boot now names nodup config) ts := by
  -- the accounts hold in every state the run visits
  have tracked : ∀ past later v, ts = past ++ later →
      GatewayRun sch (boot now names nodup config) past v →
      Tracks config (LabelledRun.eventsOf past) v.app := by
    intro past later v eq partial_run
    refine partial_run.invariant_under (fun _ t => CallsServable t.events)
      (fun past (g : Gateway) => Tracks config (LabelledRun.eventsOf past) g.app)
      (boot_tracks now names nodup config) ?_ ?_
    · intro earlier t _ before valid calls
      rw [LabelledRun.eventsOf_snoc]
      exact step_tracks before valid calls
    · intro earlier t between split before k d call sent
      refine servable before k d call (List.mem_flatMap.mpr ⟨t, ?_, sent⟩)
      simp [eq, split]
  have final := tracked ts [] g (by simp) run
  refine ⟨?_, ?_, ?_, final.respected⟩
  · intro v name visited
    obtain ⟨past, later, eq, partial_run⟩ := run.prefix_of_visits visited
    exact ((tracked past later v eq partial_run).windows name).concurrency
  · intro name rpm limit a
    exact ((final.windows name).perMinute rpm limit).window_le a
  · intro name rpd limit a
    exact ((final.windows name).perDay rpd limit).window_le a

end Gateway

/-- Every call is sent while `can_serve` holds if and only if it holds of the next provider
before every failover step, and then all budgets hold. -/
theorem dispatches_servable_iff (sch : Scheduler) (now : ℚ) (names : List String)
    (nodup : names.Nodup) (config : String → ProviderConfig) (ts : List GatewayTransition)
    (g : Gateway) (run : GatewayRun sch (.boot now names nodup config) ts g) :
    (CallsServable (LabelledRun.eventsOf ts) ↔
      ∀ t ∈ ts, ∀ d, Gateway.failover sch t.before t.action = some d →
        Servable t.before.app d.provider) ∧
    ((∀ t ∈ ts, ∀ d, Gateway.failover sch t.before t.action = some d →
        Servable t.before.app d.provider) →
      BudgetsHold config (.boot now names nodup config) ts) := by
  have equivalent : CallsServable (LabelledRun.eventsOf ts) ↔ _ :=
    Gateway.dispatches_iff_failovers servable_congr
      (fun _ _ _ _ admission _ member => servable_of_admission admission member)
      (Gateway.boot_wellFormed now names nodup config) run
  exact ⟨equivalent, fun allowed => Gateway.run_budgetsHold run (equivalent.mpr allowed)⟩

/-- `a` serves the model `m` only, `b` every model but one call at a time. -/
def narrowConfig (name : String) : ProviderConfig :=
  if name = "a" then Demo.config ["m"] 10 else Demo.config ["m", "k"] 1

/-- One request fails over from `a` to `b`, which is idle. -/
def loneFailover : List Action := [.begin .execute (Demo.request "m"), .run 0 (Demo.fails 400)]

theorem dispatches_servable_iff_lone_failover :
    ∃ ts g, GatewayRun Demo.scheduler (Demo.gateway narrowConfig) ts g ∧
      CallsServable (LabelledRun.eventsOf ts) ∧
      BudgetsHold narrowConfig (Demo.gateway narrowConfig) ts := by
  have evaluated : Demo.passes (Demo.gateway narrowConfig) loneFailover
      (fun r => r.2.all fun t => (Gateway.failover Demo.scheduler t.before t.action).all
        fun d => decide (Servable t.before.app d.provider)) = true := by decide +kernel
  obtain ⟨ts, g, run, found⟩ := Demo.exists_run evaluated
  have allowed : ∀ t ∈ ts, ∀ d, Gateway.failover Demo.scheduler t.before t.action = some d →
      Servable t.before.app d.provider := by
    intro t member d next
    have checked := List.all_eq_true.mp found t member
    simpa [next] using checked
  have settled := dispatches_servable_iff _ _ _ _ _ ts g run
  exact ⟨ts, g, run, settled.1.mpr allowed, settled.2 allowed⟩

/-- A request served by `b` alone overlaps with one that fails over from `a` to `b`. -/
def overlappingFailover : List Action :=
  [.begin .execute (Demo.request "m"), .begin .execute (Demo.request "k"),
    .run 0 (Demo.fails 400)]

theorem failover_exceeds_concurrency :
    ∃ ts g, GatewayRun Demo.scheduler (Demo.gateway narrowConfig) ts g ∧
      ¬ CallsServable (LabelledRun.eventsOf ts) ∧
      (narrowConfig "b").rateLimit.maxConcurrency < (g.app.rateLimiter "b").concurrent := by
  have evaluated : Demo.passes (Demo.gateway narrowConfig) overlappingFailover
      (fun r => (LabelledRun.eventsOf r.2).any (·.dispatchedTo
          fun before d => !decide (Servable before d.provider)) &&
        decide ((narrowConfig "b").rateLimit.maxConcurrency <
          (r.1.app.rateLimiter "b").concurrent)) = true := by decide +kernel
  obtain ⟨ts, g, run, found⟩ := Demo.exists_run evaluated
  simp only [Bool.and_eq_true, decide_eq_true_eq] at found
  obtain ⟨before, attempts, d, call, sent, refused⟩ := exists_dispatched found.1
  refine ⟨ts, g, run, ?_, found.2⟩
  intro all
  have servable := all before attempts d call sent
  simp [servable] at refused

end Noxis
