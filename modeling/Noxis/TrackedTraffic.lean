import Noxis.Budgets
import Noxis.Embeddings
import Noxis.WindowRule

/-! All upstream traffic of one provider. The usage windows follow the calls of the two chat
paths exactly, and know nothing of what the embeddings endpoint posts. -/
namespace Noxis

open SlidingWindow

/-! ### The chat paths -/

/-- The window has logged every call sent to its provider, and every 429 it answered with. -/
structure Logged (name : String) (now : ℚ) (events : List Event) (w : ProviderUsageWindow) :
    Prop where
  total : w.totalRequests = (dispatchTimes name events).length
  minute : Keeps 60 now (dispatchTimes name events) w.minuteHits
  sorted : (dispatchTimes name events).Pairwise (· ≤ ·)
  past : ∀ t ∈ dispatchTimes name events, t ≤ now
  cooldowns : ∀ u ∈ cooldownEnds name events, u ≤ w.rateLimitedUntil

section logged
variable {name : String} {now : ℚ} {events : List Event} {w : ProviderUsageWindow}

theorem quiet_of_not_concerns {event : Event} (apart : ¬ event.Concerns name) :
    dispatchTimes name [event] = [] ∧ cooldownEnds name [event] = [] := by
  cases event with
  | dispatched before attempts d call =>
      have other : ¬ d.provider = name := apart
      simp [dispatchTimes, cooldownEnds, other]
  | failed time provider e =>
      have other : ¬ provider = name := apart
      simp [dispatchTimes, cooldownEnds, other]
  | yielded => simp [dispatchTimes, cooldownEnds]
  | probed => simp [dispatchTimes, cooldownEnds]

/-- Events without a call leave it at the cooldowns. -/
theorem Logged.without_call (h : Logged name now events w) {events' : List Event}
    {w' : ProviderUsageWindow} (calls : dispatchTimes name events' = dispatchTimes name events)
    (total : w'.totalRequests = w.totalRequests) (hits : w'.minuteHits = w.minuteHits)
    (cooldowns : ∀ u ∈ cooldownEnds name events', u ≤ w'.rateLimitedUntil) :
    Logged name now events' w' := by
  refine ⟨?_, ?_, ?_, ?_, cooldowns⟩
  · rw [calls, total]
    exact h.total
  · rw [calls, hits]
    exact h.minute
  · rw [calls]
    exact h.sorted
  · rw [calls]
    exact h.past

theorem logged_rule (name : String) : WindowRule name (Logged name) where
  later le h :=
    { h with
      minute := h.minute.later le
      past := fun t member => (h.past t member).trans le }
  other {now events w event} apart h := by
    obtain ⟨no_call, no_answer⟩ := quiet_of_not_concerns apart
    refine h.without_call ?_ rfl rfl ?_
    · rw [dispatchTimes_append, no_call, List.append_nil]
    · rw [cooldownEnds_append, no_answer, List.append_nil]
      exact h.cooldowns
  trim h := { h with minute := h.minute.trim }
  release h := { h with }
  acquire {events w s d} attempts call same h := by
    have calls : dispatchTimes name (events ++ [.dispatched s attempts d call]) =
        dispatchTimes name events ++ [s.now] := by simp [dispatchTimes, same]
    have answers : cooldownEnds name (events ++ [.dispatched s attempts d call]) =
        cooldownEnds name events := by simp [cooldownEnds]
    constructor
    · rw [calls, List.length_append, ← h.total]
      rfl
    · rw [calls]
      exact (h.minute.push s.now).trim
    · rw [calls, List.pairwise_append]
      refine ⟨h.sorted, List.pairwise_singleton _ _, ?_⟩
      intro t member u new
      rw [List.mem_singleton.mp new]
      exact h.past t member
    · rw [calls]
      intro t member
      rcases List.mem_append.mp member with old | new
      · exact h.past t old
      · exact (List.mem_singleton.mp new).le
    · rw [answers]
      exact h.cooldowns
  fail {now events w} e h := by
    have calls : dispatchTimes name (events ++ [.failed now name e]) =
        dispatchTimes name events := by simp [dispatchTimes]
    by_cases limited : e.statusCode = 429
    · have answers : cooldownEnds name (events ++ [.failed now name e]) =
          cooldownEnds name events ++ [now + ProviderUsageWindow.cooldown429 e.retryAfter] := by
        simp [cooldownEnds, limited]
      rw [ProviderUsageWindow.fail, if_pos limited]
      refine h.without_call calls rfl rfl ?_
      rw [answers]
      intro u member
      rcases List.mem_append.mp member with old | new
      · exact (h.cooldowns u old).trans (le_max_left _ _)
      · rw [List.mem_singleton.mp new]
        exact le_max_right _ _
    · have answers : cooldownEnds name (events ++ [.failed now name e]) =
          cooldownEnds name events := by simp [cooldownEnds, limited]
      rw [ProviderUsageWindow.fail, if_neg limited]
      refine h.without_call calls rfl rfl ?_
      rw [answers]
      exact h.cooldowns

/-- The count over the last minute is the number of calls sent in it. -/
theorem Logged.requestsLastMinute (h : Logged name now events w) :
    w.requestsLastMinute now = recent 60 now (dispatchTimes name events) :=
  h.minute.trim_length h.sorted

theorem boot_logged (now : ℚ) (names : List String) (nodup : names.Nodup)
    (config : String → ProviderConfig) (name : String) :
    AtWindow (Logged name) name [] (Gateway.boot now names nodup config).app where
  total := rfl
  minute := .refl _ _ _
  sorted := .nil
  past := by simp [dispatchTimes]
  cooldowns := by simp [cooldownEnds]

end logged

/-- When the event is the first attempt of a request, and it goes to the provider. -/
def Event.firstAttempt (name : String) : Event → Option ℚ
  | .dispatched before 0 d _ => if d.provider = name then some before.now else none
  | _ => none

/-- The second event is no first attempt inside a cooldown that the first one began. -/
def Event.Spares (name : String) (x y : Event) : Prop :=
  ∀ u ∈ cooldownEnds name [x], ∀ time ∈ y.firstAttempt name, u ≤ time

namespace Gateway

variable {sch : Scheduler} {g g' : Gateway} {act : Action} {events : List Event} {name : String}

/-- Who sleeps has failed before. -/
def SleepersFailed (g : Gateway) : Prop :=
  ∀ a wakeAt, .sleeping a wakeAt ∈ g.runs → 0 < a.loop.attempts

theorem continues_not_sleeping {s s' : AppState} {l : LoopState} {rest : List RoutingDecision}
    {st : RunState} (next : sch.Continues s l rest s' st events) (a : Attempt) (wakeAt : ℚ) :
    st ≠ .sleeping a wakeAt := by
  cases next <;> simp

theorem resumes_sleepersFailed {s s' : AppState} {st st' : RunState} {act : RunAction}
    (moved : sch.Resumes s st act s' st' events) {a : Attempt} {wakeAt : ℚ}
    (asleep : st' = .sleeping a wakeAt) : 0 < a.loop.attempts := by
  cases moved with
  | @backoff b e =>
      obtain ⟨rfl, -⟩ := RunState.sleeping.inj asleep
      exact Nat.succ_pos _
  | terminal path final next => exact absurd asleep (continues_not_sleeping next a wakeAt)
  | wake due next => exact absurd asleep (continues_not_sleeping next a wakeAt)
  | _ => cases asleep

theorem step_sleepersFailed (before : g.SleepersFailed)
    (moved : step sch g act = some (g', events)) : g'.SleepersFailed := by
  cases step_steps moved with
  | begin admission fresh taken next =>
      intro a wakeAt member
      rcases List.mem_append.mp member with old | new
      · exact before a wakeAt old
      · exact absurd (List.mem_singleton.mp new).symm (continues_not_sleeping next a wakeAt)
  | @run pre post st st' act app events runs moved =>
      intro a wakeAt member
      rcases List.mem_append.mp member with old | new
      · exact before a wakeAt (by simp [runs, old])
      · rcases List.mem_cons.mp new with here | old
        · exact resumes_sleepersFailed moved here.symm
        · exact before a wakeAt (by simp [runs, old])
  | _ => exact before

theorem continues_later {s s' : AppState} {l : LoopState} {rest : List RoutingDecision}
    {st : RunState} (next : sch.Continues s l rest s' st events) (tried : 0 < l.attempts)
    {event : Event} (member : event ∈ events) : event.firstAttempt name = none := by
  cases next with
  | stop => cases member
  | dispatch =>
      rw [List.mem_singleton.mp member]
      unfold Event.firstAttempt
      split
      · next eq =>
        rw [(Event.dispatched.inj eq).2.1] at tried
        cases tried
      · rfl

/-- A first attempt is the only event of its step, which has just ranked its provider. -/
theorem firstAttempt_of_step (slept : g.SleepersFailed)
    (moved : step sch g act = some (g', events)) {event : Event} (member : event ∈ events)
    {time : ℚ} (first : event.firstAttempt name = some time) :
    events = [event] ∧ ∃ before request ds, sch.Admission g.app request ds before ∧
      before.now = time ∧ Servable before name := by
  cases step_steps moved with
  | @begin path request ds app app' l st events admission fresh taken next =>
      cases next with
      | stop => cases member
      | @dispatch d rest room =>
          obtain rfl := List.mem_singleton.mp member
          rw [fresh] at first ⊢
          simp only [Event.firstAttempt, Option.ite_none_right_eq_some, Option.some.injEq] at first
          obtain ⟨rfl, rfl⟩ := first
          exact ⟨rfl, app, request, d :: rest, admission, rfl,
            servable_of_admission admission List.mem_cons_self⟩
  | @run pre post st st' act app events runs moved =>
      cases moved with
      | @terminal a e u s' st' more path final next =>
          rcases List.mem_cons.mp member with rfl | sent
          · cases first
          · cases (continues_later next (Nat.succ_pos _) sent).symm.trans first
      | @wake a wakeAt s' st' more due next =>
          have tried := slept a wakeAt (by simp [runs])
          cases (continues_later next tried member).symm.trans first
      | _ => simp at member <;> (subst member; cases first)
  | sweep found swept =>
      rcases sweepStep_events swept with rfl | ⟨other, code, rfl⟩
      · cases member
      · obtain rfl := List.mem_singleton.mp member
        cases first
  | _ => cases member

theorem mem_cooldownEnds_of_mem {event : Event} (member : event ∈ events) {u : WithTop ℚ}
    (ends : u ∈ cooldownEnds name [event]) : u ∈ cooldownEnds name events := by
  obtain ⟨before, after, rfl⟩ := List.append_of_mem member
  rw [List.append_cons, cooldownEnds_append, cooldownEnds_append]
  simp [ends]

/-- A servable provider has no cooldown ahead that its window has logged. -/
theorem cooldown_over {s s' : AppState} (trims : RateLimiter.Trimmed s.now s.rateLimiter s'.rateLimiter)
    (logged : AtWindow (Logged name) name events s) (servable : Servable s' name) {u : WithTop ℚ}
    (ends : u ∈ cooldownEnds name events) : u ≤ s'.now := by
  rw [Servable, RateLimiter.canServe_iff] at servable
  have until_le : u ≤ (s'.rateLimiter name).rateLimitedUntil := by
    rcases trims name with same | same <;> rw [same] <;> exact logged.cooldowns u ends
  exact until_le.trans servable.1

/-- Along a run of the two chat paths no first attempt falls into a cooldown. -/
theorem run_spares {start : Gateway} (awake : start.SleepersFailed)
    (fresh : AtWindow (Logged name) name [] start.app) {ts : List GatewayTransition}
    (run : GatewayRun sch start ts g) :
    (LabelledRun.eventsOf ts).Pairwise (Event.Spares name) := by
  have both : g.SleepersFailed ∧ (LabelledRun.eventsOf ts).Pairwise (Event.Spares name) := by
    refine run.invariant (fun past (g : Gateway) => g.SleepersFailed ∧
      (LabelledRun.eventsOf past).Pairwise (Event.Spares name)) ⟨awake, .nil⟩ ?_
    intro past t before ⟨slept, spared⟩ valid
    have logged := (logged_rule name).run fresh before
    refine ⟨step_sleepersFailed slept valid, ?_⟩
    rw [LabelledRun.eventsOf_snoc, List.pairwise_append]
    refine ⟨spared, ?_, ?_⟩
    · -- a first attempt has no company in its step
      rw [List.pairwise_iff_forall_sublist]
      intro x y both u _ time first
      obtain ⟨alone, -⟩ := firstAttempt_of_step slept valid (both.subset (by simp)) first
      have short := both.length_le
      rw [alone] at short
      simp at short
    · intro x old y new u ends time first
      obtain ⟨-, app, request, ds, admission, rfl, servable⟩ :=
        firstAttempt_of_step slept valid new first
      exact cooldown_over admission.trims logged servable (mem_cooldownEnds_of_mem old ends)
  exact both.2

end Gateway

/-! ### All three endpoints -/

def chatEvents (events : List TrafficEvent) : List Event :=
  events.filterMap fun
    | .gateway event => some event
    | _ => none

/-- When completion or embeddings requests were posted to the provider. -/
def postTimes (name : String) (events : List TrafficEvent) : List ℚ :=
  events.filterMap fun
    | .gateway (.dispatched before _ d _) => if d.provider = name then some before.now else none
    | .posted time _ provider _ => if provider = name then some time else none
    | _ => none

/-- The end of the cooldown that an answer of status 429 asks for, on any endpoint. -/
def TrafficEvent.limitEnds (lib : EmbeddingsLibraries) (name : String) :
    TrafficEvent → List (WithTop ℚ)
  | .gateway event => cooldownEnds name [event]
  | .answered time provider (.ok answer) =>
      if provider = name ∧ answer.status = 429 then
        [(time : WithTop ℚ) + ProviderUsageWindow.cooldown429
          (statusError lib.toLibraries answer.status answer.retryAfterHeader
            (answer.text.getD "")).retryAfter]
      else []
  | _ => []

def TrafficEvent.firstAttempt (name : String) : TrafficEvent → Option ℚ
  | .gateway event => event.firstAttempt name
  | .posted time 0 provider _ => if provider = name then some time else none
  | _ => none

def TrafficEvent.Spares (lib : EmbeddingsLibraries) (name : String) (x y : TrafficEvent) : Prop :=
  ∀ u ∈ x.limitEnds lib name, ∀ time ∈ y.firstAttempt name, u ≤ time

/-- The usage window of the provider knows its traffic so far. -/
structure KnowsTraffic (lib : EmbeddingsLibraries) (name : String) (events : List TrafficEvent)
    (s : AppState) : Prop where
  total : (s.rateLimiter name).totalRequests = (postTimes name events).length
  minute : (s.rateLimiter name).requestsLastMinute s.now =
    (postTimes name events).countP fun time => s.now - time ≤ 60
  limited : ∀ event ∈ events, ∀ u ∈ event.limitEnds lib name,
    u ≤ (s.rateLimiter name).rateLimitedUntil

/-- Along the run the window always knows the traffic, and no first attempt falls into a
cooldown that a 429 began. -/
structure TracksTraffic (sch : Scheduler) (lib : EmbeddingsLibraries) (name : String)
    (start : Traffic) (ts : List TrafficTransition) : Prop where
  known : ∀ past later t, ts = past ++ later → TrafficRun sch lib start past t →
    KnowsTraffic lib name (LabelledRun.eventsOf past) t.gateway.app
  spared : (LabelledRun.eventsOf ts).Pairwise (TrafficEvent.Spares lib name)

/-- The event is no embeddings traffic of the provider. -/
def TrafficEvent.Apart (name : String) : TrafficEvent → Prop
  | .posted _ _ provider _ => provider ≠ name
  | .answered _ provider _ => provider ≠ name
  | .gateway _ => True

section apart
variable {lib : EmbeddingsLibraries} {name : String} {events : List TrafficEvent}

theorem postTimes_cons (event : TrafficEvent) (events : List TrafficEvent) :
    postTimes name (event :: events) = postTimes name [event] ++ postTimes name events :=
  List.filterMap_append (l := [event])

theorem chatEvents_cons (event : TrafficEvent) (events : List TrafficEvent) :
    chatEvents (event :: events) = chatEvents [event] ++ chatEvents events :=
  List.filterMap_append (l := [event])

/-- What one event adds to the times of the posts. -/
theorem postTimes_one (event : TrafficEvent) :
    (postTimes name [event]).length = (dispatchTimes name (chatEvents [event])).length +
      if (match event with
        | .posted _ _ provider _ => decide (provider = name)
        | _ => false) = true then 1 else 0 := by
  rcases event with (⟨before, attempts, d, call⟩ | _ | _ | _) | ⟨time, tried, provider, post⟩ | _
  case gateway.dispatched => rfl
  case posted =>
    by_cases same : provider = name <;> simp [postTimes, chatEvents, dispatchTimes, same]
  all_goals rfl

theorem postTimes_length (events : List TrafficEvent) :
    (postTimes name events).length = (dispatchTimes name (chatEvents events)).length +
      events.countP fun
        | .posted _ _ provider _ => provider = name
        | _ => false := by
  induction events with
  | nil => rfl
  | cons event rest ih =>
      rw [postTimes_cons, chatEvents_cons, List.length_append, postTimes_one, ih, List.countP_cons,
        dispatchTimes_append, List.length_append]
      omega

theorem postTimes_apart (apart : ∀ event ∈ events, event.Apart name) :
    postTimes name events = dispatchTimes name (chatEvents events) := by
  rw [postTimes, dispatchTimes, chatEvents, List.filterMap_filterMap]
  refine List.filterMap_congr fun event member => ?_
  have := apart event member
  rcases event with (_ | _ | _ | _) | ⟨time, tried, provider, post⟩ | _
  case posted => simpa [TrafficEvent.Apart] using this
  all_goals rfl

/-- Traffic apart from a provider is a chat event, or gives it no cooldown and is no first
attempt on it. -/
theorem gateway_or_quiet (lib : EmbeddingsLibraries) {event : TrafficEvent}
    (apart : event.Apart name) : (∃ chat, event = .gateway chat) ∨
      event.limitEnds lib name = [] ∧ event.firstAttempt name = none := by
  rcases event with chat | ⟨time, tried, provider, post⟩ | ⟨time, provider, answer⟩
  · exact .inl ⟨chat, rfl⟩
  · have ne : ¬ provider = name := apart
    refine .inr ⟨rfl, ?_⟩
    cases tried with
    | zero => exact if_neg ne
    | succ n => rfl
  · have ne : ¬ provider = name := apart
    refine .inr ⟨?_, rfl⟩
    cases answer with
    | error text => rfl
    | ok answer => exact if_neg fun both => ne both.1

end apart

namespace Traffic

variable {sch : Scheduler} {lib : EmbeddingsLibraries} {t t' start : Traffic} {act : TrafficAction}
  {events : List TrafficEvent} {name : String}

/-- No embeddings request waits for an answer of the provider. -/
def AwayFrom (name : String) (t : Traffic) : Prop :=
  ∀ request tried provider rest, .posting request tried provider rest ∈ t.embeddings →
    provider ≠ name

/-- A step posts to the provider exactly if `postsTo` says so. -/
theorem posted_iff (moved : Moves sch lib t act t' events) :
    (∃ time tried post, .posted time tried name post ∈ events) ↔ t.postsTo lib act = some name := by
  cases moved with
  | gateway moved => simp [postsTo]
  | refused nobody => simp [postsTo, nobody]
  | post found => simp [postsTo, found, eq_comm]
  | ends found stops =>
      rcases stops with ⟨data, read⟩ | rfl
      · simp [postsTo, found, read]
      · simp only [postsTo, found, List.head?_nil]
        split <;> simp
  | next found failed => simp [postsTo, found, failed, eq_comm]
  | cancel found => simp [postsTo]

theorem awayFrom_set {i : ℕ} {st : EmbeddingsState} (away : t.AwayFrom name)
    (new : ∀ request tried provider rest, st = .posting request tried provider rest →
      provider ≠ name) :
    { t with embeddings := t.embeddings.set i st }.AwayFrom name := by
  intro request tried provider rest member
  rcases List.mem_or_eq_of_mem_set member with old | here
  · exact away request tried provider rest old
  · exact new request tried provider rest here.symm

/-- While no step posts to the provider, the embeddings traffic stays apart from it. -/
theorem moves_apart (away : t.AwayFrom name) (moved : Moves sch lib t act t' events)
    (elsewhere : t.postsTo lib act ≠ some name) :
    t'.AwayFrom name ∧ ∀ event ∈ events, event.Apart name := by
  have waits : ∀ {i : ℕ} {request : EmbeddingsRequest} {tried : ℕ} {provider : String}
      {rest : List String}, t.embeddings[i]? = some (.posting request tried provider rest) →
      provider ≠ name := fun found => away _ _ _ _ (List.mem_of_getElem? found)
  cases moved with
  | gateway moved =>
      refine ⟨away, fun event member => ?_⟩
      obtain ⟨chat, -, rfl⟩ := List.mem_map.mp member
      exact True.intro
  | refused nobody =>
      refine ⟨fun request tried provider rest member => ?_, by simp⟩
      rcases List.mem_append.mp member with old | new
      · exact away request tried provider rest old
      · simp at new
  | @post request provider rest post found =>
      have apart : provider ≠ name := by simpa [postsTo, found] using elsewhere
      refine ⟨fun request' tried other rest' member => ?_, ?_⟩
      · rcases List.mem_append.mp member with old | new
        · exact away request' tried other rest' old
        · obtain ⟨-, -, rfl, -⟩ := EmbeddingsState.posting.inj (List.mem_singleton.mp new)
          exact apart
      · intro event member
        rw [List.mem_singleton.mp member]
        exact apart
  | ends found stops =>
      refine ⟨awayFrom_set away (by simp), fun event member => ?_⟩
      rw [List.mem_singleton.mp member]
      exact waits found
  | @next i embdId answer request tried provider following rest post text found failed =>
      have apart : following ≠ name := by simpa [postsTo, found, failed] using elsewhere
      refine ⟨awayFrom_set away ?_, fun event member => ?_⟩
      · intro request' tried' other rest' same
        obtain ⟨-, -, rfl, -⟩ := EmbeddingsState.posting.inj same
        exact apart
      · rcases List.mem_cons.mp member with rfl | last
        · exact waits found
        · rw [List.mem_singleton.mp last]
          exact apart
  | cancel found => exact ⟨awayFrom_set away (by simp), by simp⟩

theorem run_apart {ts : List TrafficTransition} (run : TrafficRun sch lib start ts t)
    (idle : start.embeddings = [])
    (elsewhere : ∀ tr ∈ ts, tr.before.postsTo lib tr.action ≠ some name) :
    ∀ event ∈ LabelledRun.eventsOf ts, event.Apart name := by
  have both := run.invariant_under (fun _ tr => tr.before.postsTo lib tr.action ≠ some name)
    (fun past t => t.AwayFrom name ∧ ∀ event ∈ LabelledRun.eventsOf past, event.Apart name)
    ⟨by simp [AwayFrom, idle], by simp⟩
    (by
      intro past tr _ ⟨away, apart⟩ valid posts
      obtain ⟨away', apart'⟩ := moves_apart away (step_moves sch lib valid) posts
      refine ⟨away', fun event member => ?_⟩
      rw [LabelledRun.eventsOf_snoc] at member
      rcases List.mem_append.mp member with old | new
      · exact apart event old
      · exact apart' event new)
    fun earlier tr between split => elsewhere tr (by simp [split])
  exact both.2

/-- The gateway within the traffic makes a run of its own. -/
theorem gateway_run {ts : List TrafficTransition} (run : TrafficRun sch lib start ts t) :
    ∃ us, GatewayRun sch start.gateway us t.gateway ∧
      LabelledRun.eventsOf us = chatEvents (LabelledRun.eventsOf ts) := by
  refine run.invariant (fun past (t : Traffic) => ∃ us, GatewayRun sch start.gateway us t.gateway ∧
    LabelledRun.eventsOf us = chatEvents (LabelledRun.eventsOf past)) ⟨[], .nil, rfl⟩ ?_
  intro past tr _ ⟨us, inner, same⟩ valid
  have kept : tr.after.gateway = tr.before.gateway → chatEvents tr.events = [] →
      ∃ us, GatewayRun sch start.gateway us tr.after.gateway ∧
        LabelledRun.eventsOf us = chatEvents (LabelledRun.eventsOf (past ++ [tr])) := by
    intro gateway none_chat
    refine ⟨us, gateway ▸ inner, ?_⟩
    rw [LabelledRun.eventsOf_snoc, chatEvents, List.filterMap_append, same]
    exact (List.append_nil _).symm.trans (congrArg _ none_chat.symm)
  obtain ⟨before, action, events, after⟩ := tr
  have stepped : Moves sch lib before action after events := step_moves sch lib valid
  cases stepped with
  | @gateway act gateway evs moved =>
      let last : GatewayTransition := ⟨before.gateway, act, evs, gateway⟩
      have longer : GatewayRun sch start.gateway (us ++ [last]) gateway :=
        .snoc (t := last) inner moved
      refine ⟨us ++ [last], longer, ?_⟩
      rw [LabelledRun.eventsOf_snoc, LabelledRun.eventsOf_snoc, chatEvents,
        List.filterMap_append, same, List.filterMap_map]
      congr 1
      exact (List.filterMap_some).symm
  | refused => exact kept rfl rfl
  | post => exact kept rfl rfl
  | ends => exact kept rfl rfl
  | next => exact kept rfl rfl
  | cancel => exact kept rfl rfl

/-- The windows log the chat traffic, whatever the embeddings requests do. -/
theorem run_logged {ts : List TrafficTransition} (run : TrafficRun sch lib start ts t)
    (fresh : AtWindow (Logged name) name [] start.gateway.app) :
    AtWindow (Logged name) name (chatEvents (LabelledRun.eventsOf ts)) t.gateway.app := by
  obtain ⟨us, inner, same⟩ := gateway_run run
  rw [← same]
  exact (logged_rule name).run fresh inner

theorem knowsTraffic_of_apart (apart : ∀ event ∈ events, event.Apart name) {s : AppState}
    (logged : AtWindow (Logged name) name (chatEvents events) s) : KnowsTraffic lib name events s := by
  have times := postTimes_apart apart
  refine ⟨?_, ?_, ?_⟩
  · rw [times]
    exact logged.total
  · rw [times]
    exact logged.requestsLastMinute
  · intro event member u ends
    rcases gateway_or_quiet lib (apart event member) with ⟨chat, rfl⟩ | ⟨quiet, -⟩
    · refine logged.cooldowns u (Gateway.mem_cooldownEnds_of_mem ?_ ends)
      exact List.mem_filterMap.mpr ⟨_, member, rfl⟩
    · rw [quiet] at ends
      cases ends

theorem spares_of_apart (apart : ∀ event ∈ events, event.Apart name)
    (spared : (chatEvents events).Pairwise (Event.Spares name)) :
    events.Pairwise (TrafficEvent.Spares lib name) := by
  rw [chatEvents, List.pairwise_filterMap] at spared
  refine List.Pairwise.imp_of_mem ?_ spared
  intro x y memberX memberY chat u ends time first
  rcases gateway_or_quiet lib (apart x memberX) with ⟨x, rfl⟩ | ⟨quiet, -⟩
  · rcases gateway_or_quiet lib (apart y memberY) with ⟨y, rfl⟩ | ⟨-, quiet⟩
    · exact chat x rfl y rfl u ends time first
    · rw [quiet] at first
      cases first
  · rw [quiet] at ends
    cases ends

end Traffic

/-- The window of a provider follows all its traffic, and its cooldowns bind all first
attempts, if and only if no step of the run posts an embeddings request to it. -/
theorem traffic_tracked_iff (sch : Scheduler) (lib : EmbeddingsLibraries) (now : ℚ)
    (names : List String) (nodup : names.Nodup) (config : String → ProviderConfig)
    (ts : List TrafficTransition) (t : Traffic)
    (run : TrafficRun sch lib { gateway := .boot now names nodup config } ts t) (name : String) :
    TracksTraffic sch lib name { gateway := .boot now names nodup config } ts ↔
      ∀ tr ∈ ts, tr.before.postsTo lib tr.action ≠ some name := by
  have fresh := boot_logged now names nodup config name
  constructor
  · intro tracks tr member posts
    obtain ⟨past, later, split⟩ := List.append_of_mem member
    obtain ⟨before, valid⟩ := run.split split
    have after : TrafficRun sch lib _ (past ++ [tr]) tr.after := .snoc before valid
    have known := tracks.known (past ++ [tr]) later tr.after (by simp [split]) after
    -- the window counts the chat calls only, and one post has gone by uncounted
    have counted := (Traffic.run_logged after fresh).total
    obtain ⟨time, tried, post, sent⟩ :=
      (Traffic.posted_iff (Traffic.step_moves sch lib valid)).mpr posts
    have missed : 0 < (LabelledRun.eventsOf (past ++ [tr])).countP fun
        | .posted _ _ provider _ => provider = name
        | _ => false := by
      refine List.countP_pos_iff.mpr ⟨.posted time tried name post, ?_, by simp⟩
      rw [LabelledRun.eventsOf_snoc]
      exact List.mem_append_right _ sent
    have total := known.total
    rw [postTimes_length, counted] at total
    omega
  · intro elsewhere
    refine ⟨fun past later v split partial_run => ?_, ?_⟩
    · have apart := Traffic.run_apart partial_run rfl fun tr member =>
        elsewhere tr (by simp [split, member])
      exact Traffic.knowsTraffic_of_apart apart (Traffic.run_logged partial_run fresh)
    · have apart := Traffic.run_apart run rfl elsewhere
      obtain ⟨us, inner, same⟩ := Traffic.gateway_run run
      refine Traffic.spares_of_apart apart ?_
      rw [← same]
      exact Gateway.run_spares (by simp [Gateway.SleepersFailed, Gateway.boot]) fresh inner

namespace Demo

def embeddingsLibraries : EmbeddingsLibraries :=
  { libraries with
    textError := fun _ => "", jsonError := fun _ => "", noSetdefault := fun _ => "" }

/-- `a` serves the model `m` only, `b` also the embedding model `e`. -/
def embeddingConfig (name : String) : ProviderConfig :=
  if name = "a" then config ["m"] 10 else config ["m", "e"] 10

def traffic : Traffic := { gateway := gateway embeddingConfig }

def embed : TrafficAction := .beginEmbeddings { model := "e", input := .inl "text" }

def trafficPasses (actions : List TrafficAction)
    (check : Traffic × List TrafficTransition → Bool) : Bool :=
  (LabelledRun.exec (Traffic.step scheduler embeddingsLibraries) traffic actions).any check

theorem exists_traffic {actions : List TrafficAction}
    {check : Traffic × List TrafficTransition → Bool} (ok : trafficPasses actions check = true) :
    ∃ ts t, TrafficRun scheduler embeddingsLibraries traffic ts t ∧ check (t, ts) = true :=
  LabelledRun.run_of_check actions ok

end Demo

/-- A chat request is served by `a`, and an embeddings request goes to `b`. -/
theorem traffic_tracked_iff_chat_on_a :
    ∃ ts t, TrafficRun Demo.scheduler Demo.embeddingsLibraries Demo.traffic ts t ∧
      ts.length = 3 ∧
      TracksTraffic Demo.scheduler Demo.embeddingsLibraries "a" Demo.traffic ts := by
  have evaluated : Demo.trafficPasses
      [.gateway (.begin .execute (Demo.request "m")), Demo.embed,
        .gateway (.run 0 (Demo.succeeds "a"))]
      (fun r => decide (r.2.length = 3 ∧ ∀ tr ∈ r.2,
        tr.before.postsTo Demo.embeddingsLibraries tr.action ≠ some "a")) = true := by
    decide +kernel
  obtain ⟨ts, t, run, found⟩ := Demo.exists_traffic evaluated
  obtain ⟨three, elsewhere⟩ := of_decide_eq_true found
  exact ⟨ts, t, run, three, (traffic_tracked_iff _ _ _ _ _ _ ts t run "a").mpr elsewhere⟩

/-- Two embeddings requests go to `b`, the second one second after a 429, and the window of
`b` counts none of them. -/
theorem embeddings_not_tracked :
    ∃ ts t, TrafficRun Demo.scheduler Demo.embeddingsLibraries Demo.traffic ts t ∧
      (postTimes "b" (LabelledRun.eventsOf ts)).length = 2 ∧
      (t.gateway.app.rateLimiter "b").totalRequests = 0 ∧
      ¬ TracksTraffic Demo.scheduler Demo.embeddingsLibraries "b" Demo.traffic ts := by
  have evaluated : Demo.trafficPasses
      [Demo.embed, .answered 0 "embd-1" (.ok { Demo.page "" with status := 429 }),
        .gateway (.elapse 1), Demo.embed]
      (fun r => decide ((postTimes "b" (LabelledRun.eventsOf r.2)).length = 2 ∧
        (r.1.gateway.app.rateLimiter "b").totalRequests = 0)) = true := by
    decide +kernel
  obtain ⟨ts, t, run, found⟩ := Demo.exists_traffic evaluated
  obtain ⟨two, none_counted⟩ : (postTimes "b" (LabelledRun.eventsOf ts)).length = 2 ∧
      (t.gateway.app.rateLimiter "b").totalRequests = 0 := of_decide_eq_true found
  refine ⟨ts, t, run, two, none_counted, fun tracks => ?_⟩
  have total := (tracks.known ts [] t (by simp) run).total
  omega

end Noxis
