import Noxis.Resumption

/-! Where calls are dispatched. The first attempt of a run follows its ranking without an
await; every later one is a failover attempt, which starts from whatever state the other
tasks have left. -/
namespace Noxis

/-- The parts of the state that decide about one provider are the same. -/
structure AgreesOn (name : String) (s s' : AppState) : Prop where
  now : s'.now = s.now
  window : s'.rateLimiter name = s.rateLimiter name
  provider : s'.provider name = s.provider name
  disabled : s'.registry.disabledOverrides = s.registry.disabledOverrides

theorem AgreesOn.refl (name : String) (s : AppState) : AgreesOn name s s := ⟨rfl, rfl, rfl, rfl⟩

theorem AgreesOn.trans {name : String} {s₁ s₂ s₃ : AppState} (h : AgreesOn name s₁ s₂)
    (h' : AgreesOn name s₂ s₃) : AgreesOn name s₁ s₃ :=
  ⟨h'.now.trans h.now, h'.window.trans h.window, h'.provider.trans h.provider,
    h'.disabled.trans h.disabled⟩

theorem agreesOn_release (s : AppState) {name other : String} (h : name ≠ other) :
    AgreesOn name s (s.release other) :=
  ⟨rfl, by simp [AppState.release, RateLimiter.release, h], rfl, rfl⟩

theorem agreesOn_onProvider (s : AppState) {name other : String} (f : Provider → Provider)
    (h : name ≠ other) : AgreesOn name s (s.onProvider other f) :=
  ⟨rfl, rfl, s.onProvider_provider_other f h, rfl⟩

theorem agreesOn_limiterFailure (s : AppState) {name other : String} (e : ProviderAPIError)
    (h : name ≠ other) : AgreesOn name s (s.limiterFailure other e) := by
  refine ⟨rfl, ?_, rfl, rfl⟩
  unfold AppState.limiterFailure RateLimiter.recordFailure RateLimiter.record429
  dsimp only
  split_ifs <;> simp [h]

theorem agreesOn_afterTerminal (sch : Scheduler) (s : AppState) {name other : String}
    (e : ProviderAPIError) (h : name ≠ other) :
    AgreesOn name s (sch.afterTerminal s other e) :=
  (((agreesOn_limiterFailure s e h).trans (agreesOn_onProvider _ _ h)).trans
    (agreesOn_onProvider _ _ h)).trans (agreesOn_release _ h)

/-- An attempt never meets its own provider again among the decisions ahead. -/
def Attempt.Distinct (a : Attempt) : Prop :=
  ((a.decision :: a.rest).map RoutingDecision.provider).Nodup

theorem Attempt.Distinct.ahead_ne {a : Attempt} (h : a.Distinct) {name : String}
    (ahead : name ∈ a.rest.map RoutingDecision.provider) : name ≠ a.decision.provider := by
  rintro rfl
  rw [Attempt.Distinct, List.map_cons, List.nodup_cons] at h
  exact h.1 ahead

theorem Attempt.Distinct.head_ne {a : Attempt} (h : a.Distinct) {d : RoutingDecision}
    (next : a.rest.head? = some d) : d.provider ≠ a.decision.provider :=
  h.ahead_ne (List.mem_map_of_mem (List.mem_of_mem_head? next))

/-- A dispatch that meets a test on the state before it and the decision. -/
def Event.dispatchedTo (test : AppState → RoutingDecision → Bool) : Event → Bool
  | .dispatched before _ d _ => test before d
  | _ => false

theorem exists_dispatched {events : List Event} {test : AppState → RoutingDecision → Bool}
    (found : events.any (·.dispatchedTo test) = true) :
    ∃ before attempts d call, .dispatched before attempts d call ∈ events ∧ test before d = true := by
  obtain ⟨event, member, passed⟩ := List.any_eq_true.mp found
  cases event with
  | dispatched before attempts d call => exact ⟨before, attempts, d, call, member, passed⟩
  | _ => simp [Event.dispatchedTo] at passed

namespace Gateway

variable (sch : Scheduler)

def WellFormed (g : Gateway) : Prop :=
  ∀ st ∈ g.runs, ∀ a, st.attempt = some a → a.Distinct

/-- The decision that a step in this state would fail over to, where it is one. -/
def failover (g : Gateway) : Action → Option RoutingDecision
  | .run i (.callEnded (.apiError e) _) =>
      match g.runs[i]? with
      | some (.calling a) =>
          if a.loop.path = .execute ∧ e.retryable = false ∧
            ((a.loop.attempts + 1 : ℕ) : ℤ) < sch.maxRetries then a.rest.head? else none
      | _ => none
  | .run i .wake =>
      match g.runs[i]? with
      | some (.sleeping a wakeAt) =>
          if wakeAt ≤ g.app.now ∧ (a.loop.attempts : ℤ) < sch.maxRetries then a.rest.head?
          else none
      | _ => none
  | _ => none

def endedCall (g : Gateway) : Action → Option (Attempt × CallOutcome)
  | .run i (.callEnded o _) =>
      match g.runs[i]? with
      | some (.calling a) => some (a, o)
      | _ => none
  | _ => none

def answeredProbe (g : Gateway) : Action → Option (String × ℕ)
  | .sweep j (.answered (.status code)) =>
      match g.sweeps[j]? with
      | some (.checking _ name _) => some (name, code)
      | _ => none
  | _ => none

variable {sch}

theorem boot_wellFormed (now : ℚ) (names : List String) (nodup : names.Nodup)
    (config : String → ProviderConfig) : (boot now names nodup config).WellFormed := by
  simp [WellFormed, boot]

/-- The attempt a loop head starts is again a list of distinct providers. -/
theorem continues_distinct {s s' : AppState} {l : LoopState} {rest : List RoutingDecision}
    {st : RunState} {events : List Event} (next : sch.Continues s l rest s' st events)
    (distinct : (rest.map RoutingDecision.provider).Nodup) {a : Attempt}
    (live : st.attempt = some a) : a.Distinct := by
  cases next with
  | stop => simp [RunState.attempt] at live
  | dispatch =>
      obtain rfl := Option.some.inj live
      exact distinct

theorem resumes_distinct {s s' : AppState} {st st' : RunState} {act : RunAction}
    {events : List Event} (moved : sch.Resumes s st act s' st' events)
    (before : ∀ a, st.attempt = some a → a.Distinct) {a : Attempt}
    (live : st'.attempt = some a) : a.Distinct := by
  cases moved with
  | @emit b chunk stream => obtain rfl := Option.some.inj live; exact before b rfl
  | pull => obtain rfl := Option.some.inj live; exact before _ rfl
  | success => simp [RunState.attempt] at live
  | otherError => simp [RunState.attempt] at live
  | terminal path final next => exact continues_distinct next (before _ rfl).of_cons live
  | raised => simp [RunState.attempt] at live
  | overflow => simp [RunState.attempt] at live
  | @backoff b e u delay retryable early delayed => obtain rfl := Option.some.inj live; exact before b rfl
  | wake due next => exact continues_distinct next (before _ rfl).of_cons live
  | cancel => simp [RunState.attempt] at live

theorem step_wellFormed {g g' : Gateway} {act : Action} {events : List Event}
    (wf : g.WellFormed) (h : step sch g act = some (g', events)) : g'.WellFormed := by
  cases step_steps h with
  | begin admission fresh taken next =>
      intro st member a live
      rcases List.mem_append.mp member with old | new
      · exact wf st old a live
      · obtain rfl := List.mem_singleton.mp new
        exact continues_distinct next admission.distinct live
  | @run pre post st st' act app events runs moved =>
      have before : ∀ s ∈ pre ++ st :: post, ∀ a, s.attempt = some a → a.Distinct := by
        rw [← runs]
        exact wf
      intro s member a live
      rcases List.mem_append.mp member with old | new
      · exact before s (List.mem_append_left _ old) a live
      · rcases List.mem_cons.mp new with rfl | old
        · exact resumes_distinct moved (before st (by simp)) live
        · exact before s (by simp [old]) a live
  | elapse => exact wf
  | beginSweep => exact wf
  | sweep => exact wf
  | setEnabled => exact wf

theorem run_wellFormed {g₀ g : Gateway} {ts : List GatewayTransition} (wf : g₀.WellFormed)
    (run : GatewayRun sch g₀ ts g) : g.WellFormed :=
  run.invariant (fun _ g => g.WellFormed) wf fun _ _ _ before valid => step_wellFormed before valid

/-- The only call a loop head can send is to the first decision ahead, from its own state. -/
theorem continues_dispatched {s s' before : AppState} {l : LoopState}
    {rest : List RoutingDecision} {st : RunState} {events : List Event}
    (next : sch.Continues s l rest s' st events) {k : ℕ} {d : RoutingDecision}
    {call : ChatCompletionRequest} (sent : .dispatched before k d call ∈ events) :
    before = s ∧ k = l.attempts ∧ rest.head? = some d ∧ (l.attempts : ℤ) < sch.maxRetries := by
  cases next with
  | stop => simp at sent
  | dispatch room =>
      simp only [List.mem_singleton, Event.dispatched.injEq] at sent
      obtain ⟨rfl, rfl, rfl, -⟩ := sent
      exact ⟨rfl, rfl, rfl, room⟩

theorem continues_sends {s s' : AppState} {l : LoopState} {rest : List RoutingDecision}
    {st : RunState} {events : List Event} (next : sch.Continues s l rest s' st events)
    {d : RoutingDecision} (head : rest.head? = some d) (room : (l.attempts : ℤ) < sch.maxRetries) :
    .dispatched s l.attempts d (l.request.withModel d.model) ∈ events := by
  cases next with
  | stop spent =>
      rcases spent with rfl | spent
      · simp at head
      · exact absurd room (not_lt.mpr spent)
  | dispatch =>
      obtain rfl := Option.some.inj head
      exact List.mem_singleton.mpr rfl

theorem resumed_getElem {g : Gateway} {pre post : List RunState} {st : RunState}
    (runs : g.runs = pre ++ st :: post) : g.runs[pre.length]? = some st := by
  simp [runs]

/-- Every dispatch of a step is the first attempt of a run that has just been ranked, or
the failover attempt of the step. -/
theorem dispatched_of_step {g g' : Gateway} {act : Action} {events : List Event}
    (wf : g.WellFormed) (h : step sch g act = some (g', events)) {before : AppState} {k : ℕ}
    {d : RoutingDecision} {call : ChatCompletionRequest}
    (sent : .dispatched before k d call ∈ events) :
    (∃ request ds, Scheduler.Admission sch g.app request ds before ∧ d ∈ ds) ∨
      (failover sch g act = some d ∧ AgreesOn d.provider g.app before) := by
  cases step_steps h with
  | @begin path request ds app app' l st events admission fresh taken next =>
      obtain ⟨rfl, -, head, -⟩ := continues_dispatched next sent
      exact .inl ⟨request, ds, admission, List.mem_of_mem_head? head⟩
  | @run pre post st st' act app events runs moved =>
      have found := resumed_getElem runs
      have distinct : ∀ a, st.attempt = some a → a.Distinct := wf st (by simp [runs])
      right
      cases moved with
      | @terminal a e u s' st' new path final next =>
          simp only [List.mem_cons, reduceCtorEq, false_or] at sent
          obtain ⟨rfl, -, head, room⟩ := continues_dispatched next sent
          refine ⟨?_, agreesOn_afterTerminal sch _ e ((distinct a rfl).head_ne head)⟩
          have room' : ((a.loop.attempts + 1 : ℕ) : ℤ) < sch.maxRetries := room
          simp only [failover, found, path, final, room', and_self, if_true]
          exact head
      | @wake a wakeAt s' st' new due next =>
          obtain ⟨rfl, -, head, room⟩ := continues_dispatched next sent
          refine ⟨?_, agreesOn_release _ ((distinct a rfl).head_ne head)⟩
          simp only [failover, found, due, room, and_self, if_true]
          exact head
      | _ => simp at sent
  | sweep found swept =>
      rcases sweepStep_events swept with rfl | ⟨name, code, rfl⟩
      · simp at sent
      · simp at sent
  | _ => simp at sent

/-- A failover attempt is dispatched in a state that agrees with the one before the step. -/
theorem dispatched_of_failover {g g' : Gateway} {act : Action} {events : List Event}
    (wf : g.WellFormed) (h : step sch g act = some (g', events)) {d : RoutingDecision}
    (next : failover sch g act = some d) :
    ∃ before k call, .dispatched before k d call ∈ events ∧ AgreesOn d.provider g.app before := by
  unfold failover at next
  split at next
  · rename_i i e u
    obtain ⟨pre, st, post, app, st', runs, rfl, moved, rfl⟩ := step_run sch h
    rw [resumed_getElem runs] at next
    split at next
    · rename_i a eq
      obtain rfl := Option.some.inj eq
      split_ifs at next with cond
      obtain ⟨path, final, room⟩ := cond
      have apart := (wf (.calling a) (by simp [runs]) a rfl).head_ne next
      cases sch.runStep_resumes moved with
      | terminal _ _ cont =>
          exact ⟨_, _, _, List.mem_cons_of_mem _ (continues_sends cont next room),
            agreesOn_afterTerminal sch _ e apart⟩
      | raised stream => simp [path] at stream
      | backoff retryable => simp [final] at retryable
      | overflow retryable => simp [final] at retryable
    · simp at next
  · rename_i i
    obtain ⟨pre, st, post, app, st', runs, rfl, moved, rfl⟩ := step_run sch h
    rw [resumed_getElem runs] at next
    split at next
    · rename_i a wakeAt eq
      obtain rfl := Option.some.inj eq
      split_ifs at next with cond
      obtain ⟨due, room⟩ := cond
      have apart := (wf (.sleeping a wakeAt) (by simp [runs]) a rfl).head_ne next
      cases sch.runStep_resumes moved with
      | wake _ cont =>
          exact ⟨_, _, _, continues_sends cont next room, agreesOn_release _ apart⟩
    · simp at next
  · simp at next

/-- Along a run, a property of the deciding state holds at every dispatch if and only if it
holds before every failover step, given that ranking and admission establish it. -/
theorem dispatches_iff_failovers {P : AppState → String → Prop}
    (congr : ∀ name s s', AgreesOn name s s' → (P s name ↔ P s' name))
    (first : ∀ s request ds s', Scheduler.Admission sch s request ds s' → ∀ d ∈ ds, P s' d.provider)
    {g₀ g : Gateway} {ts : List GatewayTransition} (wf : g₀.WellFormed)
    (run : GatewayRun sch g₀ ts g) :
    (∀ before k d call, .dispatched before k d call ∈ LabelledRun.eventsOf ts →
        P before d.provider) ↔
      ∀ t ∈ ts, ∀ d, failover sch t.before t.action = some d → P t.before.app d.provider := by
  have steps : ∀ t ∈ ts, t.before.WellFormed ∧ t.Valid (step sch) := by
    intro t member
    obtain ⟨past, later, eq⟩ := List.append_of_mem member
    obtain ⟨before, valid⟩ := run.split eq
    exact ⟨run_wellFormed wf before, valid⟩
  constructor
  · intro all t member d next
    obtain ⟨wf', valid⟩ := steps t member
    obtain ⟨before, k, call, sent, agrees⟩ := dispatched_of_failover wf' valid next
    exact (congr _ _ _ agrees).mpr (all before k d call (List.mem_flatMap.mpr ⟨t, member, sent⟩))
  · intro all before k d call sent
    obtain ⟨t, member, sent⟩ := List.mem_flatMap.mp sent
    obtain ⟨wf', valid⟩ := steps t member
    rcases dispatched_of_step wf' valid sent with ⟨request, ds, admission, inList⟩ | ⟨next, agrees⟩
    · exact first _ _ _ _ admission d inList
    · exact (congr _ _ _ agrees).mp (all t member d next)

end Gateway
end Noxis
