import Noxis.HalfOpenSlots

/-! Calls on trial. A half-open provider counts the trials of its present half-open period
only: a circuit that trips again while trials are out, and half-opens again, starts from
zero. -/
namespace Noxis

/-- The run's call to the provider is out, and was admitted as a half-open trial. -/
def RunState.OnTrial (name : String) (st : RunState) : Prop :=
  ∃ a ∈ st.inCall, a.decision.provider = name ∧ name ∈ a.loop.trials.map Prod.fst

instance (name : String) : DecidablePred (RunState.OnTrial name) :=
  fun _ => inferInstanceAs (Decidable (∃ a ∈ _, _ ∧ _))

theorem RunState.OnTrial.holds {st : RunState} {name : String} (trial : st.OnTrial name) :
    ∃ period, st.Holds name period := by
  obtain ⟨a, out, rfl, member⟩ := trial
  obtain ⟨⟨_, period⟩, taken, rfl⟩ := List.mem_map.mp member
  refine ⟨period, ?_⟩
  cases st with
  | calling b | yielding b =>
      obtain rfl : b = a := by simpa [RunState.inCall] using out
      exact ⟨by simp [RunState.ahead], taken⟩
  | sleeping b wakeAt => simp [RunState.inCall] at out
  | finished e => simp [RunState.inCall] at out

namespace Gateway

def trialCalls (g : Gateway) (name : String) : ℕ := g.runs.countP fun st => st.OnTrial name

def TrialsBounded (sch : Scheduler) (name : String) (g : Gateway) : Prop :=
  (g.app.provider name).circuitState = .halfOpen →
    (g.trialCalls name : ℤ) ≤ sch.breaker.halfOpenMaxCalls

/-- A request begins a new half-open period of the provider while a run still holds a trial
slot of an earlier one. -/
def ForgetsTrial (g : Gateway) (name : String) : Action → Prop
  | .begin _ request =>
      ((g.app.provider name).circuitState = .opened ∧
        (g.app.provider name).cooldownUntil ≤ g.app.now ∧
        name ∈ candidateProvidersForModel g.app.registry request.model ∧
        g.app.Eligible request name) ∧
      ∃ st ∈ g.runs, ∃ period, st.Holds name period
  | _ => False

/-- The trials that are out belong to the present period, which counts them all. -/
structure TrialsCounted (sch : Scheduler) (name : String) (g : Gateway) : Prop where
  present : ∀ st ∈ g.runs, ∀ period, st.Holds name period → period = g.periods name
  counted : g.heldSlots name ≤ (g.app.provider name).halfOpenCallsInFlight
  limited : ((g.app.provider name).halfOpenCallsInFlight : ℤ) ≤ sch.breaker.halfOpenMaxCalls

variable {sch : Scheduler} {g g' : Gateway} {act : Action} {events : List Event} {name : String}

theorem TrialsCounted.trialCalls_le (h : TrialsCounted sch name g) :
    (g.trialCalls name : ℤ) ≤ sch.breaker.halfOpenMaxCalls := by
  have held : g.trialCalls name ≤ g.heldSlots name := by
    refine List.countP_mono_left fun st member trial => ?_
    obtain ⟨period, holds⟩ := (of_decide_eq_true trial).holds
    obtain rfl := h.present st member period holds
    exact decide_eq_true holds
  exact (Int.ofNat_le.mpr (held.trans h.counted)).trans h.limited

/-- A step that changes neither the runs nor the breaker keeps the count. -/
theorem TrialsCounted.of_same {app : AppState} {sweeps : List SweepState}
    (h : TrialsCounted sch name g) (same : SameTrial (g.app.provider name) (app.provider name)) :
    TrialsCounted sch name { g with app, sweeps } := by
  refine ⟨h.present, ?_, ?_⟩
  · rw [same.inFlight]
    exact h.counted
  · rw [same.inFlight]
    exact h.limited

section steps
variable (before : (g.app.provider name).circuitState = .halfOpen → TrialsCounted sch name g)
include before

theorem begin_trialsCounted (valid : 0 ≤ sch.breaker.halfOpenMaxCalls) {path : Path}
    {request : ChatCompletionRequest} {ds : List RoutingDecision} {app app' : AppState}
    {l : LoopState} {st : RunState} (admission : sch.Admission g.app request ds app)
    (taken : l.trials = trialsOf app (nextPeriods g.app app g.periods) ds)
    (next : sch.Continues app l ds app' st events)
    (keeps : ¬ g.ForgetsTrial name (.begin path request))
    (half : (app'.provider name).circuitState = .halfOpen) :
    TrialsCounted sch name
      { g with app := app', runs := g.runs ++ [st], periods := nextPeriods g.app app g.periods } := by
  have untouched : app'.provider name = app.provider name := by rw [next.provider]
  have holds := continues_holds name next
  have half' : (app.provider name).circuitState = .halfOpen := untouched ▸ half
  have new : ∀ period, st.Holds name period →
      name ∈ ds.map RoutingDecision.provider ∧ period = nextPeriods g.app app g.periods name := by
    intro period held
    have slot := ((holds period).mp held).1.2
    rw [taken, mem_trialsOf half'] at slot
    exact slot
  -- the new run holds at most the slot that was counted for it
  have slot : (if st.Holds name (nextPeriods g.app app g.periods name) then 1 else 0) ≤
      if name ∈ ds.map RoutingDecision.provider then 1 else 0 := by
    split_ifs with held absent
    · exact le_rfl
    · exact absurd (new _ held).1 absent
    · exact Nat.zero_le _
    · exact le_rfl
  have present : (∀ other ∈ g.runs, ∀ period, other.Holds name period →
        period = nextPeriods g.app app g.periods name) →
      ∀ other ∈ g.runs ++ [st], ∀ period, other.Holds name period →
        period = nextPeriods g.app app g.periods name := by
    intro olds other member period held
    rcases List.mem_append.mp member with earlier | latest
    · exact olds other earlier period held
    · obtain rfl := List.mem_singleton.mp latest
      exact (new period held).2
  rcases admission_trials admission half' with
    ⟨wasHalf, same, counted, room⟩ | ⟨begun, -, counted, room⟩
  · have old := before wasHalf
    refine ⟨?_, ?_, ?_⟩
    · exact present fun other earlier period held =>
        (old.present other earlier period held).trans same.symm
    · rw [heldSlots_begin, same, untouched, counted]
      exact Nat.add_le_add old.counted (same ▸ slot)
    · rw [untouched, counted]
      have := old.limited
      split_ifs with member
      · have := room member
        omega
      · simpa using old.limited
  · -- a new period begins, and no run holds a slot of an earlier one
    have nobody : ∀ other ∈ g.runs, ∀ period, ¬ other.Holds name period :=
      fun other member period held => keeps ⟨begun, other, member, period, held⟩
    refine ⟨?_, ?_, ?_⟩
    · exact present fun other earlier period held => absurd held (nobody other earlier period)
    · have none_old : g.runs.countP
          (fun st => st.Holds name (nextPeriods g.app app g.periods name)) = 0 := by
        rw [List.countP_eq_zero]
        intro other member
        simpa using nobody other member _
      rw [heldSlots_begin, none_old, zero_add, untouched, counted]
      exact slot
    · rw [untouched, counted]
      split_ifs with member
      · exact_mod_cast room member
      · exact valid

theorem run_trialsCounted {pre post : List RunState} {st st' : RunState} {act : RunAction}
    {app : AppState} (wf : g.WellFormed) (runs : g.runs = pre ++ st :: post)
    (moved : sch.Resumes g.app st act app st' events)
    (half : (app.provider name).circuitState = .halfOpen) :
    TrialsCounted sch name { g with app, runs := pre ++ st' :: post } := by
  obtain ⟨same, holds⟩ := resumes_slots moved (wf st (by simp [runs])) half
  have old := before (same.circuit ▸ half)
  have kept : ∀ period, st'.Holds name period → st.Holds name period :=
    fun period held => ((holds period).mp held).1
  refine ⟨?_, ?_, by rw [same.inFlight]; exact old.limited⟩
  · intro other member period held
    rcases List.mem_append.mp member with earlier | later
    · exact old.present other (by simp [runs, earlier]) period held
    · rcases List.mem_cons.mp later with rfl | later
      · exact old.present st (by simp [runs]) period (kept period held)
      · exact old.present other (by simp [runs, later]) period held
  · have fewer : heldSlots { g with app, runs := pre ++ st' :: post } name ≤ g.heldSlots name := by
      simp only [heldSlots, runs, List.countP_append, List.countP_cons, decide_eq_true_eq]
      by_cases held : st'.Holds name (g.periods name)
      · simp only [held, kept _ held, if_true, le_refl]
      · simp only [held, if_false]
        omega
    rw [same.inFlight]
    exact fewer.trans old.counted

theorem step_trialsCounted (valid : 0 ≤ sch.breaker.halfOpenMaxCalls) (wf : g.WellFormed)
    (moved : step sch g act = some (g', events)) (keeps : ¬ g.ForgetsTrial name act)
    (half : (g'.app.provider name).circuitState = .halfOpen) : TrialsCounted sch name g' := by
  cases step_steps moved with
  | begin admission fresh taken next =>
      exact begin_trialsCounted before valid admission taken next keeps half
  | run runs moved => exact run_trialsCounted before wf runs moved half
  | sweep found swept =>
      have change := sweepStep_onlyHealth swept
      exact (before (change.circuit name ▸ half)).of_same ⟨change.circuit name, change.inFlight name⟩
  | beginSweep change next =>
      exact (before (change.circuit name ▸ half)).of_same ⟨change.circuit name, change.inFlight name⟩
  | elapse => exact (before half).of_same ⟨rfl, rfl⟩
  | @setEnabled other e =>
      have same : SameTrial (g.app.provider name)
          ((g.app.registry.setEnabled other e).2.provider name) := by
        rw [ProviderRegistry.setEnabled_provider]
        exact ⟨rfl, rfl⟩
      exact (before (same.circuit ▸ half)).of_same same

end steps
end Gateway

/-- In every state of a run at most `half_open_max_calls` trials are out to a half-open
provider, if no half-open period of it begins while a trial slot of an earlier one is held. -/
theorem trials_bounded (sch : Scheduler) (valid : 0 ≤ sch.breaker.halfOpenMaxCalls) (now : ℚ)
    (names : List String) (nodup : names.Nodup) (config : String → ProviderConfig)
    (name : String) (ts : List GatewayTransition) (g : Gateway)
    (run : GatewayRun sch (.boot now names nodup config) ts g)
    (keeps : ∀ t ∈ ts, ¬ t.before.ForgetsTrial name t.action) :
    ∀ v, LabelledRun.Visits (.boot now names nodup config) ts v → v.TrialsBounded sch name := by
  intro v visited half
  obtain ⟨past, later, eq, partial_run⟩ := run.prefix_of_visits visited
  refine (partial_run.invariant_under (fun _ t => ¬ t.before.ForgetsTrial name t.action)
    (fun _ (g : Gateway) => (g.app.provider name).circuitState = .halfOpen →
      g.TrialsCounted sch name) ?_ ?_ ?_ half).trialCalls_le
  · intro closed
    exact absurd closed (by simp [Gateway.boot, AppState.provider, Provider.fresh])
  · intro past t before counted valid' kept
    have wf := Gateway.run_wellFormed (Gateway.boot_wellFormed now names nodup config) before
    exact Gateway.step_trialsCounted counted valid wf valid' kept
  · exact fun earlier t between split => keeps t (by simp [eq, split])

/-- `a` alone serves the model `m`. -/
def separateConfig (name : String) : ProviderConfig :=
  Demo.config [.str (if name = "a" then "m" else "k")] 10

/-- A monitor sweep over `a` and `b` that finds both reachable. -/
def healthySweep (j : ℕ) : List Action :=
  [.beginSweep .monitor, .sweep j (.answered (.status 200)), .sweep j (.answered (.status 200))]

/-- The circuit of `a` opens, and after the cooldown one trial is sent. -/
def oneTrial : List Action :=
  [.begin .execute (Demo.request "m"), .begin .execute (Demo.request "m"), .run 1 (Demo.fails 503),
    .elapse 35, .run 1 .wake] ++ healthySweep 0 ++ [.begin .execute (Demo.request "m")]

/-- While the trial is out, the first call fails as well, and after another cooldown a
second trial is sent. -/
def twoTrials : List Action :=
  oneTrial ++ [.run 0 (Demo.fails 503), .elapse 35] ++ healthySweep 1 ++
    [.begin .execute (Demo.request "m")]

theorem trials_bounded_one_trial :
    ∃ ts g, GatewayRun Demo.scheduler (Demo.gateway separateConfig) ts g ∧
      g.trialCalls "a" = 1 ∧
      ∀ v, LabelledRun.Visits (Demo.gateway separateConfig) ts v →
        v.TrialsBounded Demo.scheduler "a" := by
  have evaluated : Demo.passes (Demo.gateway separateConfig) oneTrial
      (fun r => decide (r.1.trialCalls "a" = 1) && r.2.all fun t =>
        decide ((t.before.app.provider "a").circuitState = .opened →
          ∀ st ∈ t.before.runs, st.trials = [])) = true := by decide +kernel
  obtain ⟨ts, g, run, found⟩ := Demo.exists_run evaluated
  rw [Bool.and_eq_true, decide_eq_true_eq] at found
  refine ⟨ts, g, run, found.1, trials_bounded _ (by decide) _ _ _ _ "a" ts g run ?_⟩
  intro t member forgets
  have none_held := of_decide_eq_true (List.all_eq_true.mp found.2 t member)
  unfold Gateway.ForgetsTrial at forgets
  split at forgets
  · obtain ⟨⟨opened, -⟩, st, inRuns, period, -, slot⟩ := forgets
    rw [none_held opened st inRuns] at slot
    exact List.not_mem_nil slot
  · exact forgets

theorem two_trials_at_once :
    ∃ ts g, GatewayRun Demo.scheduler (Demo.gateway separateConfig) ts g ∧
      (g.app.provider "a").circuitState = .halfOpen ∧
      Demo.scheduler.breaker.halfOpenMaxCalls < g.trialCalls "a" := by
  have evaluated : Demo.passes (Demo.gateway separateConfig) twoTrials
      (fun r => decide ((r.1.app.provider "a").circuitState = .halfOpen ∧
        Demo.scheduler.breaker.halfOpenMaxCalls < r.1.trialCalls "a")) = true := by decide +kernel
  obtain ⟨ts, g, run, found⟩ := Demo.exists_run evaluated
  exact ⟨ts, g, run, of_decide_eq_true found⟩

end Noxis
