import Noxis.MonitorLoop

/-! What `start` and `stop` make sure of, in every interleaving with the gateway's own steps: one
background task at a time, sweeps that lie the interval apart, and none after a stop. -/
namespace Noxis

namespace Scheduler

variable {sch : Scheduler} {s s' : AppState} {events : List Event}

/-- The clock and the registered names, which no run touches. -/
def Unmoved (s s' : AppState) : Prop :=
  s'.now = s.now ∧ s'.registry.names = s.registry.names

theorem Continues.unmoved {l : LoopState} {rest : List RoutingDecision} {st : RunState}
    (next : sch.Continues s l rest s' st events) : Unmoved s s' := by
  cases next <;> exact ⟨rfl, rfl⟩

theorem Resumes.unmoved {st st' : RunState} {act : RunAction}
    (moved : sch.Resumes s st act s' st' events) : Unmoved s s' := by
  cases moved with
  | terminal path final next => exact next.unmoved
  | wake due next => exact next.unmoved
  | _ => exact ⟨rfl, rfl⟩

end Scheduler

namespace Gateway

variable {sch : Scheduler} {g g' : Gateway} {act : Action} {events : List Event}

theorem step_clock (moved : step sch g act = some (g', events)) : g.app.now ≤ g'.app.now := by
  cases step_steps moved with
  | @elapse dt => exact le_add_of_nonneg_right dt.2
  | begin admission fresh taken next => exact (next.unmoved.1.trans admission.now).ge
  | run runs resumed => exact resumed.unmoved.1.ge
  | beginSweep change => exact change.now.ge
  | sweep found swept => exact (sweepStep_onlyHealth swept).now.ge
  | setEnabled => exact le_rfl

theorem step_names (moved : step sch g act = some (g', events)) :
    g'.app.registry.names = g.app.registry.names := by
  cases step_steps moved with
  | elapse => rfl
  | begin admission fresh taken next => exact next.unmoved.2.trans admission.names
  | run runs resumed => exact resumed.unmoved.2
  | beginSweep change => exact change.names
  | sweep found swept => exact (sweepStep_onlyHealth swept).names
  | setEnabled => exact ProviderRegistry.setEnabled_names _ _ _

/-- A sweep is where it was unless the step is about it. -/
theorem step_sweep_kept {j : ℕ} {sw : SweepState} (moved : step sch g act = some (g', events))
    (found : g.sweeps[j]? = some sw) (other : ∀ a, act ≠ .sweep j a) :
    g'.sweeps[j]? = some sw := by
  have inside := (List.getElem?_eq_some_iff.mp found).1
  cases step_steps moved with
  | beginSweep =>
      dsimp only
      rwa [List.getElem?_append_left inside]
  | @sweep k a old new app seen here swept =>
      have apart : k ≠ j := by
        rintro rfl
        exact other a rfl
      dsimp only
      rwa [List.getElem?_set_ne apart]
  | _ => exact found

end Gateway

/-- The probes that a sweep still has to complete. -/
def SweepState.ahead : SweepState → ℕ
  | .checking _ _ rest => rest.length + 1
  | .finished => 0

def MonitorAction.ofTask : MonitorAction → Bool
  | .begins _ | .answered _ _ | .wakes _ => true
  | _ => false

/-- The task that the action takes to the head of its loop. -/
def MonitorAction.resumesLoop (k : ℕ) : MonitorAction → Bool
  | .begins k' | .wakes k' => decide (k' = k)
  | _ => false

namespace MonitoredGateway

variable {sch : Scheduler} {interval : ℚ} {m m' : MonitoredGateway} {g : Gateway}

/-- The sweep is at a probe. -/
def AtProbe (g : Gateway) (j : ℕ) : Prop :=
  ∃ kind name rest, g.sweeps[j]? = some (.checking kind name rest)

theorem stageAfter_cases (interval : ℚ) (g : Gateway) (j : ℕ) :
    (AtProbe g j ∧ stageAfter interval g j = .checking j) ∨
      stageAfter interval g j = .waiting (g.app.now + interval) := by
  cases found : g.sweeps[j]? with
  | none => exact .inr (by simp [stageAfter, found])
  | some sw =>
      cases sw with
      | checking kind name rest =>
          exact .inl ⟨⟨kind, name, rest, found⟩, by simp [stageAfter, found]⟩
      | finished => exact .inr (by simp [stageAfter, found])

/-! ### One task at a time -/

/-- Only the task in `_task` is alive, and at most one call of `stop` waits for it. -/
structure Supervised (m : MonitoredGateway) : Prop where
  live : ∀ (k : ℕ) st, m.tasks[k]? = some st → st ≠ .ended → m.task = some k
  known : ∀ k, m.task = some k → k < m.tasks.length
  atProbe : ∀ k j : ℕ, m.tasks[k]? = some (.checking j) → AtProbe m.gateway j
  asked : ∀ i k : ℕ, m.stops[i]? = some (.awaiting k) → m.task = some k ∧ m.stopSet = true
  once : ∀ i i' k k' : ℕ, m.stops[i]? = some (.awaiting k) →
    m.stops[i']? = some (.awaiting k') → i = i'

/-- A call of `stop` finds no other one waiting. -/
def Alone (t : MonitorTransition) : Prop :=
  t.action = .stop → ∀ c ∈ t.before.stops, c = .returned

/-- A call of `start` that finds no task, and creates one. -/
def Starts (t : MonitorTransition) : Prop := t.action = .start ∧ t.before.task = none

/-- The task that is alive goes on to its next await, or ends. -/
theorem Supervised.settle (supervised : m.Supervised) {k : ℕ} {old stage : LoopStage}
    (found : m.tasks[k]? = some old) (alive : old ≠ .ended)
    (probe : ∀ j, stage = .checking j → AtProbe g j) :
    Supervised { m with gateway := g, tasks := m.tasks.set k stage } := by
  have own := supervised.live k old found alive
  refine ⟨fun k' st here live => ?_, fun k' busy => ?_, fun k' j here => ?_, supervised.asked,
    supervised.once⟩
  · rcases LabelledRun.found_set here with ⟨rfl, rfl⟩ | ⟨apart, here⟩
    · exact own
    · exact supervised.live k' st here live
  · dsimp only
    rw [List.length_set]
    exact supervised.known k' busy
  · rcases LabelledRun.found_set here with ⟨rfl, same⟩ | ⟨apart, here⟩
    · exact probe j same.symm
    · have other := supervised.live k' _ here (by simp)
      rw [own] at other
      exact absurd (Option.some.inj other).symm apart

/-- Where the task in `_task` has ended, if there is one, all have. -/
theorem Supervised.all_ended (supervised : m.Supervised)
    (done : ∀ k ∈ m.task, m.tasks[k]? = some .ended) :
    ∀ (k : ℕ) st, m.tasks[k]? = some st → st = .ended := by
  intro k st here
  by_contra live
  rw [done k (supervised.live k st here live)] at here
  exact live (Option.some.inj here).symm

/-- A monitor without a task, and without anybody who waits for one. -/
theorem Supervised.at_rest (none : m.task = none)
    (ended : ∀ (k : ℕ) st, m.tasks[k]? = some st → st = .ended)
    (nobody : ∀ i k : ℕ, m.stops[i]? ≠ some (.awaiting k)) : m.Supervised where
  live k st here live := absurd (ended k st here) live
  known k busy := by
    rw [none] at busy
    cases busy
  atProbe k j here := by cases ended k _ here
  asked i k waits := absurd waits (nobody i k)
  once i _ k _ waits := absurd waits (nobody i k)

theorem AtHead.alive {act : MonitorAction} {k : ℕ} (head : AtHead m act k) :
    ∃ old, m.tasks[k]? = some old ∧ old ≠ .ended := by
  cases head with
  | begins at_start => exact ⟨_, at_start, by simp⟩
  | wakes waits due => exact ⟨_, waits, by simp⟩

/-- A task that waits for a probe after its sweep has gone on is at that probe. -/
theorem atProbe_stageAfter {j j' : ℕ} (same : stageAfter interval g j = .checking j') :
    AtProbe g j' := by
  rcases stageAfter_cases interval g j with ⟨probe, here⟩ | here
  · rw [here] at same
    rwa [← LoopStage.checking.inj same]
  · rw [here] at same
    cases same

/-- Where all tasks have ended, a new one is the only one that has not. -/
theorem last_created {k : ℕ} {st : LoopStage}
    (ended : ∀ (k : ℕ) st, m.tasks[k]? = some st → st = .ended)
    (here : (m.tasks ++ [.created])[k]? = some st) (live : st ≠ .ended) :
    k = m.tasks.length ∧ st = .created := by
  rcases LabelledRun.found_snoc here with old | ⟨last, created⟩
  · exact absurd (ended k st old) live
  · exact ⟨last, created.symm⟩

theorem Supervised.step {act : MonitorAction} {events : List Event} (supervised : m.Supervised)
    (moved : step sch interval m act = some (m', events))
    (alone : act = .stop → ∀ c ∈ m.stops, c = .returned) : m'.Supervised := by
  have nobody_waits : act = .stop → ∀ i k : ℕ, m.stops[i]? ≠ some (.awaiting k) := by
    intro stop i k waits
    cases alone stop _ (List.mem_of_getElem? waits)
  cases step_moves moved with
  | @other inner g events free inner_moved =>
      refine { supervised with atProbe := fun k j here => ?_ }
      obtain ⟨kind, name, rest, found⟩ := supervised.atProbe k j here
      refine ⟨kind, name, rest, Gateway.step_sweep_kept inner_moved found ?_⟩
      rintro a rfl
      exact free (List.mem_of_getElem? here)
  | started idle =>
      have nobody : ∀ i k : ℕ, m.stops[i]? ≠ some (.awaiting k) := by
        intro i k waits
        rw [(supervised.asked i k waits).1] at idle
        cases idle
      have ended := supervised.all_ended (by simp [idle])
      refine ⟨fun k st here live => ?_, fun k busy => ?_, fun k j here => ?_,
        fun i k waits => absurd waits (nobody i k), fun i _ k _ waits => absurd waits (nobody i k)⟩
      · exact congrArg some (last_created ended here live).1.symm
      · rw [← Option.some.inj busy, List.length_append, List.length_singleton]
        exact Nat.lt_succ_self _
      · cases (last_created ended here (by simp)).2
  | running busy => exact supervised
  | stopped done =>
      refine .at_rest rfl (supervised.all_ended done) fun i k waits => ?_
      rcases LabelledRun.found_snoc waits with old | ⟨-, new⟩
      · exact nobody_waits rfl i k old
      · cases new
  | @asked k busy live =>
      refine ⟨supervised.live, supervised.known, supervised.atProbe, fun i k' waits => ?_,
        fun i i' k' k'' waits waits' => ?_⟩
      · rcases LabelledRun.found_snoc waits with old | ⟨-, new⟩
        · exact absurd old (nobody_waits rfl i k')
        · rw [← StopCall.awaiting.inj new]
          exact ⟨busy, rfl⟩
      · rcases LabelledRun.found_snoc waits with old | ⟨last, -⟩
        · exact absurd old (nobody_waits rfl i k')
        · rcases LabelledRun.found_snoc waits' with old' | ⟨last', -⟩
          · exact absurd old' (nobody_waits rfl i' k'')
          · exact last.trans last'.symm
  | @returns i k waits done =>
      have own := (supervised.asked i k waits).1
      refine .at_rest rfl (supervised.all_ended (by simpa [own] using done)) fun i' k' waits' => ?_
      by_cases same : i' = i
      · subst same
        have inside := (List.getElem?_eq_some_iff.mp waits).1
        simp [inside] at waits'
      · rw [List.getElem?_set_ne (Ne.symm same)] at waits'
        exact same (supervised.once i' i k' k waits' waits)
  | ends head stop =>
      obtain ⟨old, found, alive⟩ := head.alive
      exact supervised.settle (g := m.gateway) found alive (by simp)
  | @sweeps act k g events head goes_on begun =>
      obtain ⟨old, found, alive⟩ := head.alive
      exact supervised.settle found alive fun j => atProbe_stageAfter
  | @answered k j answer g events waits inner_moved =>
      exact supervised.settle waits (by simp) fun j' => atProbe_stageAfter

/-! ### Sweeps the interval apart -/

/-- When the step makes the task begin a sweep: it finds `_stop` unset at the head of its loop. -/
def sweepBegun (k : ℕ) (t : MonitorTransition) : Option ℚ :=
  if t.action.resumesLoop k && !t.before.stopSet then some t.before.gateway.app.now else none

/-- The times at which the task began its sweeps. -/
def sweepTimes (k : ℕ) (ts : List MonitorTransition) : List ℚ := ts.filterMap (sweepBegun k)

theorem sweepTimes_snoc (k : ℕ) (ts : List MonitorTransition) (t : MonitorTransition) :
    sweepTimes k (ts ++ [t]) = sweepTimes k ts ++ (sweepBegun k t).toList := by
  cases begun : sweepBegun k t <;> simp [sweepTimes, begun]

theorem AtHead.resumes {act : MonitorAction} {k k' : ℕ} (head : AtHead m act k) :
    act.resumesLoop k' = decide (k' = k) := by
  cases head <;> simp [MonitorAction.resumesLoop, eq_comm]

/-- A task's sweeps so far lie the interval apart, and the next one will. -/
structure Paced (interval : ℚ) (k : ℕ) (times : List ℚ) (m : MonitoredGateway) : Prop where
  apart : times.IsChain fun a b => a + interval ≤ b
  fresh : m.tasks[k]? = none ∨ m.tasks[k]? = some .created → times = []
  begun : ∀ j, m.tasks[k]? = some (.checking j) → ∀ a ∈ times.getLast?, a ≤ m.gateway.app.now
  waits : ∀ d, m.tasks[k]? = some (.waiting d) → ∀ a ∈ times.getLast?, a + interval ≤ d

variable {k : ℕ} {times : List ℚ}

/-- While the task stays where it is, only the clock goes on. -/
theorem Paced.stays (paced : Paced interval k times m) (same : m'.tasks[k]? = m.tasks[k]?)
    (later : m.gateway.app.now ≤ m'.gateway.app.now) : Paced interval k times m' := by
  refine ⟨paced.apart, fun new => ?_, fun j checks a last => ?_, fun d waits => ?_⟩
  · rw [same] at new
    exact paced.fresh new
  · rw [same] at checks
    exact (paced.begun j checks a last).trans later
  · rw [same] at waits
    exact paced.waits d waits

/-- The task after its sweep has gone on, or begun. -/
theorem Paced.settled {j : ℕ} (apart : times.IsChain fun a b => a + interval ≤ b)
    (inside : k < m.tasks.length) (last : ∀ a ∈ times.getLast?, a ≤ g.app.now) :
    Paced interval k times
      { m with gateway := g, tasks := m.tasks.set k (stageAfter interval g j) } := by
  have here : (m.tasks.set k (stageAfter interval g j))[k]? = some (stageAfter interval g j) :=
    List.getElem?_set_self inside
  rcases stageAfter_cases interval g j with ⟨-, stage⟩ | stage
  · rw [stage] at here ⊢
    exact ⟨apart, by simp [here], fun _ _ => last, by simp [here]⟩
  · rw [stage] at here ⊢
    refine ⟨apart, by simp [here], by simp [here], fun d waits a member => ?_⟩
    dsimp only at waits
    rw [here] at waits
    rw [← LoopStage.waiting.inj (Option.some.inj waits)]
    have before := last a member
    linarith

theorem Paced.step {act : MonitorAction} {events : List Event} (paced : Paced interval k times m)
    (moved : step sch interval m act = some (m', events)) :
    Paced interval k (times ++ (sweepBegun k ⟨m, act, events, m'⟩).toList) m' := by
  have idle : (act.resumesLoop k && !m.stopSet) = false →
      times ++ (sweepBegun k ⟨m, act, events, m'⟩).toList = times := by
    intro quiet
    simp [sweepBegun, quiet]
  cases step_moves moved with
  | other free inner =>
      rw [idle rfl]
      exact paced.stays rfl (Gateway.step_clock inner)
  | started none =>
      rw [idle rfl]
      rcases Nat.lt_or_ge k m.tasks.length with inside | beyond
      · exact paced.stays (List.getElem?_append_left inside) le_rfl
      · have empty := paced.fresh (.inl (List.getElem?_eq_none beyond))
        refine ⟨paced.apart, fun _ => empty, ?_, ?_⟩ <;> simp [empty]
  | running | stopped | asked | returns =>
      rw [idle rfl]
      exact paced.stays rfl le_rfl
  | @ends _ k' head stop =>
      rw [idle (by simp [stop])]
      by_cases own : k' = k
      · subst own
        obtain ⟨old, found, alive⟩ := head.alive
        have inside := (List.getElem?_eq_some_iff.mp found).1
        exact ⟨paced.apart, by simp [inside], by simp [inside], by simp [inside]⟩
      · exact paced.stays (List.getElem?_set_ne own) le_rfl
  | @sweeps _ k' g events head goes_on begun =>
      have later := Gateway.step_clock begun
      by_cases own : k' = k
      · subst own
        obtain ⟨old, found, alive⟩ := head.alive
        have inside := (List.getElem?_eq_some_iff.mp found).1
        have here : ∀ m', sweepBegun k' ⟨m, act, events, m'⟩ = some m.gateway.app.now := by
          simp [sweepBegun, head.resumes, goes_on]
        have apart : ∀ a ∈ times.getLast?, a + interval ≤ m.gateway.app.now := by
          intro a last
          cases head with
          | begins at_start =>
              rw [paced.fresh (.inr at_start)] at last
              cases last
          | wakes waits due =>
              have due : _ ≤ m.gateway.app.now := due.resolve_left (by simp [goes_on])
              exact (paced.waits _ waits a last).trans due
        rw [here, Option.toList_some]
        refine Paced.settled ?_ inside ?_
        · exact paced.apart.append (.singleton _) (by simpa using apart)
        · simpa using later
      · rw [idle (by simp [head.resumes, Ne.symm own])]
        exact paced.stays (List.getElem?_set_ne own) later
  | @answered k' j answer g events waits inner =>
      have later := Gateway.step_clock inner
      rw [idle rfl]
      by_cases own : k' = k
      · subst own
        have inside := (List.getElem?_eq_some_iff.mp waits).1
        exact Paced.settled paced.apart inside fun a last =>
          (paced.begun j waits a last).trans later
      · exact paced.stays (List.getElem?_set_ne own) later

theorem sweeps_paced {g : Gateway} {ts : List MonitorTransition}
    (run : MonitorRun sch interval { gateway := g } ts m) (k : ℕ) :
    Paced interval k (sweepTimes k ts) m := by
  refine run.invariant (fun ts m => Paced interval k (sweepTimes k ts) m) ?_ ?_
  · exact ⟨.nil, fun _ => rfl, by simp, by simp⟩
  · intro past t _ paced valid
    rw [sweepTimes_snoc]
    exact paced.step valid

/-! ### The gateway underneath -/

/-- A step of the monitor is one of the gateway, or leaves it alone. -/
theorem Moves.gateway {act : MonitorAction} {events : List Event}
    (moves : Moves sch interval m act m' events) :
    (m'.gateway = m.gateway ∧ events = []) ∨
      ∃ inner, Gateway.step sch m.gateway inner = some (m'.gateway, events) := by
  cases moves with
  | other free moved => exact .inr ⟨_, moved⟩
  | sweeps head goes_on begun => exact .inr ⟨_, begun⟩
  | answered waits moved => exact .inr ⟨_, moved⟩
  | _ => exact .inl ⟨rfl, rfl⟩

theorem gateway_run {start : MonitoredGateway} {ts : List MonitorTransition}
    (run : MonitorRun sch interval start ts m) :
    ∃ us, GatewayRun sch start.gateway us m.gateway ∧
      LabelledRun.eventsOf us = LabelledRun.eventsOf ts := by
  refine run.invariant (fun ts (m : MonitoredGateway) =>
    ∃ us, GatewayRun sch start.gateway us m.gateway ∧
      LabelledRun.eventsOf us = LabelledRun.eventsOf ts) ⟨[], .nil, rfl⟩ ?_
  rintro past t _ ⟨us, before, same⟩ valid
  rw [LabelledRun.eventsOf_snoc, ← same]
  rcases (step_moves valid).gateway with ⟨still, silent⟩ | ⟨inner, moved⟩
  · rw [still, silent, List.append_nil]
    exact ⟨us, before, rfl⟩
  · have next : GatewayRun sch start.gateway (us ++ [⟨_, inner, t.events, _⟩]) t.after.gateway :=
      .snoc before moved
    exact ⟨_, next, LabelledRun.eventsOf_snoc _ _⟩

theorem names_kept {start g : Gateway} {us : List GatewayTransition}
    (run : GatewayRun sch start us g) : g.app.registry.names = start.app.registry.names :=
  run.invariant (fun _ g => g.app.registry.names = start.app.registry.names) rfl
    fun _ _ _ before valid => (Gateway.step_names valid).trans before

theorem ahead_le {start g : Gateway} {us : List GatewayTransition} (idle : start.sweeps = [])
    (run : GatewayRun sch start us g) {j : ℕ} {sw : SweepState} (found : g.sweeps[j]? = some sw) :
    sw.ahead ≤ start.app.registry.names.length := by
  obtain ⟨earlier, first, later, split, -, -, kind, -, stands⟩ := sweeps_stand idle run j sw found
  cases stands with
  | @checking behind rest name names each order =>
      rw [ProviderRegistry.all, names_kept (run.split split).1] at names
      rw [names, List.length_append, List.length_cons, SweepState.ahead]
      omega
  | _ => exact Nat.zero_le _

/-! ### After a stop -/

/-- The steps a task takes at most once `_stop` is set. -/
def stageLeft (g : Gateway) : LoopStage → ℕ
  | .created | .waiting _ => 1
  | .checking j => (g.sweeps[j]?).elim 0 SweepState.ahead + 1
  | .ended => 0

def stepsLeft (m : MonitoredGateway) : ℕ :=
  (m.task.bind fun k => m.tasks[k]?).elim 0 (stageLeft m.gateway)

theorem Supervised.stepsLeft_eq (supervised : m.Supervised) {k : ℕ} {st : LoopStage}
    (found : m.tasks[k]? = some st) (alive : st ≠ .ended) :
    m.stepsLeft = stageLeft m.gateway st := by
  rw [stepsLeft, supervised.live k st found alive, Option.bind_some, found, Option.elim_some]

theorem sweepNext_ahead (kind : SweepKind) (s : AppState) (names : List String) :
    (sweepNext kind s names).2.ahead ≤ names.length := by
  induction names generalizing s with
  | nil => exact le_rfl
  | cons name rest ih =>
      cases kind <;> unfold sweepNext <;> dsimp only <;> split_ifs
      all_goals first | exact (ih _).trans (Nat.le_succ _) | exact le_rfl

theorem left_stageAfter (interval : ℚ) (g : Gateway) (j : ℕ) :
    stageLeft g (stageAfter interval g j) ≤ (g.sweeps[j]?).elim 0 SweepState.ahead + 1 := by
  rcases stageAfter_cases interval g j with ⟨-, stage⟩ | stage
  · rw [stage, stageLeft]
  · rw [stage, stageLeft]
    omega

/-- The steps of others leave a task what it has left. -/
theorem stepsLeft_other {act : Action} {events : List Event} (supervised : m.Supervised)
    (free : ¬ m.Awaits act) (moved : Gateway.step sch m.gateway act = some (g, events)) :
    stepsLeft { m with gateway := g } = m.stepsLeft := by
  unfold stepsLeft
  dsimp only
  cases stage : m.task.bind fun k => m.tasks[k]? with
  | none => rfl
  | some st =>
      obtain ⟨k, -, here⟩ := Option.bind_eq_some_iff.mp stage
      cases st with
      | checking j =>
          obtain ⟨kind, name, rest, found⟩ := supervised.atProbe k j here
          have kept := Gateway.step_sweep_kept moved found fun a same => free <| by
            rw [same]
            exact List.mem_of_getElem? here
          simp only [Option.elim_some, stageLeft, found, kept]
      | _ => rfl

/-- A task goes on: what it has left is what its new stage has. -/
theorem stepsLeft_settled (supervised : m.Supervised) {k : ℕ} {old stage : LoopStage}
    (found : m.tasks[k]? = some old) (alive : old ≠ .ended) :
    stepsLeft { m with gateway := g, tasks := m.tasks.set k stage } = stageLeft g stage := by
  have inside := (List.getElem?_eq_some_iff.mp found).1
  have here : (m.tasks.set k stage)[k]? = some stage := List.getElem?_set_self inside
  rw [stepsLeft]
  dsimp only
  rw [supervised.live k old found alive, Option.bind_some, here, Option.elim_some]

/-- Once `_stop` is set, each step of a task leaves it fewer. -/
theorem stepsLeft_lt {act : MonitorAction} {events : List Event} (supervised : m.Supervised)
    (stop : m.stopSet = true) (own : act.ofTask = true)
    (moved : step sch interval m act = some (m', events)) : m'.stepsLeft < m.stepsLeft := by
  cases step_moves moved with
  | ends head set =>
      obtain ⟨old, found, alive⟩ := head.alive
      have after : stepsLeft { m with tasks := m.tasks.set _ .ended } =
          stageLeft m.gateway .ended := stepsLeft_settled supervised found alive
      rw [after, supervised.stepsLeft_eq found alive]
      cases head with
      | begins at_start =>
          rw [at_start] at found
          rw [← Option.some.inj found]
          exact Nat.zero_lt_one
      | wakes waits due =>
          rw [waits] at found
          rw [← Option.some.inj found]
          exact Nat.zero_lt_one
  | sweeps head goes_on begun =>
      rw [stop] at goes_on
      cases goes_on
  | @answered k j answer g events waits inner =>
      have before := supervised.stepsLeft_eq waits (by simp)
      rw [before, stepsLeft_settled supervised waits (by simp)]
      refine (left_stageAfter interval g j).trans_lt (Nat.succ_lt_succ ?_)
      obtain ⟨kind, name, rest, found⟩ := supervised.atProbe k j waits
      obtain ⟨sw, app, sw', here, swept, rfl⟩ := Gateway.step_sweep sch inner
      rw [found] at here
      obtain rfl := Option.some.inj here
      simp only [sweepStep, Option.some.injEq, Prod.mk.injEq] at swept
      obtain ⟨-, rfl, -⟩ := swept
      have inside := (List.getElem?_eq_some_iff.mp found).1
      dsimp only
      rw [List.getElem?_set_self inside, found, Option.elim_some, Option.elim_some]
      exact Nat.lt_succ_of_le (sweepNext_ahead _ _ _)
  | _ => cases own

/-- No other step but a `start` that creates a task gives a task anything to do. -/
theorem stepsLeft_le {act : MonitorAction} {events : List Event} (supervised : m.Supervised)
    (other : act.ofTask = false) (no_start : act = .start → m.task ≠ none)
    (moved : step sch interval m act = some (m', events)) : m'.stepsLeft ≤ m.stepsLeft := by
  cases step_moves moved with
  | other free inner => exact (stepsLeft_other supervised free inner).le
  | started idle => exact absurd idle (no_start rfl)
  | running => exact le_rfl
  | stopped => exact Nat.zero_le _
  | asked => exact le_rfl
  | returns => exact Nat.zero_le _
  | ends head => cases head <;> cases other
  | sweeps head => cases head <;> cases other
  | answered => cases other

/-- What a call of `stop` has brought about, after steps none of which starts a task. -/
structure Stopping (bound i : ℕ) (later : List MonitorTransition) (m : MonitoredGateway) :
    Prop where
  supervised : m.Supervised
  set : m.stopSet = true
  called : i < m.stops.length
  returned : m.stops[i]? = some .returned → m.task = none
  bounded : later.countP (·.action.ofTask) + m.stepsLeft ≤ bound
  quiet : ∀ k, sweepTimes k later = []

theorem Stopping.called_at {events : List Event} (supervised : m.Supervised)
    (alone : ∀ c ∈ m.stops, c = .returned) (moved : step sch interval m .stop = some (m', events)) :
    Stopping m'.stepsLeft m.stops.length [] m' := by
  have after := supervised.step moved fun _ => alone
  cases step_moves moved with
  | stopped done => exact ⟨after, rfl, by simp, fun _ => rfl, by simp, fun _ => rfl⟩
  | asked busy live => exact ⟨after, rfl, by simp, by simp, by simp, fun _ => rfl⟩
  | ends head => cases head
  | sweeps head => cases head

theorem Stopping.later {bound i : ℕ} {later : List MonitorTransition} {u : MonitorTransition}
    (stopping : Stopping bound i later u.before) (valid : u.Valid (step sch interval))
    (alone : Alone u) (no_start : ¬ Starts u) : Stopping bound i (later ++ [u]) u.after := by
  obtain ⟨supervised, set, called, returned, bounded, quiet⟩ := stopping
  have quiet' : ∀ k, sweepTimes k (later ++ [u]) = [] := by
    intro k
    rw [sweepTimes_snoc, quiet k, sweepBegun, set]
    simp
  have bounded' : (later ++ [u]).countP (·.action.ofTask) + u.after.stepsLeft ≤ bound := by
    rw [List.countP_append, List.countP_singleton]
    cases own : u.action.ofTask with
    | true =>
        have fewer := stepsLeft_lt supervised set own valid
        simp only [if_true]
        omega
    | false =>
        have no_more := stepsLeft_le supervised own (fun start idle => no_start ⟨start, idle⟩) valid
        simp only [Bool.false_eq_true, if_false]
        omega
  have supervised' := supervised.step valid alone
  obtain ⟨m, act, events, m'⟩ := u
  have moves : Moves sch interval m act m' events := step_moves valid
  cases moves with
  | other free inner => exact ⟨supervised', set, called, returned, bounded', quiet'⟩
  | started idle => exact absurd ⟨rfl, idle⟩ no_start
  | running => exact ⟨supervised', set, called, returned, bounded', quiet'⟩
  | stopped =>
      have longer : i < (m.stops ++ [StopCall.returned]).length := by
        rw [List.length_append]
        exact Nat.lt_add_right _ called
      exact ⟨supervised', rfl, longer, fun _ => rfl, bounded', quiet'⟩
  | @asked k busy live =>
      have longer : i < (m.stops ++ [StopCall.awaiting k]).length := by
        rw [List.length_append]
        exact Nat.lt_add_right _ called
      have same : (m.stops ++ [StopCall.awaiting k])[i]? = m.stops[i]? :=
        List.getElem?_append_left called
      exact ⟨supervised', rfl, longer, fun back => returned (same ▸ back), bounded', quiet'⟩
  | returns =>
      exact ⟨supervised', set, by simpa using called, fun _ => rfl, bounded', quiet'⟩
  | ends => exact ⟨supervised', set, called, returned, bounded', quiet'⟩
  | sweeps head goes_on =>
      dsimp only at set
      rw [set] at goes_on
      cases goes_on
  | answered => exact ⟨supervised', set, called, returned, bounded', quiet'⟩

/-- A call of `stop` that has not returned can go on, or the task it waits for can. -/
theorem Stopping.goes_on {bound i : ℕ} {later : List MonitorTransition}
    (stopping : Stopping bound i later m) (waits : m.stops[i]? ≠ some .returned) :
    ∃ act, (act.ofTask = true ∨ act = .returns i) ∧ (step sch interval m act).isSome = true := by
  have supervised := stopping.supervised
  obtain ⟨c, call⟩ : ∃ c, m.stops[i]? = some c := ⟨_, List.getElem?_eq_getElem stopping.called⟩
  cases c with
  | returned => exact absurd call waits
  | awaiting k =>
      have known := supervised.known k (supervised.asked i k call).1
      obtain ⟨st, here⟩ : ∃ st, m.tasks[k]? = some st := ⟨_, List.getElem?_eq_getElem known⟩
      cases st with
      | created =>
          refine ⟨.begins k, .inl rfl, ?_⟩
          simp [step, here, loopHead, stopping.set]
      | checking j =>
          obtain ⟨kind, name, rest, found⟩ := supervised.atProbe k j here
          refine ⟨.answered k .exception, .inl rfl, ?_⟩
          simp [step, here, Gateway.step, found, sweepStep]
      | waiting deadline =>
          refine ⟨.wakes k, .inl rfl, ?_⟩
          simp [step, here, loopHead, stopping.set]
      | ended =>
          refine ⟨.returns i, .inr rfl, ?_⟩
          simp [step, call, here]

/-- The task has not ended. -/
def Alive (m : MonitoredGateway) (k : ℕ) : Prop := ∃ st, m.tasks[k]? = some st ∧ st ≠ .ended

/-- What holds after a call of `stop`, until a task is started again. -/
structure StopKept (sch : Scheduler) (interval : ℚ) (names : List String) (i : ℕ)
    (later : List MonitorTransition) (m : MonitoredGateway) : Prop where
  no_sweep : ∀ k, sweepTimes k later = []
  bounded : later.countP (·.action.ofTask) ≤ names.length + 1
  gone : m.stops[i]? = some .returned → ∀ k, ¬ m.Alive k
  goes_on : m.stops[i]? ≠ some .returned →
    ∃ act, (act.ofTask = true ∨ act = .returns i) ∧ (step sch interval m act).isSome = true

theorem supervised_of_run {start : Gateway} {ts : List MonitorTransition}
    (run : MonitorRun sch interval { gateway := start } ts m) (alone : ∀ t ∈ ts, Alone t) :
    m.Supervised := by
  refine run.invariant_under (fun _ t => Alone t) (fun _ m => m.Supervised) ?_
    (fun _ _ _ before valid single => before.step valid single)
    (fun past t later split => alone t (by simp [split]))
  exact .at_rest rfl (by simp) (by simp)

theorem stepsLeft_bound {start : Gateway} (idle : start.sweeps = []) {ts : List MonitorTransition}
    (run : MonitorRun sch interval { gateway := start } ts m) :
    m.stepsLeft ≤ start.app.registry.names.length + 1 := by
  obtain ⟨us, below, -⟩ := gateway_run run
  rw [stepsLeft]
  cases m.task.bind fun k => m.tasks[k]? with
  | none => exact Nat.zero_le _
  | some st =>
      cases st with
      | checking j =>
          rw [Option.elim_some, stageLeft]
          cases found : m.gateway.sweeps[j]? with
          | none => exact Nat.succ_le_succ (Nat.zero_le _)
          | some sw => exact Nat.succ_le_succ (ahead_le idle below found)
      | ended => exact Nat.zero_le _
      | _ => exact Nat.succ_le_succ (Nat.zero_le _)

theorem stop_kept {start : Gateway} (idle : start.sweeps = []) {ts : List MonitorTransition}
    (run : MonitorRun sch interval { gateway := start } ts m) (alone : ∀ t ∈ ts, Alone t)
    {past later : List MonitorTransition} {t : MonitorTransition} (split : ts = past ++ t :: later)
    (stop : t.action = .stop) (no_start : ∀ u ∈ later, ¬ Starts u) :
    StopKept sch interval start.app.registry.names t.before.stops.length later m := by
  have cut : ts = (past ++ [t]) ++ later := by simp [split]
  obtain ⟨m₁, first, second⟩ := (cut ▸ run).cut
  obtain rfl : m₁ = t.after := first.ends rfl
  obtain ⟨before, valid⟩ := run.split split
  have supervised := supervised_of_run before fun u member => alone u (by simp [split, member])
  have bound := stepsLeft_bound idle first
  rw [LabelledRun.Transition.Valid, stop] at valid
  have stopping : Stopping t.after.stepsLeft t.before.stops.length later m := by
    refine second.invariant_under (fun _ u => Alone u ∧ ¬ Starts u)
      (Stopping t.after.stepsLeft t.before.stops.length) ?_
      (fun _ _ _ so_far valid meets => so_far.later valid meets.1 meets.2) ?_
    · exact .called_at supervised (alone t (by simp [split]) stop) valid
    · intro earlier u rest eq
      exact ⟨alone u (by simp [split, eq]), no_start u (by simp [eq])⟩
  refine ⟨stopping.quiet, ?_, ?_, stopping.goes_on⟩
  · have bounded := stopping.bounded
    omega
  · rintro back k ⟨st, here, alive⟩
    have busy := stopping.supervised.live k st here alive
    rw [stopping.returned back] at busy
    cases busy

end MonitoredGateway

/-- In every run of a gateway with its monitor in which no call of `stop` is made while another one
waits: the run is one of the gateway, with the same events; at most one task is alive; each task
begins its sweeps the interval apart; and a call of `stop`, until a task is started again, lets no
sweep begin, returns after a bounded number of steps, each of which can be taken, and leaves no
task alive. A `start` while it waits creates none. -/
theorem monitor_lifecycle (sch : Scheduler) (interval : ℚ) (start : Gateway)
    (idle : start.sweeps = []) (ts : List MonitorTransition) (m : MonitoredGateway)
    (run : MonitorRun sch interval { gateway := start } ts m)
    (alone : ∀ t ∈ ts, MonitoredGateway.Alone t) :
    (∃ us, GatewayRun sch start us m.gateway ∧
      LabelledRun.eventsOf us = LabelledRun.eventsOf ts) ∧
    (∀ k k', m.Alive k → m.Alive k' → k = k') ∧
    (∀ k, (MonitoredGateway.sweepTimes k ts).IsChain fun a b => a + interval ≤ b) ∧
    ∀ past t later, ts = past ++ t :: later → t.action = .stop →
      (∀ u ∈ later, ¬ MonitoredGateway.Starts u) →
        MonitoredGateway.StopKept sch interval start.app.registry.names t.before.stops.length
          later m := by
  have supervised := MonitoredGateway.supervised_of_run run alone
  have paced := fun k => MonitoredGateway.sweeps_paced run k
  refine ⟨MonitoredGateway.gateway_run run, ?_, fun k => (paced k).apart,
    fun past t later split stop no_start =>
      MonitoredGateway.stop_kept idle run alone split stop no_start⟩
  rintro k k' ⟨st, here, alive⟩ ⟨st', here', alive'⟩
  have own := supervised.live k st here alive
  rw [supervised.live k' st' here' alive'] at own
  exact (Option.some.inj own).symm

namespace Demo

/-- A sweep that `stop` interrupts after its first probe. A `start` comes while it waits. -/
def stoppedInSweep : List MonitorAction :=
  [.start, .begins 0, .answered 0 (.status 200), .other (.begin .execute (Demo.request "m")), .stop,
    .start, .answered 0 .exception, .wakes 0, .returns 0]

/-- Two calls of `stop` wait for one task, and the second one forgets the task that was started
when the first one had returned. -/
def overlappingStops : List MonitorAction :=
  [.start, .stop, .stop, .begins 0, .returns 0, .start, .returns 1, .start]

def singleStop (t : MonitorTransition) : Bool :=
  match t.action with
  | .stop => t.before.stops.all (· = .returned)
  | _ => true

theorem singleStop_alone {t : MonitorTransition} (single : singleStop t = true) :
    MonitoredGateway.Alone t := by
  intro stop c member
  rw [singleStop, stop] at single
  exact of_decide_eq_true (List.all_eq_true.mp single c member)

end Demo

theorem monitor_lifecycle_stopped_in_sweep :
    ∃ ts m, MonitorRun Demo.scheduler 60
        { gateway := Demo.gateway fun _ => Demo.config [] 10 } ts m ∧
      (∀ t ∈ ts, MonitoredGateway.Alone t) ∧
      (∃ us, GatewayRun Demo.scheduler (Demo.gateway fun _ => Demo.config [] 10) us m.gateway ∧
        LabelledRun.eventsOf us = LabelledRun.eventsOf ts) ∧
      (∀ k k', m.Alive k → m.Alive k' → k = k') ∧
      (∀ k, (MonitoredGateway.sweepTimes k ts).IsChain fun a b => a + 60 ≤ b) ∧
      ∀ past t later, ts = past ++ t :: later → t.action = .stop →
        (∀ u ∈ later, ¬ MonitoredGateway.Starts u) →
          MonitoredGateway.StopKept Demo.scheduler 60
            (Demo.gateway fun _ => Demo.config [] 10).app.registry.names t.before.stops.length
            later m := by
  have possible : (LabelledRun.exec (MonitoredGateway.step Demo.scheduler 60)
      { gateway := Demo.gateway fun _ => Demo.config [] 10 } Demo.stoppedInSweep).any
        (fun r => r.2.all Demo.singleStop) = true := by decide +kernel
  obtain ⟨ts, m, run, single⟩ := LabelledRun.run_of_check _ possible
  have alone : ∀ t ∈ ts, MonitoredGateway.Alone t := fun t member =>
    Demo.singleStop_alone (List.all_eq_true.mp single t member)
  exact ⟨ts, m, run, alone, monitor_lifecycle _ _ _ rfl ts m run alone⟩

/-- Without that condition two tasks can be alive. -/
theorem overlapping_stops_leave_two :
    ∃ ts m, MonitorRun Demo.scheduler 60
        { gateway := Demo.gateway fun _ => Demo.config [] 10 } ts m ∧
      m.Alive 1 ∧ m.Alive 2 := by
  have possible : (LabelledRun.exec (MonitoredGateway.step Demo.scheduler 60)
      { gateway := Demo.gateway fun _ => Demo.config [] 10 } Demo.overlappingStops).any
        (fun r => decide (r.1.tasks = [.ended, .created, .created])) = true := by decide +kernel
  obtain ⟨ts, m, run, left⟩ := LabelledRun.run_of_check _ possible
  have tasks : m.tasks = [.ended, .created, .created] := of_decide_eq_true left
  exact ⟨ts, m, run, ⟨.created, by simp [tasks]⟩, ⟨.created, by simp [tasks]⟩⟩

end Noxis
