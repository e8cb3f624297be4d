import Noxis.SweepContract

/-! The background task of the health monitor, next to the gateway it watches: `start` creates a
task, `_loop` sweeps and waits in turn, and `stop` asks it to end and waits until it has. -/
namespace Noxis

/-- The await points of a `_loop` task. A task that was created has not run yet. -/
inductive LoopStage where
  | created
  | checking (sweep : ℕ)
  | waiting (deadline : ℚ)
  | ended
  deriving DecidableEq

/-- A call of `stop`: it waits for a task, or it has returned. -/
inductive StopCall where
  | awaiting (task : ℕ)
  | returned
  deriving DecidableEq

/-- `_task` and `_stop`, with all tasks ever created and all calls of `stop`. -/
structure MonitoredGateway where
  gateway : Gateway
  tasks : List LoopStage := []
  task : Option ℕ := none
  stopSet : Bool := false
  stops : List StopCall := []

/-- The steps of the monitor, and every other step of the gateway. -/
inductive MonitorAction where
  | other (act : Action)
  | start
  | stop
  | returns (i : ℕ)
  | begins (k : ℕ)
  | answered (k : ℕ) (answer : ProbeAnswer)
  | wakes (k : ℕ)

namespace MonitoredGateway

/-- The sweep is awaited by a task, and only its answers resume the two. -/
def Awaits (m : MonitoredGateway) : Action → Prop
  | .sweep j _ => .checking j ∈ m.tasks
  | _ => False

instance (m : MonitoredGateway) : DecidablePred m.Awaits
  | .sweep _ _ => inferInstanceAs (Decidable (_ ∈ _))
  | .elapse _ | .begin _ _ | .run _ _ | .beginSweep _ | .setEnabled _ _ =>
      inferInstanceAs (Decidable False)

variable (sch : Scheduler) (interval : ℚ)

/-- Where a task is when its sweep has gone on: at the next probe, or waiting for `_stop`. -/
def stageAfter (g : Gateway) (j : ℕ) : LoopStage :=
  match g.sweeps[j]? with
  | some (.checking _ _ _) => .checking j
  | _ => .waiting (g.app.now + interval)

/-- The head of the loop, up to the next await. -/
def loopHead (m : MonitoredGateway) (k : ℕ) : Option (MonitoredGateway × List Event) :=
  if m.stopSet then some ({ m with tasks := m.tasks.set k .ended }, [])
  else (Gateway.step sch m.gateway (.beginSweep .monitor)).map fun (g, events) =>
    ({ m with
        gateway := g
        tasks := m.tasks.set k (stageAfter interval g m.gateway.sweeps.length) }, events)

def step (m : MonitoredGateway) : MonitorAction → Option (MonitoredGateway × List Event)
  | .other act =>
      if m.Awaits act then none
      else (Gateway.step sch m.gateway act).map fun (g, events) => ({ m with gateway := g }, events)
  | .start =>
      match m.task with
      | none =>
          some ({ m with
            tasks := m.tasks ++ [.created], task := some m.tasks.length, stopSet := false }, [])
      | some _ => some (m, [])
  | .stop =>
      match m.task with
      | none => some ({ m with stopSet := true, stops := m.stops ++ [.returned] }, [])
      | some k =>
          if m.tasks[k]? = some .ended then
            some ({ m with stopSet := true, task := none, stops := m.stops ++ [.returned] }, [])
          else some ({ m with stopSet := true, stops := m.stops ++ [.awaiting k] }, [])
  | .returns i =>
      match m.stops[i]? with
      | some (.awaiting k) =>
          if m.tasks[k]? = some .ended then
            some ({ m with task := none, stops := m.stops.set i .returned }, [])
          else none
      | _ => none
  | .begins k =>
      match m.tasks[k]? with
      | some .created => m.loopHead sch interval k
      | _ => none
  | .answered k answer =>
      match m.tasks[k]? with
      | some (.checking j) =>
          (Gateway.step sch m.gateway (.sweep j (.answered answer))).map fun (g, events) =>
            ({ m with gateway := g, tasks := m.tasks.set k (stageAfter interval g j) }, events)
      | _ => none
  | .wakes k =>
      match m.tasks[k]? with
      | some (.waiting deadline) =>
          if m.stopSet = true ∨ deadline ≤ m.gateway.app.now then m.loopHead sch interval k
          else none
      | _ => none

end MonitoredGateway

abbrev MonitorTransition := LabelledRun.Transition MonitoredGateway MonitorAction Event

abbrev MonitorRun (sch : Scheduler) (interval : ℚ) :
    MonitoredGateway → List MonitorTransition → MonitoredGateway → Prop :=
  LabelledRun.Run (MonitoredGateway.step sch interval)

namespace MonitoredGateway

variable (sch : Scheduler) (interval : ℚ)

/-- A task about to test `_stop`: it runs for the first time, or its wait is over. -/
inductive AtHead (m : MonitoredGateway) : MonitorAction → ℕ → Prop
  | begins {k : ℕ} (at_start : m.tasks[k]? = some .created) : AtHead m (.begins k) k
  | wakes {k : ℕ} {deadline : ℚ} (waits : m.tasks[k]? = some (.waiting deadline))
      (due : m.stopSet = true ∨ deadline ≤ m.gateway.app.now) : AtHead m (.wakes k) k

/-- The steps, one constructor for each way the code between two awaits can go. -/
inductive Moves (m : MonitoredGateway) : MonitorAction → MonitoredGateway → List Event → Prop
  | other {act : Action} {g : Gateway} {events : List Event} (free : ¬ m.Awaits act)
      (moved : Gateway.step sch m.gateway act = some (g, events)) :
      Moves m (.other act) { m with gateway := g } events
  | started (idle : m.task = none) :
      Moves m .start
        { m with tasks := m.tasks ++ [.created], task := some m.tasks.length, stopSet := false } []
  | running {k : ℕ} (busy : m.task = some k) : Moves m .start m []
  | stopped (done : ∀ k ∈ m.task, m.tasks[k]? = some .ended) :
      Moves m .stop { m with stopSet := true, task := none, stops := m.stops ++ [.returned] } []
  | asked {k : ℕ} (busy : m.task = some k) (live : m.tasks[k]? ≠ some .ended) :
      Moves m .stop { m with stopSet := true, stops := m.stops ++ [.awaiting k] } []
  | returns {i k : ℕ} (waits : m.stops[i]? = some (.awaiting k))
      (done : m.tasks[k]? = some .ended) :
      Moves m (.returns i) { m with task := none, stops := m.stops.set i .returned } []
  | ends {act : MonitorAction} {k : ℕ} (head : AtHead m act k) (stop : m.stopSet = true) :
      Moves m act { m with tasks := m.tasks.set k .ended } []
  | sweeps {act : MonitorAction} {k : ℕ} {g : Gateway} {events : List Event} (head : AtHead m act k)
      (goes_on : m.stopSet = false)
      (begun : Gateway.step sch m.gateway (.beginSweep .monitor) = some (g, events)) :
      Moves m act
        { m with
          gateway := g, tasks := m.tasks.set k (stageAfter interval g m.gateway.sweeps.length) }
        events
  | answered {k j : ℕ} {answer : ProbeAnswer} {g : Gateway} {events : List Event}
      (waits : m.tasks[k]? = some (.checking j))
      (moved : Gateway.step sch m.gateway (.sweep j (.answered answer)) = some (g, events)) :
      Moves m (.answered k answer)
        { m with gateway := g, tasks := m.tasks.set k (stageAfter interval g j) } events

variable {sch interval} {m m' : MonitoredGateway} {act : MonitorAction} {events : List Event}

theorem loopHead_moves {k : ℕ} (head : AtHead m act k)
    (moved : m.loopHead sch interval k = some (m', events)) :
    Moves sch interval m act m' events := by
  unfold loopHead at moved
  cases stop : m.stopSet with
  | true =>
      rw [if_pos stop] at moved
      obtain ⟨rfl, rfl⟩ := Prod.mk.inj (Option.some.inj moved)
      exact .ends head stop
  | false =>
      rw [if_neg (by simp [stop]), Option.map_eq_some_iff] at moved
      obtain ⟨⟨g, seen⟩, begun, eq⟩ := moved
      obtain ⟨rfl, rfl⟩ := Prod.mk.inj eq
      exact .sweeps head stop begun

theorem step_moves (moved : step sch interval m act = some (m', events)) :
    Moves sch interval m act m' events := by
  cases act with
  | other act =>
      simp only [step] at moved
      split_ifs at moved with free
      rw [Option.map_eq_some_iff] at moved
      obtain ⟨⟨g, seen⟩, inner, eq⟩ := moved
      obtain ⟨rfl, rfl⟩ := Prod.mk.inj eq
      exact .other free inner
  | start =>
      cases task : m.task with
      | none =>
          simp only [step, task, Option.some.injEq, Prod.mk.injEq] at moved
          obtain ⟨rfl, rfl⟩ := moved
          exact .started task
      | some k =>
          simp only [step, task, Option.some.injEq, Prod.mk.injEq] at moved
          obtain ⟨rfl, rfl⟩ := moved
          exact .running task
  | stop =>
      cases task : m.task with
      | none =>
          simp only [step, task, Option.some.injEq, Prod.mk.injEq] at moved
          obtain ⟨rfl, rfl⟩ := moved
          exact .stopped (by simp [task])
      | some k =>
          simp only [step, task] at moved
          split_ifs at moved with done
          · obtain ⟨rfl, rfl⟩ := Prod.mk.inj (Option.some.inj moved)
            exact .stopped (by simpa [task] using done)
          · obtain ⟨rfl, rfl⟩ := Prod.mk.inj (Option.some.inj moved)
            rw [← task]
            exact .asked task done
  | returns i =>
      cases call : m.stops[i]? with
      | none => simp [step, call] at moved
      | some c =>
          cases c with
          | returned => simp [step, call] at moved
          | awaiting k =>
              simp only [step, call] at moved
              split_ifs at moved with done
              obtain ⟨rfl, rfl⟩ := Prod.mk.inj (Option.some.inj moved)
              exact .returns call done
  | begins k =>
      cases stage : m.tasks[k]? with
      | none => simp [step, stage] at moved
      | some st =>
          cases st with
          | created =>
              simp only [step, stage] at moved
              exact loopHead_moves (.begins stage) moved
          | _ => simp [step, stage] at moved
  | answered k answer =>
      cases stage : m.tasks[k]? with
      | none => simp [step, stage] at moved
      | some st =>
          cases st with
          | checking j =>
              simp only [step, stage, Option.map_eq_some_iff] at moved
              obtain ⟨⟨g, seen⟩, inner, eq⟩ := moved
              obtain ⟨rfl, rfl⟩ := Prod.mk.inj eq
              exact .answered stage inner
          | _ => simp [step, stage] at moved
  | wakes k =>
      cases stage : m.tasks[k]? with
      | none => simp [step, stage] at moved
      | some st =>
          cases st with
          | waiting deadline =>
              simp only [step, stage] at moved
              split_ifs at moved with due
              exact loopHead_moves (.wakes stage due) moved
          | _ => simp [step, stage] at moved

end MonitoredGateway
end Noxis
