import Noxis.Dispatch

/-! The moves of a circuit. Outcomes are reported whenever a call ends, so a success of a
call that was sent before the breaker tripped can arrive while the circuit is OPEN. -/
namespace Noxis

/-- The state machine of the breaker, without the moves that stay. -/
inductive CircuitMove : CircuitState → CircuitState → Prop
  | trip : CircuitMove .closed .opened
  | elapsed : CircuitMove .opened .halfOpen
  | recover : CircuitMove .halfOpen .closed
  | retrip : CircuitMove .halfOpen .opened

namespace Gateway

/-- The step is one of the machine's moves for the provider, or none; and only
`allow_request`, once the cooldown is over, takes the circuit out of OPEN. -/
structure MovesCircuit (sch : Scheduler) (name : String) (t : GatewayTransition) : Prop where
  move : (t.after.app.provider name).circuitState = (t.before.app.provider name).circuitState ∨
    CircuitMove (t.before.app.provider name).circuitState (t.after.app.provider name).circuitState
  cooldown : (t.before.app.provider name).circuitState = .opened →
    (t.after.app.provider name).circuitState ≠ .opened →
      (t.before.app.provider name).cooldownUntil ≤ t.before.app.now ∧
      (∃ path request, t.action = .begin path request) ∧
      t.after.app.provider name =
        (sch.breaker.allowRequest t.before.app.now (t.before.app.provider name)).2

/-- A call to the provider succeeds while its circuit is OPEN. -/
def LateSuccess (g : Gateway) (name : String) (act : Action) : Prop :=
  (g.app.provider name).circuitState = .opened ∧
    ∃ call ∈ g.endedCall act, call.1.decision.provider = name ∧ ∃ result, call.2 = .success result

end Gateway

section resumptions
variable {sch : Scheduler} {s : AppState} {name : String}

theorem noteFailure_circuit {provider : String} {e : ProviderAPIError} :
    ((sch.noteFailure s provider e).provider name).circuitState = (s.provider name).circuitState ∨
      ((sch.noteFailure s provider e).provider name).circuitState = .opened := by
  rcases sch.noteFailure_provider_cases s name provider e with same | counted | tripped
  · exact .inl (by rw [same])
  · exact .inl (by rw [counted])
  · exact .inr (by rw [tripped, CircuitBreaker.trip])

variable (name) in
/-- A resumption leaves a circuit as it is, trips it, or closes it after a success. -/
theorem resumes_circuit {st st' : RunState} {act : RunAction} {s' : AppState}
    {events : List Event} (moved : sch.Resumes s st act s' st' events) :
    (s'.provider name).circuitState = (s.provider name).circuitState ∨
      (s'.provider name).circuitState = .opened ∨
      ∃ a result u, st = .calling a ∧ act = .callEnded (.success result) u ∧
        a.decision.provider = name ∧ (s'.provider name).circuitState = .closed := by
  cases moved with
  | @success a result u e =>
      by_cases same : name = a.decision.provider
      · refine .inr (.inr ⟨a, result, u, rfl, rfl, same.symm, ?_⟩)
        rw [AppState.release_provider, same, Scheduler.noteSuccess_provider_self]
        rfl
      · left
        rw [AppState.release_provider, Scheduler.noteSuccess_provider_other same]
  | @terminal a e u s' st' events path final next =>
      left
      rw [next.provider]
      by_cases same : name = a.decision.provider
      · subst same
        simp [Scheduler.afterTerminal, Scheduler.noteFailure, final]
      · rw [(agreesOn_afterTerminal sch s e same).provider]
  | @raised a e u path final =>
      rw [AppState.release_provider]
      exact noteFailure_circuit.imp_right .inl
  | @overflow a e =>
      rw [AppState.release_provider]
      exact noteFailure_circuit.imp_right .inl
  | backoff => exact noteFailure_circuit.imp_right .inl
  | wake due next =>
      left
      rw [next.provider, AppState.release_provider]
  | _ => exact .inl rfl

end resumptions

namespace Gateway

variable {sch : Scheduler} {g g' : Gateway} {act : Action} {events : List Event} {name : String}

variable (name) in
/-- What one step can do to the circuit of a provider. -/
theorem step_circuit (moved : step sch g act = some (g', events)) :
    (g'.app.provider name).circuitState = (g.app.provider name).circuitState ∨
      (g'.app.provider name).circuitState = .opened ∨
      ((∃ path request, act = .begin path request) ∧
        g'.app.provider name = (sch.breaker.allowRequest g.app.now (g.app.provider name)).2) ∨
      ((∃ call ∈ g.endedCall act, call.1.decision.provider = name ∧
          ∃ result, call.2 = .success result) ∧
        (g'.app.provider name).circuitState = .closed) := by
  cases step_steps moved with
  | @begin path request ds app app' l st events admission fresh taken next =>
      have kept : app'.provider name = app.provider name := by rw [next.provider]
      rcases admission.effect name with same | ⟨-, -, touched⟩
      · left
        change (app'.provider name).circuitState = _
        rw [kept, same]
      · exact .inr (.inr (.inl ⟨⟨path, request, rfl⟩, kept.trans touched⟩))
  | @run pre post st st' act app events runs moved =>
      rcases resumes_circuit name moved with
        same | opened | ⟨a, result, u, rfl, rfl, called, closed⟩
      · exact .inl same
      · exact .inr (.inl opened)
      · refine .inr (.inr (.inr ⟨⟨(a, .success result), ?_, called, result, rfl⟩, closed⟩))
        simp [endedCall, resumed_getElem runs]
  | sweep found swept => exact .inl ((sweepStep_onlyHealth swept).circuit name)
  | beginSweep change next => exact .inl (change.circuit name)
  | elapse => exact .inl rfl
  | setEnabled =>
      left
      simp [AppState.provider]

theorem step_movesCircuit (moved : step sch g act = some (g', events))
    (timely : ¬ g.LateSuccess name act) : MovesCircuit sch name ⟨g, act, events, g'⟩ := by
  rcases step_circuit name moved with same | opened | ⟨ranked, allowed⟩ | ⟨ended, closed⟩
  · exact ⟨.inl same, fun before after => absurd (same.trans before) after⟩
  · refine ⟨?_, fun _ after => absurd opened after⟩
    change (g'.app.provider name).circuitState = (g.app.provider name).circuitState ∨
      CircuitMove (g.app.provider name).circuitState (g'.app.provider name).circuitState
    rw [opened]
    cases (g.app.provider name).circuitState with
    | closed => exact .inr .trip
    | opened => exact .inl rfl
    | halfOpen => exact .inr .retrip
  · rcases sch.breaker.allowRequest_circuit g.app.now (g.app.provider name) with
      same | ⟨before, elapsed, half⟩
    · rw [← allowed] at same
      exact ⟨.inl same, fun before after => absurd (same.trans before) after⟩
    · rw [← allowed] at half
      refine ⟨.inr ?_, fun _ _ => ⟨elapsed, ranked, allowed⟩⟩
      change CircuitMove (g.app.provider name).circuitState (g'.app.provider name).circuitState
      rw [before, half]
      exact .elapsed
  · refine ⟨?_, fun before _ => absurd ⟨before, ended⟩ timely⟩
    change (g'.app.provider name).circuitState = (g.app.provider name).circuitState ∨
      CircuitMove (g.app.provider name).circuitState (g'.app.provider name).circuitState
    rw [closed]
    cases before : (g.app.provider name).circuitState with
    | closed => exact .inl rfl
    | opened => exact absurd ⟨before, ended⟩ timely
    | halfOpen => exact .inr .recover

/-- The breaker closes the circuit on every success, whatever the state. -/
theorem lateSuccess_closes (moved : step sch g act = some (g', events))
    (late : g.LateSuccess name act) : (g'.app.provider name).circuitState = .closed := by
  obtain ⟨-, call, ended, rfl, result, success⟩ := late
  unfold endedCall at ended
  split at ended
  · rename_i i o u
    obtain ⟨pre, st, post, app, st', runs, rfl, moved, rfl⟩ := step_run sch moved
    rw [resumed_getElem runs] at ended
    split at ended
    · rename_i a eq
      obtain rfl := Option.some.inj eq
      obtain rfl := Option.mem_some.mp ended
      obtain rfl : o = .success result := success
      cases sch.runStep_resumes moved with
      | success =>
          change ((Scheduler.noteSuccess g.app a).provider a.decision.provider).circuitState = _
          rw [Scheduler.noteSuccess_provider_self]
          rfl
    · simp at ended
  · simp at ended

theorem step_movesCircuit_iff (moved : step sch g act = some (g', events)) :
    MovesCircuit sch name ⟨g, act, events, g'⟩ ↔ ¬ g.LateSuccess name act := by
  refine ⟨fun moves late => ?_, step_movesCircuit moved⟩
  have closed := lateSuccess_closes moved late
  have before := late.1
  rcases moves.move with same | move
  · rw [closed, before] at same
    exact absurd same (by decide)
  · rw [closed, before] at move
    cases move

end Gateway

/-- In a run every move of a provider's circuit is one of the machine's, and OPEN is left
only by `allow_request` after the cooldown, if and only if no call to the provider succeeds
while its circuit is OPEN. -/
theorem circuit_moves_iff (sch : Scheduler) (now : ℚ) (names : List String)
    (nodup : names.Nodup) (config : String → ProviderConfig) (name : String)
    (ts : List GatewayTransition) (g : Gateway)
    (run : GatewayRun sch (.boot now names nodup config) ts g) :
    (∀ t ∈ ts, Gateway.MovesCircuit sch name t) ↔
      ∀ t ∈ ts, ¬ t.before.LateSuccess name t.action := by
  refine forall₂_congr fun t member => ?_
  obtain ⟨past, later, eq⟩ := List.append_of_mem member
  exact Gateway.step_movesCircuit_iff (run.split eq).2

/-- Two requests wait for `a`; the first call fails and trips the breaker, the second one
succeeds. -/
def successAfterTrip : List Action :=
  [.begin .execute (Demo.request "m"), .begin .execute (Demo.request "m"),
    .run 0 (Demo.fails 503), .run 1 (Demo.succeeds "a")]

theorem circuit_moves_iff_success_after_trip :
    ∃ ts g, GatewayRun Demo.scheduler (Demo.gateway fun _ => Demo.config [] 10) ts g ∧
      ((∀ t ∈ ts, Gateway.MovesCircuit Demo.scheduler "b" t) ↔
        ∀ t ∈ ts, ¬ t.before.LateSuccess "b" t.action) := by
  have possible : Demo.passes (Demo.gateway fun _ => Demo.config [] 10) successAfterTrip
      (fun _ => true) = true := by decide +kernel
  obtain ⟨ts, g, run, -⟩ := Demo.exists_run possible
  exact ⟨ts, g, run, circuit_moves_iff _ _ _ _ _ _ ts g run⟩

theorem open_circuit_closes_early :
    ∃ ts g, GatewayRun Demo.scheduler (Demo.gateway fun _ => Demo.config [] 10) ts g ∧
      ∃ t ∈ ts, (t.before.app.provider "a").circuitState = .opened ∧
        t.before.app.now < (t.before.app.provider "a").cooldownUntil ∧
        (t.after.app.provider "a").circuitState = .closed := by
  have evaluated : Demo.passes (Demo.gateway fun _ => Demo.config [] 10) successAfterTrip
      (fun r => r.2.any fun t => decide ((t.before.app.provider "a").circuitState = .opened ∧
        t.before.app.now < (t.before.app.provider "a").cooldownUntil ∧
        (t.after.app.provider "a").circuitState = .closed)) = true := by decide +kernel
  obtain ⟨ts, g, run, found⟩ := Demo.exists_run evaluated
  obtain ⟨t, member, closes⟩ := List.any_eq_true.mp found
  exact ⟨ts, g, run, t, member, of_decide_eq_true closes⟩

end Noxis
