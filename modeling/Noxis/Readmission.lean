import Noxis.Dispatch

/-! Back into service. The router looks at the health value before the breaker is asked,
and that value is only rewritten by a health check or a success: once a trip, a skipped
check or a check under way has been noted, the end of a cooldown changes nothing. -/
namespace Noxis
namespace Gateway

/-- The health check that the step completes, and whether it passed. -/
def completedCheck (g : Gateway) : Action → Option (String × Bool)
  | .sweep j (.answered answer) =>
      match g.sweeps[j]? with
      | some (.checking _ name _) => some (name, healthCheck answer)
      | _ => none
  | _ => none

/-- The provider whose call ends in an upstream error, with the error. -/
def failedCall (g : Gateway) (act : Action) : Option (String × ProviderAPIError) :=
  (g.endedCall act).bind fun call =>
    match call.2 with
    | .apiError e => some (call.1.decision.provider, e)
    | _ => none

def TerminalError (g : Gateway) (name : String) (act : Action) : Prop :=
  ∃ failed ∈ g.failedCall act, failed.1 = name ∧ failed.2.retryable = false

instance (g : Gateway) (name : String) (act : Action) : Decidable (g.TerminalError name act) :=
  inferInstanceAs (Decidable (∃ failed ∈ _, _))

/-- The results of the provider's completed checks, in order. -/
def checksOf (name : String) (ts : List GatewayTransition) : List Bool :=
  ts.filterMap fun t => (t.before.completedCheck t.action).bind fun check =>
    if check.1 = name then some check.2 else none

/-- Nothing known speaks against the provider: its last completed check did not fail, and
no call to it ended in a terminal error. -/
structure Sound (name : String) (ts : List GatewayTransition) : Prop where
  checked : (checksOf name ts).getLast? ≠ some false
  noTerminal : ∀ t ∈ ts, ¬ t.before.TerminalError name t.action

end Gateway

/-- Everything but the health value lets the request go to the provider: the filters pass,
and the cooldown of its circuit, or of its 429, is over. -/
structure CooledDown (sch : Scheduler) (s : AppState) (request : ChatCompletionRequest)
    (name : String) : Prop where
  candidate : name ∈ candidateProvidersForModel s.registry request.model
  enabled : s.registry.isAdminDisabled name = false
  servable : (s.rateLimiter.canServe s.now name (s.provider name).config.rateLimit).1 = true
  fits : ∃ model ∈ resolveModelForProvider (s.provider name) request.model,
    contextExceeded (s.provider name) model (estimateTokens request) = false
  capable : capabilityScore (s.provider name) request ≠ none
  due : ((s.provider name).circuitState = .opened ∧ (s.provider name).cooldownUntil ≤ s.now ∧
      1 ≤ sch.breaker.halfOpenMaxCalls) ∨
    ((s.provider name).circuitState = .closed ∧ (s.rateLimiter name).rateLimitedUntil ≤ s.now)

/-- The provider is among the eligible decisions of the request, as the first half-open
trial if its circuit was OPEN. -/
structure Readmitted (sch : Scheduler) (s : AppState) (request : ChatCompletionRequest)
    (name : String) : Prop where
  listed : name ∈ (sch.eligibleDecisions s request).1.map RoutingDecision.provider
  onTrial : (s.provider name).circuitState = .opened →
    ((sch.eligibleDecisions s request).2.provider name).circuitState = .halfOpen ∧
    ((sch.eligibleDecisions s request).2.provider name).halfOpenCallsInFlight = 1

/-- A health value that a cooldown outlives: the trip, the skipped check and the check under
way stay noted until the next health check or success. -/
def StaleHealth (h : ProviderHealth) : Prop :=
  h = .circuitOpen ∨ h = .rateLimited ∨ h = .checking

instance : DecidablePred StaleHealth := fun _ => inferInstanceAs (Decidable (_ ∨ _))

section admission
variable {sch : Scheduler} {s : AppState} {request : ChatCompletionRequest} {name : String}

theorem CooledDown.eligible_iff (due : CooledDown sch s request name) :
    s.Eligible request name ↔ eligibleHealth (s.provider name).health = true := by
  obtain ⟨model, resolved, fits⟩ := due.fits
  exact ⟨fun eligible => eligible.1,
    fun healthy => ⟨healthy, due.enabled, due.servable, ⟨model, resolved, fits⟩, due.capable⟩⟩

theorem CooledDown.allowed (due : CooledDown sch s request name) :
    (sch.breaker.allowRequest s.now (s.provider name)).1 = true ∧
      ((s.provider name).circuitState = .opened →
        (sch.breaker.allowRequest s.now (s.provider name)).2.circuitState = .halfOpen ∧
        (sch.breaker.allowRequest s.now (s.provider name)).2.halfOpenCallsInFlight = 1) := by
  rcases due.due with ⟨opened, elapsed, room⟩ | ⟨closed, -⟩
  · have room' : (0 : ℤ) < sch.breaker.halfOpenMaxCalls := by omega
    simp [CircuitBreaker.allowRequest, CircuitBreaker.allowHalfOpen, opened, elapsed, room']
  · simp [CircuitBreaker.allowRequest, closed]

/-- What the breaker says no longer matters: the health value alone decides. -/
theorem CooledDown.health_decides (due : CooledDown sch s request name) :
    Readmitted sch s request name ↔ eligibleHealth (s.provider name).health = true := by
  have admission := sch.eligibleDecisions_spec s request
  constructor
  · intro readmitted
    obtain ⟨d, inList, rfl⟩ := List.mem_map.mp readmitted.listed
    exact (admission.eligible d inList).1
  · intro healthy
    have listed := admission.admitted name due.candidate (due.eligible_iff.mpr healthy)
      due.allowed.1
    refine ⟨listed, fun opened => ?_⟩
    obtain ⟨d, inList, rfl⟩ := List.mem_map.mp listed
    rw [admission.touched d inList]
    exact due.allowed.2 opened

end admission

/-! ### Where a health value comes from -/

/-- The health values that neither a failed check nor a terminal error leaves behind. -/
def Excused (h : ProviderHealth) : Prop :=
  h = .healthy ∨ h = .circuitOpen ∨ h = .checking ∨ h = .rateLimited

section resumptions
variable {sch : Scheduler} {s s' : AppState} {name : String}

theorem noteFailure_health (provider : String) (e : ProviderAPIError) :
    ((sch.noteFailure s provider e).provider name).health = (s.provider name).health ∨
      Excused ((sch.noteFailure s provider e).provider name).health := by
  rcases sch.noteFailure_provider_cases s name provider e with same | counted | tripped
  · exact .inl (by rw [same])
  · exact .inl (by rw [counted])
  · exact .inr (.inr (.inl (by rw [tripped, CircuitBreaker.trip])))

theorem noteSuccess_health (a : Attempt) :
    ((Scheduler.noteSuccess s a).provider name).health = (s.provider name).health ∨
      Excused ((Scheduler.noteSuccess s a).provider name).health := by
  by_cases same : name = a.decision.provider
  · subst same
    rw [Scheduler.noteSuccess_provider_self]
    unfold CircuitBreaker.recordSuccess
    dsimp only
    split_ifs
    · exact .inr (.inl rfl)
    · exact .inl rfl
  · rw [Scheduler.noteSuccess_provider_other same]
    exact .inl rfl

variable (name) in
/-- Of the health values that exclude a provider for good, a run writes only the one for a
terminal error. -/
theorem resumes_health {st st' : RunState} {act : RunAction} {events : List Event}
    (moved : sch.Resumes s st act s' st' events) :
    (s'.provider name).health = (s.provider name).health ∨ Excused (s'.provider name).health ∨
      ∃ a e u, st = .calling a ∧ act = .callEnded (.apiError e) u ∧
        a.decision.provider = name ∧ e.retryable = false := by
  cases moved with
  | success =>
      rw [AppState.release_provider]
      exact (noteSuccess_health _).imp_right .inl
  | @terminal a e u s' st' events path final next =>
      by_cases same : name = a.decision.provider
      · exact .inr (.inr ⟨a, e, u, rfl, rfl, same.symm, final⟩)
      · rw [next.provider, (agreesOn_afterTerminal sch s e same).provider]
        exact .inl rfl
  | @raised a e u path final =>
      rw [AppState.release_provider]
      exact (noteFailure_health _ e).imp_right .inl
  | @overflow a e =>
      rw [AppState.release_provider]
      exact (noteFailure_health _ e).imp_right .inl
  | @backoff a e => exact (noteFailure_health _ e).imp_right .inl
  | wake due next =>
      rw [next.provider, AppState.release_provider]
      exact .inl rfl
  | _ => exact .inl rfl

/-- Advancing a sweep notes skipped and begun checks only, and only of the names ahead. -/
theorem sweepNext_health (kind : SweepKind) (names : List String) (s : AppState) (name : String) :
    ((sweepNext kind s names).1.provider name).health = (s.provider name).health ∨
      Excused ((sweepNext kind s names).1.provider name).health := by
  have noted : ∀ (s : AppState) (other : String) (h : ProviderHealth), Excused h →
      ((s.onProvider other (·.withHealth h)).provider name).health = (s.provider name).health ∨
        Excused ((s.onProvider other (·.withHealth h)).provider name).health := by
    intro s other h excused
    by_cases same : name = other
    · subst same
      rw [AppState.onProvider_provider_self]
      exact .inr excused
    · rw [s.onProvider_provider_other _ same]
      exact .inl rfl
  induction names generalizing s with
  | nil => exact .inl rfl
  | cons other rest ih =>
      cases kind with
      | monitor =>
          by_cases limited : (s.rateLimiter.window other).isRateLimited s.now = true
          · simp only [sweepNext, limited, if_true]
            rcases ih (s.onProvider other (·.withHealth .rateLimited)) with same | excused
            · rw [same]
              exact noted s other .rateLimited (.inr (.inr (.inr rfl)))
            · exact .inr excused
          · simp only [sweepNext, limited]
            exact noted s other .checking (.inr (.inr (.inl rfl)))
      | verify =>
          by_cases keyed : (s.provider other).config.providerType ≠ .keyless
          · simp only [sweepNext, if_pos keyed]
            exact ih s
          · simp only [sweepNext, if_neg keyed]
            exact noted s other .checking (.inr (.inr (.inl rfl)))

/-- The answer to a check of one name, and the sweep on to the next. -/
theorem probed_health (kind : SweepKind) (rest : List String) (s : AppState)
    (name other : String) (answer : ProbeAnswer) :
    (((sweepNext kind (noteProbe s kind other answer) rest).1.provider name).health =
        (s.provider name).health ∧ name ≠ other) ∨
      Excused ((sweepNext kind (noteProbe s kind other answer) rest).1.provider name).health ∨
      (name = other ∧ healthCheck answer = false) := by
  rcases sweepNext_health kind rest (noteProbe s kind other answer) name with same | excused
  · rw [same]
    by_cases own : name = other
    · subst own
      cases passed : healthCheck answer with
      | true =>
          refine .inr (.inl (.inl ?_))
          simp [noteProbe, passed]
      | false => exact .inr (.inr ⟨rfl, rfl⟩)
    · refine .inl ⟨?_, own⟩
      rw [noteProbe, AppState.onProvider_provider_other _ _ own]
  · exact .inr (.inl excused)

end resumptions

namespace Gateway

variable {sch : Scheduler} {g g' : Gateway} {act : Action} {events : List Event} {name : String}

variable (name) in
/-- What one step can do to the health value of a provider. -/
theorem step_health (moved : step sch g act = some (g', events)) :
    ((g'.app.provider name).health = (g.app.provider name).health ∧
        ∀ passed, g.completedCheck act ≠ some (name, passed)) ∨
      Excused (g'.app.provider name).health ∨
      g.completedCheck act = some (name, false) ∨ g.TerminalError name act := by
  cases step_steps moved with
  | @begin path request ds app app' l st events admission fresh taken next =>
      refine .inl ⟨?_, fun _ => by simp [completedCheck]⟩
      change (app'.provider name).health = _
      rw [next.provider]
      rcases admission.effect name with same | ⟨-, -, touched⟩
      · rw [same]
      · rw [touched, CircuitBreaker.allowRequest_health]
  | @run pre post st st' act app events runs moved =>
      rcases resumes_health name moved with same | excused | ⟨a, e, u, rfl, rfl, called, final⟩
      · exact .inl ⟨same, fun _ => by simp [completedCheck]⟩
      · exact .inr (.inl excused)
      · refine .inr (.inr (.inr ⟨(a.decision.provider, e), ?_, called, final⟩))
        simp [failedCall, endedCall, resumed_getElem runs]
  | @beginSweep kind app sw change next =>
      have health := sweepNext_health kind g.app.registry.all g.app name
      rw [next] at health
      rcases health with same | excused
      · exact .inl ⟨same, fun _ => by simp [completedCheck]⟩
      · exact .inr (.inl excused)
  | @sweep j act sw sw' app events found swept =>
      cases sw with
      | finished => simp [sweepStep] at swept
      | checking kind other rest =>
          cases act with
          | cancel =>
              obtain ⟨rfl, -⟩ : g.app = app ∧ _ := by simpa [sweepStep] using swept
              exact .inl ⟨rfl, fun _ => by simp [completedCheck]⟩
          | answered answer =>
              obtain ⟨rfl, -⟩ : (sweepNext kind (noteProbe g.app kind other answer) rest).1 = app ∧
                  _ := by simpa [sweepStep] using swept
              have completed : g.completedCheck (.sweep j (.answered answer)) =
                  some (other, healthCheck answer) := by simp [completedCheck, found]
              rw [completed]
              rcases probed_health kind rest g.app name other answer with
                ⟨same, apart⟩ | excused | ⟨rfl, failed⟩
              · refine .inl ⟨same, fun passed eq => apart ?_⟩
                exact (congrArg Prod.fst (Option.some.inj eq)).symm
              · exact .inr (.inl excused)
              · exact .inr (.inr (.inl (by rw [failed])))
  | elapse => exact .inl ⟨rfl, fun _ => by simp [completedCheck]⟩
  | setEnabled =>
      refine .inl ⟨?_, fun _ => by simp [completedCheck]⟩
      simp [AppState.provider]

theorem checksOf_snoc (name : String) (past : List GatewayTransition) (t : GatewayTransition) :
    checksOf name (past ++ [t]) = checksOf name past ++
      ((t.before.completedCheck t.action).bind fun check =>
        if check.1 = name then some check.2 else none).toList := by
  rw [checksOf, List.filterMap_append]
  congr 1

/-- A provider that nothing speaks against has a health value that does not say otherwise. -/
theorem run_health {g₀ : Gateway} {ts : List GatewayTransition}
    (fresh : (g₀.app.provider name).health = .unknown) (run : GatewayRun sch g₀ ts g)
    (sound : Sound name ts) :
    (g.app.provider name).health = .unknown ∨ Excused (g.app.provider name).health := by
  refine run.invariant (fun past g => Sound name past →
    (g.app.provider name).health = .unknown ∨ Excused (g.app.provider name).health)
    (fun _ => .inl fresh) (fun past t _ before valid sound => ?_) sound
  have noTerminal : ∀ u ∈ past, ¬ u.before.TerminalError name u.action :=
    fun u member => sound.noTerminal u (by simp [member])
  rcases step_health name valid with ⟨same, unchecked⟩ | excused | failed | terminal
  · have checks : checksOf name (past ++ [t]) = checksOf name past := by
      rw [checksOf_snoc]
      cases check : t.before.completedCheck t.action with
      | none => simp
      | some c =>
          have other : c.1 ≠ name := fun eq => unchecked c.2 (by rw [check, ← eq])
          simp [other]
    rw [same]
    exact before ⟨checks ▸ sound.checked, noTerminal⟩
  · exact .inr excused
  · exact absurd (by simp [checksOf_snoc, failed]) sound.checked
  · exact absurd terminal (sound.noTerminal t (by simp))

end Gateway

/-- In every reachable state, a provider whose cooldown is over and that nothing speaks
against is among the eligible decisions of the next request if and only if its health value
is not stale. -/
theorem readmitted_iff (sch : Scheduler) (now : ℚ) (names : List String) (nodup : names.Nodup)
    (config : String → ProviderConfig) (ts : List GatewayTransition) (g : Gateway)
    (run : GatewayRun sch (.boot now names nodup config) ts g) (name : String)
    (sound : Gateway.Sound name ts) (request : ChatCompletionRequest)
    (due : CooledDown sch g.app request name) :
    Readmitted sch g.app request name ↔ ¬ StaleHealth (g.app.provider name).health := by
  rw [due.health_decides]
  rcases Gateway.run_health rfl run sound with unknown | healthy | tripped | checking | limited
  · simp [unknown, eligibleHealth, StaleHealth]
  · simp [healthy, eligibleHealth, StaleHealth]
  · simp [tripped, eligibleHealth, StaleHealth]
  · simp [checking, eligibleHealth, StaleHealth]
  · simp [limited, eligibleHealth, StaleHealth]

/-- One failure opens the circuit of `a`, and its cooldown passes. -/
def openAndCooledDown : List Action :=
  [.begin .execute (Demo.request "m"), .run 0 (Demo.fails 503), .elapse 45]

/-- The run as far as it speaks about `a`: cooled down, sound, and its health value. -/
def cooledDownCheck (r : Gateway × List GatewayTransition) : Bool :=
  let s := r.1.app
  decide ("a" ∈ candidateProvidersForModel s.registry (.str "m")) &&
  decide (s.registry.isAdminDisabled "a" = false) &&
  decide ((s.rateLimiter.canServe s.now "a" (s.provider "a").config.rateLimit).1 = true) &&
  decide (∃ model ∈ resolveModelForProvider (s.provider "a") (.str "m"),
    contextExceeded (s.provider "a") model (estimateTokens (Demo.request "m")) = false) &&
  decide (capabilityScore (s.provider "a") (Demo.request "m") ≠ none) &&
  decide ((s.provider "a").circuitState = .opened ∧ (s.provider "a").cooldownUntil ≤ s.now) &&
  decide ((Gateway.checksOf "a" r.2).getLast? ≠ some false) &&
  r.2.all (fun t => decide (¬ t.before.TerminalError "a" t.action))

theorem cooledDown_of_check {r : Gateway × List GatewayTransition}
    (ok : cooledDownCheck r = true) : Gateway.Sound "a" r.2 ∧
      CooledDown Demo.scheduler r.1.app (Demo.request "m") "a" ∧
      (r.1.app.provider "a").circuitState = .opened := by
  simp only [cooledDownCheck, Bool.and_eq_true, decide_eq_true_eq, List.all_eq_true] at ok
  obtain ⟨⟨⟨⟨⟨⟨⟨candidate, enabled⟩, servable⟩, fits⟩, capable⟩, opened, elapsed⟩, checked⟩,
    noTerminal⟩ := ok
  exact ⟨⟨checked, noTerminal⟩,
    ⟨candidate, enabled, servable, fits, capable, .inl ⟨opened, elapsed, by decide⟩⟩, opened⟩

theorem readmitted_iff_after_sweep :
    ∃ ts g, GatewayRun Demo.scheduler (Demo.gateway fun _ => Demo.config [] 10) ts g ∧
      (g.app.provider "a").circuitState = .opened ∧
      (Readmitted Demo.scheduler g.app (Demo.request "m") "a" ↔
        ¬ StaleHealth (g.app.provider "a").health) := by
  have evaluated : Demo.passes (Demo.gateway fun _ => Demo.config [] 10)
      (openAndCooledDown ++ [.beginSweep .monitor, .sweep 0 (.answered (.status 200))])
      cooledDownCheck = true := by decide +kernel
  obtain ⟨ts, g, run, found⟩ := Demo.exists_run evaluated
  obtain ⟨sound, due, opened⟩ := cooledDown_of_check found
  exact ⟨ts, g, run, opened, readmitted_iff _ _ _ _ _ ts g run "a" sound _ due⟩

/-- The circuit of `a` may be tried again, and the next request is not offered `a`. -/
theorem cooled_down_stays_excluded :
    ∃ ts g, GatewayRun Demo.scheduler (Demo.gateway fun _ => Demo.config [] 10) ts g ∧
      Gateway.Sound "a" ts ∧ CooledDown Demo.scheduler g.app (Demo.request "m") "a" ∧
      (g.app.provider "a").circuitState = .opened ∧
      "a" ∉ (Demo.scheduler.eligibleDecisions g.app (Demo.request "m")).1.map
        RoutingDecision.provider := by
  have evaluated : Demo.passes (Demo.gateway fun _ => Demo.config [] 10) openAndCooledDown
      (fun r => cooledDownCheck r &&
        decide ("a" ∉ (Demo.scheduler.eligibleDecisions r.1.app (Demo.request "m")).1.map
          RoutingDecision.provider)) = true := by decide +kernel
  obtain ⟨ts, g, run, found⟩ := Demo.exists_run evaluated
  rw [Bool.and_eq_true, decide_eq_true_eq] at found
  obtain ⟨sound, due, opened⟩ := cooledDown_of_check found.1
  exact ⟨ts, g, run, sound, due, opened, found.2⟩

end Noxis
