import Noxis.Dispatch

/-! Exclusion at the moment of dispatch: an open circuit, an ineligible health or the
admin switch keep a provider out of the ranking, but nothing asks again when the loop
fails over. -/
namespace Noxis

/-- Nothing forbids a call to the provider in this state. -/
def Permitted (s : AppState) (name : String) : Prop :=
  (s.provider name).circuitState ≠ .opened ∧ eligibleHealth (s.provider name).health = true ∧
    s.registry.isAdminDisabled name = false

instance (s : AppState) (name : String) : Decidable (Permitted s name) :=
  inferInstanceAs (Decidable (_ ∧ _ ∧ _))

theorem permitted_congr (name : String) (s s' : AppState) (h : AgreesOn name s s') :
    Permitted s name ↔ Permitted s' name := by
  simp only [Permitted, ProviderRegistry.isAdminDisabled, h.provider, h.disabled]

/-- Ranking checks health and switch, admission the circuit, and neither undoes them. -/
theorem permitted_of_admission {sch : Scheduler} {s s' : AppState}
    {request : ChatCompletionRequest} {ds : List RoutingDecision}
    (admission : sch.Admission s request ds s') {d : RoutingDecision} (member : d ∈ ds) :
    Permitted s' d.provider := by
  obtain ⟨health, enabled, -⟩ := admission.eligible d member
  refine ⟨?_, ?_, ?_⟩
  · rw [admission.touched d member]
    exact sch.breaker.allowRequest_not_opened _ _ (admission.allowed d member)
  · rw [admission.touched d member, CircuitBreaker.allowRequest_health]
    exact health
  · simpa only [ProviderRegistry.isAdminDisabled, admission.disabled] using enabled

/-- Every call of a run is sent to a permitted provider if and only if every failover step
finds its next provider permitted when it starts. -/
theorem dispatches_permitted_iff (sch : Scheduler) (now : ℚ) (names : List String)
    (nodup : names.Nodup) (config : String → ProviderConfig) (ts : List GatewayTransition)
    (g : Gateway) (run : GatewayRun sch (.boot now names nodup config) ts g) :
    (∀ before attempts d call, .dispatched before attempts d call ∈ LabelledRun.eventsOf ts →
        Permitted before d.provider) ↔
      ∀ t ∈ ts, ∀ d, Gateway.failover sch t.before t.action = some d →
        Permitted t.before.app d.provider :=
  Gateway.dispatches_iff_failovers permitted_congr
    (fun _ _ _ _ admission _ member => permitted_of_admission admission member)
    (Gateway.boot_wellFormed now names nodup config) run

/-- The administrator disables `b` while the call to `a` is out. -/
def disabledMeanwhile : List Action :=
  [.begin .execute (Demo.request "m"), .setEnabled "b" false, .run 0 (Demo.fails 400)]

theorem dispatches_permitted_iff_disabled_meanwhile :
    ∃ ts g, GatewayRun Demo.scheduler (Demo.gateway fun _ => Demo.config [] 10) ts g ∧
      ((∀ before attempts d call,
          .dispatched before attempts d call ∈ LabelledRun.eventsOf ts →
            Permitted before d.provider) ↔
        ∀ t ∈ ts, ∀ d, Gateway.failover Demo.scheduler t.before t.action = some d →
          Permitted t.before.app d.provider) := by
  have possible : Demo.passes (Demo.gateway fun _ => Demo.config [] 10) disabledMeanwhile
      (fun _ => true) = true := by decide +kernel
  obtain ⟨ts, g, run, -⟩ := Demo.exists_run possible
  exact ⟨ts, g, run, dispatches_permitted_iff _ _ _ _ _ ts g run⟩

theorem dispatch_to_disabled_provider :
    ∃ ts g, GatewayRun Demo.scheduler (Demo.gateway fun _ => Demo.config [] 10) ts g ∧
      ∃ before attempts d call, .dispatched before attempts d call ∈ LabelledRun.eventsOf ts ∧
        ¬ Permitted before d.provider := by
  have evaluated : Demo.passes (Demo.gateway fun _ => Demo.config [] 10) disabledMeanwhile
      (fun r => (LabelledRun.eventsOf r.2).any (·.dispatchedTo
        fun before d => !decide (Permitted before d.provider))) = true := by decide +kernel
  obtain ⟨ts, g, run, found⟩ := Demo.exists_run evaluated
  obtain ⟨before, attempts, d, call, sent, refused⟩ := exists_dispatched found
  exact ⟨ts, g, run, before, attempts, d, call, sent, by simpa using refused⟩

end Noxis
