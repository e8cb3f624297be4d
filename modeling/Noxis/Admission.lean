import Noxis.Gateway

/-! What ranking and admission do to the state, and what each resumption of a run can do.
Every invariant of the gateway is derived from these lemmas; none unfolds a loop again. -/
namespace Noxis

namespace Scheduler

theorem admitLoop_names (b : CircuitBreaker) (now : ℚ) (ds : List RoutingDecision)
    (r : ProviderRegistry) :
    (admitLoop b now ds r).2.names = r.names ∧
      (admitLoop b now ds r).2.disabledOverrides = r.disabledOverrides := by
  induction ds generalizing r with
  | nil => exact ⟨rfl, rfl⟩
  | cons d ds ih => exact ih _

theorem admitLoop_untouched (b : CircuitBreaker) (now : ℚ) {ds : List RoutingDecision}
    {name : String} (absent : name ∉ ds.map RoutingDecision.provider) (r : ProviderRegistry) :
    (admitLoop b now ds r).2.provider name = r.provider name := by
  induction ds generalizing r with
  | nil => rfl
  | cons d ds ih =>
      simp only [List.map_cons, List.mem_cons, not_or] at absent
      have tail := ih absent.2 (r.modify d.provider fun _ => (b.allowRequest now (r.provider d.provider)).2)
      rw [ProviderRegistry.modify_provider_other _ _ absent.1] at tail
      exact tail

theorem admitLoop_touched (b : CircuitBreaker) (now : ℚ) {ds : List RoutingDecision}
    (distinct : (ds.map RoutingDecision.provider).Nodup) {name : String}
    (present : name ∈ ds.map RoutingDecision.provider) (r : ProviderRegistry) :
    (admitLoop b now ds r).2.provider name = (b.allowRequest now (r.provider name)).2 := by
  induction ds generalizing r with
  | nil => simp at present
  | cons d ds ih =>
      simp only [List.map_cons, List.nodup_cons] at distinct
      simp only [List.map_cons, List.mem_cons] at present
      let r' := r.modify d.provider fun _ => (b.allowRequest now (r.provider d.provider)).2
      change (admitLoop b now ds r').2.provider name = _
      by_cases same : name = d.provider
      · subst same
        rw [admitLoop_untouched b now distinct.1 r']
        exact r.modify_provider_self _ _
      · rw [ih distinct.2 (present.resolve_left same) r',
          ProviderRegistry.modify_provider_other _ _ same]

theorem admitLoop_sublist (b : CircuitBreaker) (now : ℚ) (ds : List RoutingDecision)
    (r : ProviderRegistry) : (admitLoop b now ds r).1.Sublist ds := by
  induction ds generalizing r with
  | nil => exact .slnil
  | cons d ds ih =>
      simp only [admitLoop]
      split
      · exact (ih _).cons_cons d
      · exact (ih _).cons d

theorem admitLoop_admits (b : CircuitBreaker) (now : ℚ) {ds : List RoutingDecision}
    (distinct : (ds.map RoutingDecision.provider).Nodup) (r : ProviderRegistry)
    (d : RoutingDecision) :
    d ∈ (admitLoop b now ds r).1 ↔
      d ∈ ds ∧ (b.allowRequest now (r.provider d.provider)).1 = true := by
  induction ds generalizing r with
  | nil => simp [admitLoop]
  | cons e ds ih =>
      simp only [List.map_cons, List.nodup_cons] at distinct
      have tail := ih distinct.2 (r.modify e.provider fun _ => (b.allowRequest now (r.provider e.provider)).2)
      have later : d ∈ ds → (r.modify e.provider fun _ =>
          (b.allowRequest now (r.provider e.provider)).2).provider d.provider =
          r.provider d.provider := by
        intro member
        apply ProviderRegistry.modify_provider_other
        intro same
        exact distinct.1 (same ▸ List.mem_map_of_mem member)
      simp only [admitLoop]
      split
      · rw [List.mem_cons, List.mem_cons, tail]
        constructor
        · rintro (rfl | ⟨member, ok⟩)
          · exact ⟨.inl rfl, by assumption⟩
          · exact ⟨.inr member, by rwa [later member] at ok⟩
        · rintro ⟨rfl | member, ok⟩
          · exact .inl rfl
          · exact .inr ⟨member, by rwa [later member]⟩
      · rw [List.mem_cons, tail]
        constructor
        · rintro ⟨member, ok⟩
          exact ⟨.inr member, by rwa [later member] at ok⟩
        · rintro ⟨rfl | member, ok⟩
          · contradiction
          · exact ⟨member, by rwa [later member]⟩

/-- The effect of `_eligible_decisions`, at one clock reading: windows may be trimmed,
and `allow_request` is applied once to each ranked provider. -/
structure Admission (sch : Scheduler) (s : AppState) (request : ChatCompletionRequest)
    (ds : List RoutingDecision) (s' : AppState) : Prop where
  now : s'.now = s.now
  latencyStats : s'.latencyStats = s.latencyStats
  trims : RateLimiter.Trimmed s.now s.rateLimiter s'.rateLimiter
  names : s'.registry.names = s.registry.names
  disabled : s'.registry.disabledOverrides = s.registry.disabledOverrides
  distinct : (ds.map RoutingDecision.provider).Nodup
  candidate : ∀ d ∈ ds, d.provider ∈ candidateProvidersForModel s.registry request.model
  eligible : ∀ d ∈ ds, s.Eligible request d.provider
  resolved : ∀ d ∈ ds, resolveModelForProvider (s.provider d.provider) request.model = some d.model
  allowed : ∀ d ∈ ds, (sch.breaker.allowRequest s.now (s.provider d.provider)).1 = true
  admitted : ∀ name, name ∈ candidateProvidersForModel s.registry request.model →
    s.Eligible request name → (sch.breaker.allowRequest s.now (s.provider name)).1 = true →
    name ∈ ds.map RoutingDecision.provider
  touched : ∀ d ∈ ds, s'.provider d.provider =
    (sch.breaker.allowRequest s.now (s.provider d.provider)).2
  effect : ∀ name, s'.provider name = s.provider name ∨
    name ∈ candidateProvidersForModel s.registry request.model ∧ s.Eligible request name ∧
      s'.provider name = (sch.breaker.allowRequest s.now (s.provider name)).2

theorem eligibleDecisions_spec (sch : Scheduler) (s : AppState) (request : ChatCompletionRequest) :
    Admission sch s request (sch.eligibleDecisions s request).1
      (sch.eligibleDecisions s request).2 := by
  obtain ⟨ds, ranked, distinct, member, models⟩ := s.rank_spec request
  have trims := s.rank_trims request
  have sublist := admitLoop_sublist sch.breaker s.now ds s.registry
  have admits := admitLoop_admits sch.breaker s.now distinct s.registry
  unfold eligibleDecisions
  dsimp only
  rw [ranked]
  simp only [Option.getD_some]
  have inRank : ∀ d ∈ (admitLoop sch.breaker s.now ds s.registry).1, d ∈ ds :=
    fun d h => ((admits d).mp h).1
  have ranks : ∀ d ∈ ds, d.provider ∈ candidateProvidersForModel s.registry request.model ∧
      s.Eligible request d.provider :=
    fun d h => (member d.provider).mp (List.mem_map_of_mem h)
  refine ⟨rfl, rfl, trims, (admitLoop_names ..).1, (admitLoop_names ..).2,
    distinct.sublist (sublist.map _), fun d h => (ranks d (inRank d h)).1,
    fun d h => (ranks d (inRank d h)).2, fun d h => models d (inRank d h),
    fun d h => ((admits d).mp h).2, ?_, ?_, ?_⟩
  · intro name candidate eligible allowed
    obtain ⟨d, inList, rfl⟩ := List.mem_map.mp ((member name).mpr ⟨candidate, eligible⟩)
    exact List.mem_map_of_mem ((admits d).mpr ⟨inList, allowed⟩)
  · intro d h
    exact admitLoop_touched _ _ distinct (List.mem_map_of_mem (inRank d h)) _
  · intro name
    by_cases present : name ∈ ds.map RoutingDecision.provider
    · obtain ⟨candidate, eligible⟩ := (member name).mp present
      exact .inr ⟨candidate, eligible, admitLoop_touched _ _ distinct present _⟩
    · exact .inl (admitLoop_untouched _ _ present _)

end Scheduler
end Noxis
