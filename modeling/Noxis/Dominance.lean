import Noxis.RouterSpec
import Noxis.Gateway

/-! Dominance in ranking: a provider that is at least as good in everything the score looks at
scores at least as much, whatever the other candidates are. One lemma for each sub-score. -/
namespace Noxis

/-- `p` is at least as good as `q` in everything that the score looks at. -/
structure AppState.AtLeastAsGood (s : AppState) (p q : String) : Prop where
  health : (s.provider p).health = .healthy ∨ (s.provider q).health ≠ .healthy
  priority : (s.provider p).config.priority ≤ (s.provider q).config.priority
  latency : (∃ a b, s.latencyStats p = some a ∧ s.latencyStats q = some b ∧ a ≤ b) ∨
    s.latencyStats p = none ∧ s.latencyStats q = none
  failures : (0 < (s.rateLimiter p).totalRequests ∧ 0 < (s.rateLimiter q).totalRequests ∧
      ((s.rateLimiter p).totalFailures : ℚ) / (s.rateLimiter p).totalRequests ≤
        ((s.rateLimiter q).totalFailures : ℚ) / (s.rateLimiter q).totalRequests) ∨
    (s.rateLimiter p).totalRequests = 0 ∧ (s.rateLimiter q).totalRequests = 0
  requestsPerMinute : (s.provider p).config.rateLimit.requestsPerMinute =
    (s.provider q).config.rateLimit.requestsPerMinute
  requestsPerDay : (s.provider p).config.rateLimit.requestsPerDay =
    (s.provider q).config.rateLimit.requestsPerDay
  lastMinute : (s.rateLimiter p).requestsLastMinute s.now ≤
    (s.rateLimiter q).requestsLastMinute s.now
  lastDay : (s.rateLimiter p).requestsLastDay s.now ≤ (s.rateLimiter q).requestsLastDay s.now

/-! ### The sub-scores -/

theorem healthScore_mono {p q : Provider} (fit : eligibleHealth p.health = true)
    (better : p.health = .healthy ∨ q.health ≠ .healthy) : healthScore q ≤ healthScore p := by
  rcases better with healthy | other
  · simp only [healthScore, Rounding.healthScore, id_eq, healthy]
    split <;> norm_num
  · have least : (4 / 10 : ℚ) ≤ healthScore p := by
      rcases of_decide_eq_true fit with healthy | unknown
      · simp only [healthScore, Rounding.healthScore, healthy]
        norm_num
      · simp only [healthScore, Rounding.healthScore, id_eq, unknown, le_refl]
    refine le_trans ?_ least
    simp only [healthScore, Rounding.healthScore, id_eq]
    split
    · exact absurd ‹_› other
    · exact le_rfl
    · norm_num

section priority

theorem min?_getD_le {l : List ℤ} {x : ℤ} (member : x ∈ l) : l.min?.getD 0 ≤ x := by
  cases found : l.min? with
  | none => exact absurd (List.min?_eq_none_iff.mp found) (List.ne_nil_of_mem member)
  | some lo => exact (List.min?_eq_some_iff.mp found).2 x member

theorem le_max?_getD {l : List ℤ} {x : ℤ} (member : x ∈ l) : x ≤ l.max?.getD 0 := by
  cases found : l.max? with
  | none => exact absurd (List.max?_eq_none_iff.mp found) (List.ne_nil_of_mem member)
  | some hi => exact (List.max?_eq_some_iff.mp found).2 x member

variable {r : ProviderRegistry} {candidates : List String} {p q : String}
  (memberP : p ∈ candidates)
include memberP

/-- The normalisation is relative to the candidates but the same for both providers. -/
theorem priorityScore_mono
    (le : (r.provider p).config.priority ≤ (r.provider q).config.priority) :
    priorityScore r q candidates ≤ priorityScore r p candidates := by
  have listed := List.mem_map_of_mem (f := fun c => (r.provider c).config.priority) memberP
  have ordered := (min?_getD_le listed).trans (le_max?_getD listed)
  simp only [priorityScore, Rounding.priorityScore, id_eq]
  split_ifs
  · exact le_rfl
  · have width : (0 : ℚ) ≤ (((candidates.map fun c => (r.provider c).config.priority).max?.getD 0 -
        (candidates.map fun c => (r.provider c).config.priority).min?.getD 0 : ℤ) : ℚ) := by
      exact_mod_cast sub_nonneg.mpr ordered
    gcongr

theorem priorityScore_strictMono (memberQ : q ∈ candidates)
    (lt : (r.provider p).config.priority < (r.provider q).config.priority) :
    priorityScore r q candidates < priorityScore r p candidates := by
  have low := min?_getD_le
    (List.mem_map_of_mem (f := fun c => (r.provider c).config.priority) memberP)
  have high := le_max?_getD
    (List.mem_map_of_mem (f := fun c => (r.provider c).config.priority) memberQ)
  simp only [priorityScore, Rounding.priorityScore, id_eq]
  rw [if_neg (by omega), if_neg (by omega)]
  have width : (0 : ℚ) < (((candidates.map fun c => (r.provider c).config.priority).max?.getD 0 -
      (candidates.map fun c => (r.provider c).config.priority).min?.getD 0 : ℤ) : ℚ) := by
    exact_mod_cast sub_pos.mpr ((low.trans_lt lt).trans_le high)
  gcongr

end priority

theorem latencyScore_mono {stats : String → Option ℚ} {p q : String}
    (faster : (∃ a b, stats p = some a ∧ stats q = some b ∧ a ≤ b) ∨
      stats p = none ∧ stats q = none) : latencyScore q stats ≤ latencyScore p stats := by
  rcases faster with ⟨a, b, observedP, observedQ, le⟩ | ⟨noneP, noneQ⟩
  · simp only [latencyScore, Rounding.latencyScore, id_eq, observedP, observedQ]
    gcongr
  · simp only [latencyScore, Rounding.latencyScore, noneP, noneQ, le_refl]

section limiter
variable {now : ℚ} {limiter : RateLimiter} {p q : String}

theorem reliabilityScore_mono (now : ℚ)
    (fewer : (0 < (limiter p).totalRequests ∧ 0 < (limiter q).totalRequests ∧
        ((limiter p).totalFailures : ℚ) / (limiter p).totalRequests ≤
          ((limiter q).totalFailures : ℚ) / (limiter q).totalRequests) ∨
      (limiter p).totalRequests = 0 ∧ (limiter q).totalRequests = 0) :
    (reliabilityScore now q limiter).1 ≤ (reliabilityScore now p limiter).1 := by
  have totals : ∀ name, (limiter.snapshot now name).1.totalRequests = (limiter name).totalRequests ∧
      (limiter.snapshot now name).1.totalFailures = (limiter name).totalFailures := by
    intro name
    simp [RateLimiter.snapshot, RateLimiter.trimmed]
  simp only [reliabilityScore, Rounding.reliabilityScore, id_eq]
  rw [(totals p).1, (totals p).2, (totals q).1, (totals q).2]
  rcases fewer with ⟨usedP, usedQ, ratio⟩ | ⟨freshP, freshQ⟩
  · rw [if_neg usedP.ne', if_neg usedQ.ne']
    dsimp only
    gcongr
  · rw [if_pos freshP, if_pos freshQ]

/-- What is left of one budget, if there is one. -/
def headroom (limit : Option ℕ) (used : ℕ) : List ℚ :=
  match limit with
  | none => []
  | some n => if n = 0 then [] else [max 0 (1 - (used : ℚ) / n)]

theorem headroom_length (limit : Option ℕ) (used used' : ℕ) :
    (headroom limit used).length = (headroom limit used').length := by
  cases limit with
  | none => rfl
  | some n =>
      unfold headroom
      dsimp only
      split_ifs <;> rfl

theorem headroom_sum_anti (limit : Option ℕ) {used used' : ℕ} (le : used ≤ used') :
    (headroom limit used').sum ≤ (headroom limit used).sum := by
  cases limit with
  | none => exact le_rfl
  | some n =>
      unfold headroom
      dsimp only
      split_ifs
      · exact le_rfl
      · rw [List.sum_singleton, List.sum_singleton]
        gcongr

theorem quotaScore_eq (limits : RateLimitConfig) :
    (quotaScore now p limits limiter).1 =
      let scores := headroom limits.requestsPerMinute ((limiter p).requestsLastMinute now) ++
        headroom limits.requestsPerDay ((limiter p).requestsLastDay now)
      if scores = [] then 1 else scores.sum / scores.length := by
  have minute : (limiter.snapshot now p).1.requestsLastMinute =
      (limiter p).requestsLastMinute now := by
    simp [RateLimiter.snapshot, RateLimiter.trimmed, ProviderUsageWindow.requestsLastMinute]
  have day : (limiter.snapshot now p).1.requestsLastDay = (limiter p).requestsLastDay now := by
    simp [RateLimiter.snapshot, RateLimiter.trimmed, ProviderUsageWindow.requestsLastDay]
  unfold quotaScore Rounding.quotaScore
  dsimp only
  rw [minute, day, apply_ite Prod.fst]
  rfl

/-- As many sub-scores on both sides, each at least as large. -/
theorem quotaScore_mono {limits limits' : RateLimitConfig}
    (perMinute : limits.requestsPerMinute = limits'.requestsPerMinute)
    (perDay : limits.requestsPerDay = limits'.requestsPerDay)
    (lastMinute : (limiter p).requestsLastMinute now ≤ (limiter q).requestsLastMinute now)
    (lastDay : (limiter p).requestsLastDay now ≤ (limiter q).requestsLastDay now) :
    (quotaScore now q limits' limiter).1 ≤ (quotaScore now p limits limiter).1 := by
  have minute := headroom_sum_anti limits'.requestsPerMinute lastMinute
  have day := headroom_sum_anti limits'.requestsPerDay lastDay
  have minutes := headroom_length limits'.requestsPerMinute
    ((limiter q).requestsLastMinute now) ((limiter p).requestsLastMinute now)
  have days := headroom_length limits'.requestsPerDay
    ((limiter q).requestsLastDay now) ((limiter p).requestsLastDay now)
  rw [quotaScore_eq, quotaScore_eq, perMinute, perDay]
  dsimp only
  simp only [← List.length_eq_zero_iff, List.length_append, List.sum_append, minutes, days]
  split_ifs
  · exact le_rfl
  · gcongr

end limiter

namespace AppState

variable {s : AppState} {request : ChatCompletionRequest} {p q : String}

theorem capabilityScore_eligible {name : String} (h : s.Eligible request name) :
    capabilityScore (s.provider name) request = some 1 := by
  have capable := h.2.2.2.2
  unfold capabilityScore at capable ⊢
  split_ifs at capable ⊢ <;> simp_all

section dominance
variable (eligible : List String) (eligibleP : s.Eligible request p) (eligibleQ : s.Eligible request q)
  (better : s.AtLeastAsGood p q)
include eligibleP eligibleQ better

/-- All sub-scores but the one for the priority. -/
theorem scoreOf_sub_priority_mono :
    s.scoreOf request eligible q - wPriority * priorityScore s.registry q eligible ≤
      s.scoreOf request eligible p - wPriority * priorityScore s.registry p eligible := by
  have health := healthScore_mono eligibleP.1 better.health
  have latency := latencyScore_mono better.latency
  have reliability := reliabilityScore_mono s.now better.failures
  have quota := quotaScore_mono better.requestsPerMinute better.requestsPerDay better.lastMinute
    better.lastDay
  have weights : 0 ≤ wHealth ∧ 0 ≤ wLatency ∧ 0 ≤ wReliability ∧ 0 ≤ wQuota := by
    norm_num [wHealth, wLatency, wReliability, wQuota]
  obtain ⟨h₁, h₂, h₃, h₄⟩ := weights
  have total := add_le_add (add_le_add (mul_le_mul_of_nonneg_left health h₁)
    (mul_le_mul_of_nonneg_left latency h₂)) (add_le_add
      (mul_le_mul_of_nonneg_left reliability h₃) (mul_le_mul_of_nonneg_left quota h₄))
  rw [scoreOf_eq_sum, scoreOf_eq_sum, capabilityScore_eligible eligibleP, capabilityScore_eligible eligibleQ]
  linarith only [total]

variable {eligible}

theorem scoreOf_mono (listed : p ∈ eligible) :
    s.scoreOf request eligible q ≤ s.scoreOf request eligible p := by
  have others := scoreOf_sub_priority_mono eligible eligibleP eligibleQ better
  have priority : wPriority * priorityScore s.registry q eligible ≤
      wPriority * priorityScore s.registry p eligible :=
    mul_le_mul_of_nonneg_left (priorityScore_mono listed better.priority) (by norm_num [wPriority])
  linarith only [others, priority]

theorem scoreOf_strictMono (listedP : p ∈ eligible) (listedQ : q ∈ eligible)
    (preferred : (s.provider p).config.priority < (s.provider q).config.priority) :
    s.scoreOf request eligible q < s.scoreOf request eligible p := by
  have others := scoreOf_sub_priority_mono eligible eligibleP eligibleQ better
  have priority : wPriority * priorityScore s.registry q eligible <
      wPriority * priorityScore s.registry p eligible :=
    mul_lt_mul_of_pos_left (priorityScore_strictMono listedP listedQ preferred)
      (by norm_num [wPriority])
  linarith only [others, priority]

end dominance

open Classical in
/-- Every score of the ranked list is taken relative to the same eligible candidates. -/
theorem rank_scores {ds : List RoutingDecision} (ranked : (s.rank request).1 = some ds) :
    ∀ d ∈ ds, d.score = s.scoreOf request
      ((candidateProvidersForModel s.registry request.model).filter
        fun name => decide (s.Eligible request name)) d.provider := by
  rw [AppState.rank_eq, Option.map_eq_some_iff] at ranked
  obtain ⟨unsorted, decided, rfl⟩ := ranked
  intro d member
  obtain ⟨name, -, made⟩ := PartialList.mem_of_mapM decided ((List.mem_insertionSort _).mp member)
  obtain ⟨model, -, rfl⟩ := Option.map_eq_some_iff.mp made
  rfl

/-- Dominance: at least as good means at least the score, and a smaller priority number on top
of that means an earlier place. -/
theorem dominance (candidateP : p ∈ candidateProvidersForModel s.registry request.model)
    (candidateQ : q ∈ candidateProvidersForModel s.registry request.model)
    (eligibleP : s.Eligible request p) (eligibleQ : s.Eligible request q)
    (better : s.AtLeastAsGood p q) :
    ∃ ds, (s.rank request).1 = some ds ∧
      (∃ dp ∈ ds, dp.provider = p) ∧ (∃ dq ∈ ds, dq.provider = q) ∧
      (∀ dp ∈ ds, ∀ dq ∈ ds, dp.provider = p → dq.provider = q → dq.score ≤ dp.score) ∧
      ((s.provider p).config.priority < (s.provider q).config.priority →
        [p, q].Sublist (ds.map RoutingDecision.provider)) := by
  classical
  obtain ⟨ds, ranked, -, listed, -⟩ := s.rank_spec request
  have sorted := s.rankWith_pairwise request id ranked
  obtain ⟨dp, inP, rfl⟩ := List.mem_map.mp ((listed p).mpr ⟨candidateP, eligibleP⟩)
  obtain ⟨dq, inQ, rfl⟩ := List.mem_map.mp ((listed q).mpr ⟨candidateQ, eligibleQ⟩)
  have scores := rank_scores ranked
  set eligible := (candidateProvidersForModel s.registry request.model).filter
    fun name => decide (s.Eligible request name)
  have keptP : dp.provider ∈ eligible :=
    List.mem_filter.mpr ⟨candidateP, decide_eq_true eligibleP⟩
  have keptQ : dq.provider ∈ eligible :=
    List.mem_filter.mpr ⟨candidateQ, decide_eq_true eligibleQ⟩
  refine ⟨ds, ranked, ⟨dp, inP, rfl⟩, ⟨dq, inQ, rfl⟩, ?_, fun preferred => ?_⟩
  · intro d member d' member' same same'
    rw [scores d member, scores d' member', same, same']
    exact scoreOf_mono eligibleP eligibleQ better keptP
  · have less : dq.score < dp.score := by
      rw [scores dp inP, scores dq inQ]
      exact scoreOf_strictMono eligibleP eligibleQ better keptP keptQ preferred
    have byScore : ds.Pairwise fun a b => b.score ≤ a.score := sorted.imp And.left
    have first := StableSort.pair_sublist byScore inP inQ (fun same => less.ne (same ▸ rfl))
      (not_le.mpr less)
    exact first.map RoutingDecision.provider

end AppState

/-- The second provider has the larger priority number. -/
def Demo.ranked : AppState :=
  (Demo.gateway fun name => { Demo.config [] 10 with priority := if name = "a" then 1 else 2 }).app

theorem AppState.dominance_two_providers :
    ∃ ds, (Demo.ranked.rank (Demo.request "m")).1 = some ds ∧
      (∃ dp ∈ ds, dp.provider = "a") ∧ (∃ dq ∈ ds, dq.provider = "b") ∧
      (∀ dp ∈ ds, ∀ dq ∈ ds, dp.provider = "a" → dq.provider = "b" → dq.score ≤ dp.score) ∧
      ((Demo.ranked.provider "a").config.priority < (Demo.ranked.provider "b").config.priority →
        ["a", "b"].Sublist (ds.map RoutingDecision.provider)) := by
  have fits : ∀ name ∈ ["a", "b"], Demo.ranked.Eligible (Demo.request "m") name := by
    intro name member
    refine ⟨rfl, rfl, rfl, ⟨"m", rfl, rfl⟩, ?_⟩
    exact capabilityScore_ne_none.mpr ⟨fun streamed => absurd streamed Bool.false_ne_true,
      fun needed => absurd rfl needed⟩
  refine dominance (by decide) (by decide) (fits "a" (by simp)) (fits "b" (by simp)) ?_
  exact
    { health := .inr (by decide)
      priority := by decide
      latency := .inr ⟨rfl, rfl⟩
      failures := .inr ⟨rfl, rfl⟩
      requestsPerMinute := rfl
      requestsPerDay := rfl
      lastMinute := le_rfl
      lastDay := le_rfl }

end Noxis
