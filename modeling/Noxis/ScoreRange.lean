import Noxis.Dominance
import Noxis.Library.ExponentialAverage

/-! The scores are well defined and normalised. The scoring functions are stated once more with
a division that can fail, and agree with the ones above. -/
namespace Noxis
open ExponentialAverage

/-! ### Scoring with a division that can fail -/

/-- `a / b`; `none` is a `ZeroDivisionError`. -/
def divide (a b : ℚ) : Option ℚ := if b = 0 then none else some (a / b)

theorem divide_eq_some {a b : ℚ} : divide a b = some (a / b) ↔ b ≠ 0 := by
  unfold divide
  split_ifs with zero <;> simp [zero]

/-- The least and the greatest of no priorities is a `ValueError`, and `none` here too. -/
def priorityScore? (r : ProviderRegistry) (name : String) (candidates : List String) :
    Option ℚ := do
  let priorities := candidates.map (fun c => (r.provider c).config.priority)
  let lo ← priorities.min?
  let hi ← priorities.max?
  if hi = lo then return 1
  let share ← divide (((r.provider name).config.priority - lo : ℤ) : ℚ) ((hi - lo : ℤ) : ℚ)
  return 1 - share

def latencyScore? (name : String) (latencyStats : String → Option ℚ) : Option ℚ :=
  match latencyStats name with
  | none => some (1 / 2)
  | some avg => do
      let falloff ← divide (avg - 100) 4900
      return max 0 (min 1 (1 - falloff))

def reliabilityScore? (now : ℚ) (name : String) (limiter : RateLimiter) :
    Option (ℚ × RateLimiter) :=
  let (snap, limiter) := limiter.snapshot now name
  if snap.totalRequests = 0 then some (7 / 10, limiter)
  else do
    let failureRate ← divide snap.totalFailures snap.totalRequests
    return (max 0 (1 - failureRate), limiter)

/-- `if limits.requests_per_minute: scores.append(…)`, and the same for a day. -/
def headroom? (limit : Option ℕ) (used : ℕ) : Option (List ℚ) :=
  match limit with
  | none => some []
  | some n =>
      if n = 0 then some []
      else do
        let share ← divide used n
        return [max 0 (1 - share)]

def quotaScore? (now : ℚ) (name : String) (limits : RateLimitConfig) (limiter : RateLimiter) :
    Option (ℚ × RateLimiter) :=
  let (snap, limiter) := limiter.snapshot now name
  do
    let minute ← headroom? limits.requestsPerMinute snap.requestsLastMinute
    let day ← headroom? limits.requestsPerDay snap.requestsLastDay
    let scores := minute ++ day
    if scores = [] then return (1, limiter)
    let mean ← divide scores.sum scores.length
    return (mean, limiter)

namespace AppState
variable (s : AppState) (request : ChatCompletionRequest)

def score? (eligible : List String) (limiter : RateLimiter) (name : String) :
    Option (ℚ × RateLimiter) := do
  let p := s.provider name
  let cap := (capabilityScore p request).getD 0
  let priority ← priorityScore? s.registry name eligible
  let latency ← latencyScore? name s.latencyStats
  let (reliability, limiter) ← reliabilityScore? s.now name limiter
  let (quota, limiter) ← quotaScore? s.now name p.config.rateLimit limiter
  return (wHealth * healthScore p + wPriority * priority + wLatency * latency
    + wReliability * reliability + wQuota * quota + wCapability * cap, limiter)

def scoreLoop? (eligible : List String) : List String → RateLimiter →
    Option (Option (List RoutingDecision) × RateLimiter)
  | [], limiter => some (some [], limiter)
  | name :: rest, limiter => do
      let (score, limiter) ← s.score? request eligible limiter name
      match resolveModelForProvider (s.provider name) request.model with
      | none => return (none, limiter)
      | some model =>
          let (decisions, limiter) ← scoreLoop? eligible rest limiter
          return (decisions.map (fun ds => { provider := name, model, score } :: ds), limiter)

/-- `rank`; the outer `none` is a division by zero. -/
def rank? : Option (Option (List RoutingDecision) × RateLimiter) := do
  let candidates := candidateProvidersForModel s.registry request.model
  let (eligible, limiter) := s.filterLoop request candidates s.rateLimiter
  if eligible = [] then return (some [], limiter)
  let (decisions, limiter) ← s.scoreLoop? request eligible eligible limiter
  return (decisions.map (List.insertionSort (fun a b => b.score ≤ a.score)), limiter)

end AppState

theorem priorityScore?_eq (r : ProviderRegistry) {name : String} {candidates : List String}
    (member : name ∈ candidates) :
    priorityScore? r name candidates = some (priorityScore r name candidates) := by
  have nonempty : candidates.map (fun c => (r.provider c).config.priority) ≠ [] :=
    List.ne_nil_of_mem (List.mem_map_of_mem member)
  obtain ⟨lo, least⟩ := Option.ne_none_iff_exists'.mp (mt List.min?_eq_none_iff.mp nonempty)
  obtain ⟨hi, greatest⟩ := Option.ne_none_iff_exists'.mp (mt List.max?_eq_none_iff.mp nonempty)
  unfold priorityScore? priorityScore Rounding.priorityScore
  simp only [least, greatest, Option.bind_eq_bind, Option.bind_some, Option.getD_some]
  split_ifs with same
  · rfl
  · have span : ((hi - lo : ℤ) : ℚ) ≠ 0 := by exact_mod_cast sub_ne_zero.mpr same
    rw [divide_eq_some.mpr span]
    rfl

theorem latencyScore?_eq (name : String) (latencyStats : String → Option ℚ) :
    latencyScore? name latencyStats = some (latencyScore name latencyStats) := by
  unfold latencyScore? latencyScore Rounding.latencyScore
  cases latencyStats name with
  | none => rfl
  | some avg =>
      dsimp only
      rw [divide_eq_some.mpr (by norm_num)]
      rfl

theorem reliabilityScore?_eq (now : ℚ) (name : String) (limiter : RateLimiter) :
    reliabilityScore? now name limiter = some (reliabilityScore now name limiter) := by
  unfold reliabilityScore? reliabilityScore Rounding.reliabilityScore
  dsimp only
  split_ifs with unused
  · rfl
  · rw [divide_eq_some.mpr (Nat.cast_ne_zero.mpr unused)]
    rfl

theorem headroom?_eq (limit : Option ℕ) (used : ℕ) :
    headroom? limit used = some (headroom limit used) := by
  unfold headroom? headroom
  cases limit with
  | none => rfl
  | some n =>
      dsimp only
      split_ifs with zero
      · rfl
      · rw [divide_eq_some.mpr (Nat.cast_ne_zero.mpr zero)]
        rfl

theorem quotaScore?_eq (now : ℚ) (name : String) (limits : RateLimitConfig)
    (limiter : RateLimiter) :
    quotaScore? now name limits limiter = some (quotaScore now name limits limiter) := by
  have unfolded : quotaScore now name limits limiter =
      let (snap, limiter) := limiter.snapshot now name
      let scores := headroom limits.requestsPerMinute snap.requestsLastMinute ++
        headroom limits.requestsPerDay snap.requestsLastDay
      if scores = [] then (1, limiter) else (scores.sum / scores.length, limiter) := rfl
  rw [unfolded]
  unfold quotaScore?
  simp only [headroom?_eq, Option.bind_eq_bind, Option.bind_some]
  split_ifs with empty
  · rfl
  · have length : ((headroom limits.requestsPerMinute
        (limiter.snapshot now name).1.requestsLastMinute ++
        headroom limits.requestsPerDay
          (limiter.snapshot now name).1.requestsLastDay).length : ℚ) ≠ 0 :=
      Nat.cast_ne_zero.mpr (mt List.length_eq_zero_iff.mp empty)
    rw [divide_eq_some.mpr length]
    rfl

namespace AppState
variable (s : AppState) (request : ChatCompletionRequest)

theorem score?_eq {eligible : List String} (limiter : RateLimiter) {name : String}
    (member : name ∈ eligible) :
    s.score? request eligible limiter name = some (s.score request eligible limiter name) := by
  unfold score?
  simp only [priorityScore?_eq s.registry member, latencyScore?_eq, reliabilityScore?_eq,
    quotaScore?_eq, Option.bind_eq_bind, Option.bind_some]
  rfl

theorem scoreLoop?_eq (eligible names : List String) (limiter : RateLimiter)
    (members : ∀ name ∈ names, name ∈ eligible) :
    s.scoreLoop? request eligible names limiter =
      some (s.scoreLoop request eligible names limiter) := by
  induction names generalizing limiter with
  | nil => rfl
  | cons name rest ih =>
      have tail := ih (s.score request eligible limiter name).2
        (fun other member => members other (List.mem_cons_of_mem _ member))
      unfold scoreLoop? scoreLoop scoreLoopWith
      simp only [s.score?_eq request limiter (members name List.mem_cons_self),
        Option.bind_eq_bind, Option.bind_some]
      cases resolveModelForProvider (s.provider name) request.model with
      | none => rfl
      | some model =>
          dsimp only
          rw [tail]
          rfl

/-- Ranking never divides by zero. -/
theorem rank?_eq : s.rank? request = some (s.rank request) := by
  unfold rank? rank rankWith
  dsimp only
  split_ifs
  · rfl
  · rw [s.scoreLoop?_eq request _ _ _ (fun _ member => member)]
    rfl

end AppState

/-! ### The range of each sub-score -/

theorem healthScore_mem (p : Provider) : healthScore p ∈ Set.Icc 0 1 := by
  simp only [healthScore, Rounding.healthScore, id_eq]
  split <;> norm_num

theorem priorityScore_mem (r : ProviderRegistry) {name : String} {candidates : List String}
    (member : name ∈ candidates) : priorityScore r name candidates ∈ Set.Icc 0 1 := by
  have listed := List.mem_map_of_mem (f := fun c => (r.provider c).config.priority) member
  have low := min?_getD_le listed
  have high := le_max?_getD listed
  simp only [priorityScore, Rounding.priorityScore, id_eq]
  generalize (candidates.map fun c => (r.provider c).config.priority).min?.getD 0 = lo at low ⊢
  generalize (candidates.map fun c => (r.provider c).config.priority).max?.getD 0 = hi at high ⊢
  split_ifs with same
  · norm_num
  · have span : (0 : ℚ) < ((hi - lo : ℤ) : ℚ) := by
      exact_mod_cast sub_pos.mpr (lt_of_le_of_ne (low.trans high) (Ne.symm same))
    have above : (0 : ℚ) ≤ (((r.provider name).config.priority - lo : ℤ) : ℚ) := by
      exact_mod_cast sub_nonneg.mpr low
    have within : (((r.provider name).config.priority - lo : ℤ) : ℚ) ≤ ((hi - lo : ℤ) : ℚ) := by
      exact_mod_cast sub_le_sub_right high lo
    have share := div_nonneg above span.le
    have whole := (div_le_one span).mpr within
    exact ⟨sub_nonneg.mpr whole, sub_le_self 1 share⟩

theorem latencyScore_mem (name : String) (latencyStats : String → Option ℚ) :
    latencyScore name latencyStats ∈ Set.Icc 0 1 := by
  unfold latencyScore Rounding.latencyScore
  cases latencyStats name with
  | none => norm_num
  | some avg => exact ⟨le_max_left _ _, max_le zero_le_one (min_le_left _ _)⟩

/-- A share that nothing bounds from above is still cut off at zero. -/
theorem remaining_mem {share : ℚ} (nonneg : 0 ≤ share) : max 0 (1 - share) ∈ Set.Icc 0 1 :=
  ⟨le_max_left _ _, max_le zero_le_one (sub_le_self 1 nonneg)⟩

theorem reliabilityScore_mem (now : ℚ) (name : String) (limiter : RateLimiter) :
    (reliabilityScore now name limiter).1 ∈ Set.Icc 0 1 := by
  simp only [reliabilityScore, Rounding.reliabilityScore, id_eq]
  split_ifs
  · norm_num
  · exact remaining_mem (by positivity)

theorem headroom_mem (limit : Option ℕ) (used : ℕ) : ∀ x ∈ headroom limit used, x ∈ Set.Icc 0 1 := by
  intro x member
  unfold headroom at member
  cases limit with
  | none => simp at member
  | some n =>
      dsimp only at member
      split_ifs at member
      · simp at member
      · rw [List.mem_singleton] at member
        subst member
        exact remaining_mem (by positivity)

/-- The mean of numbers in the unit interval. -/
theorem mean_mem {l : List ℚ} (inside : ∀ x ∈ l, x ∈ Set.Icc 0 1) :
    l.sum / l.length ∈ Set.Icc 0 1 := by
  have nonneg : 0 ≤ l.sum := List.sum_nonneg fun x member => (inside x member).1
  have bounded : l.sum ≤ l.length := by
    simpa using List.sum_le_card_nsmul l 1 fun x member => (inside x member).2
  exact ⟨div_nonneg nonneg (Nat.cast_nonneg _), div_le_one_of_le₀ bounded (Nat.cast_nonneg _)⟩

theorem quotaScore_mem (now : ℚ) (name : String) (limits : RateLimitConfig)
    (limiter : RateLimiter) : (quotaScore now name limits limiter).1 ∈ Set.Icc 0 1 := by
  rw [quotaScore_eq]
  dsimp only
  split_ifs
  · norm_num
  · apply mean_mem
    intro x member
    rcases List.mem_append.mp member with minute | day
    · exact headroom_mem _ _ x minute
    · exact headroom_mem _ _ x day

namespace AppState
variable (s : AppState) (request : ChatCompletionRequest)

/-- The list that the first loop of `rank` leaves to the second. -/
def eligible : List String :=
  (s.filterLoop request (candidateProvidersForModel s.registry request.model) s.rateLimiter).1

theorem mem_eligible (name : String) : name ∈ s.eligible request ↔
    name ∈ candidateProvidersForModel s.registry request.model ∧ s.Eligible request name := by
  classical
  rw [eligible, s.filterLoop_eq_filter request _ (RateLimiter.Trimmed.refl s.now _),
    List.mem_filter, decide_eq_true_eq]

/-- The sub-scores of a provider, in the order of their weights. -/
def subScores (eligible : List String) (name : String) : List ℚ :=
  [healthScore (s.provider name), priorityScore s.registry name eligible,
    latencyScore name s.latencyStats, (reliabilityScore s.now name s.rateLimiter).1,
    (quotaScore s.now name (s.provider name).config.rateLimit s.rateLimiter).1,
    (capabilityScore (s.provider name) request).getD 0]

def weights : List ℚ := [wHealth, wPriority, wLatency, wReliability, wQuota, wCapability]

theorem weights_nonneg : ∀ w ∈ weights, 0 ≤ w := by
  norm_num [weights, wHealth, wPriority, wLatency, wReliability, wQuota, wCapability]

theorem weights_sum : weights.sum = 1 := by
  norm_num [weights, wHealth, wPriority, wLatency, wReliability, wQuota, wCapability]

theorem scoreOf_eq_weighted (eligible : List String) (name : String) :
    s.scoreOf request eligible name =
      (List.zipWith (· * ·) weights (s.subScores request eligible name)).sum := by
  simp only [scoreOf_eq_sum, weights, subScores, List.zipWith_cons_cons, List.zipWith_nil_left,
    List.sum_cons, List.sum_nil]
  ring

theorem subScores_mem {eligible : List String} {name : String} (member : name ∈ eligible) :
    ∀ x ∈ s.subScores request eligible name, x ∈ Set.Icc 0 1 := by
  have capability : (capabilityScore (s.provider name) request).getD 0 ∈ Set.Icc 0 1 := by
    unfold capabilityScore
    split_ifs <;> norm_num
  simp only [subScores, List.forall_mem_cons, List.not_mem_nil, false_implies, implies_true,
    and_true]
  exact ⟨healthScore_mem _, priorityScore_mem _ member, latencyScore_mem _ _,
    reliabilityScore_mem _ _ _, quotaScore_mem _ _ _ _, capability⟩

/-- Weighing numbers of the unit interval, with weights that are not negative. -/
theorem weighted_mem {ws xs : List ℚ} (nonneg : ∀ w ∈ ws, 0 ≤ w)
    (inside : ∀ x ∈ xs, x ∈ Set.Icc 0 1) :
    (List.zipWith (· * ·) ws xs).sum ∈ Set.Icc 0 ws.sum := by
  induction ws generalizing xs with
  | nil => simp
  | cons w ws ih =>
      have weight := nonneg w List.mem_cons_self
      have others := fun v member => nonneg v (List.mem_cons_of_mem w member)
      cases xs with
      | nil => exact ⟨le_rfl, List.sum_nonneg nonneg⟩
      | cons x xs =>
          obtain ⟨low, high⟩ := inside x List.mem_cons_self
          obtain ⟨lowRest, highRest⟩ := ih others
            (fun y member => inside y (List.mem_cons_of_mem x member))
          rw [List.zipWith_cons_cons, List.sum_cons, List.sum_cons]
          exact ⟨add_nonneg (mul_nonneg weight low) lowRest,
            add_le_add (mul_le_of_le_one_right weight high) highRest⟩

theorem scoreOf_mem {eligible : List String} {name : String} (member : name ∈ eligible) :
    s.scoreOf request eligible name ∈ Set.Icc 0 1 := by
  rw [scoreOf_eq_weighted, ← weights_sum]
  exact weighted_mem weights_nonneg (s.subScores_mem request member)

/-- Every decision carries the weighted sum of the sub-scores of its provider. -/
theorem score_of_decision {ds : List RoutingDecision} (ranked : (s.rank request).1 = some ds) :
    ∀ d ∈ ds, d.provider ∈ s.eligible request ∧
      d.score = s.scoreOf request (s.eligible request) d.provider := by
  classical
  intro d member
  obtain ⟨ds', ranked', -, listed, -⟩ := s.rank_spec request
  obtain rfl := Option.some.inj (ranked'.symm.trans ranked)
  refine ⟨(s.mem_eligible request _).mpr ((listed _).mp (List.mem_map_of_mem member)), ?_⟩
  rw [eligible, s.filterLoop_eq_filter request _ (RateLimiter.Trimmed.refl s.now _)]
  exact rank_scores ranked d member

/-- Ranking divides by zero nowhere, and every score lies between 0 and 1. -/
structure Normalised : Prop where
  defined : s.rank? request = some (s.rank request)
  subScores : ∀ name ∈ s.eligible request,
    ∀ x ∈ s.subScores request (s.eligible request) name, x ∈ Set.Icc 0 1
  totals : ∀ ds, (s.rank request).1 = some ds → ∀ d ∈ ds, d.score ∈ Set.Icc 0 1

theorem normalised : s.Normalised request := by
  refine ⟨s.rank?_eq request, fun name member => s.subScores_mem request member, ?_⟩
  intro ds ranked d member
  obtain ⟨listed, score⟩ := s.score_of_decision request ranked d member
  rw [score]
  exact s.scoreOf_mem request listed

/-! ### Runs -/

/-- A call with its own reading of the clock. -/
abbrev TimedCall := ℚ × RouterCall

def readAt (now : ℚ) : AppState := { s with now }

def callAt (c : TimedCall) : AppState := ((s.readAt c.1).call c.2).2

def runAt (cs : List TimedCall) : AppState := cs.foldl callAt s

/-- A gateway that has served nothing yet. -/
def fresh (registry : ProviderRegistry) : AppState where
  now := 0
  registry
  rateLimiter := fun _ => {}
  latencyStats := fun _ => none

def observation? (name : String) (c : TimedCall) : Option ℚ :=
  match c.2 with
  | .observeLatency other latencyMs => if other = name then some latencyMs else none
  | _ => none

/-- The latencies observed of a provider, in order. -/
def observed (name : String) (cs : List TimedCall) : List ℚ := cs.filterMap (observation? name)

/-- No call but `observe_latency` writes the averages, and it writes one. -/
theorem callAt_latencyStats (c : TimedCall) (name : String) :
    (s.callAt c).latencyStats name =
      match observation? name c with
      | none => s.latencyStats name
      | some latencyMs => some (step (7 / 10 : ℚ) (s.latencyStats name) latencyMs) := by
  obtain ⟨now, call⟩ := c
  cases call with
  | observeLatency other latencyMs =>
      by_cases same : other = name
      · subst same
        simp only [callAt, AppState.call, callWith, observeLatencyWith, id_eq, readAt, observation?,
          if_true, Function.update_self]
        cases s.latencyStats other with
        | none => rfl
        | some prev =>
            simp only [step, smul_eq_mul]
            norm_num
      · simp only [callAt, AppState.call, callWith, observeLatencyWith, readAt, observation?, same,
          if_false]
        exact Function.update_of_ne (Ne.symm same) _ _
  | elapse d => rfl
  | change f => rfl
  | acquire name => rfl
  | release name => rfl
  | record429 name retryAfter => rfl
  | recordFailure name => rfl
  | canServe name limits => rfl
  | snapshot name => rfl
  | rank request => rfl

theorem runAt_latencyStats (registry : ProviderRegistry) (cs : List TimedCall) (name : String) :
    ((fresh registry).runAt cs).latencyStats name = average (7 / 10 : ℚ) (observed name cs) := by
  induction cs using List.reverseRecOn with
  | nil => rfl
  | append_singleton cs c ih =>
      have after : (fresh registry).runAt (cs ++ [c]) = ((fresh registry).runAt cs).callAt c := by
        simp only [runAt, List.foldl_append, List.foldl_cons, List.foldl_nil]
      rw [after, callAt_latencyStats, observed, List.filterMap_append]
      cases found : observation? name c with
      | none => simpa [found, observed] using ih
      | some latencyMs =>
          simp only [List.filterMap_cons, found, List.filterMap_nil, average_concat]
          rw [ih, observed]

/-- After any calls, at any readings of the clock, and for any request. -/
theorem scores_normalised (registry : ProviderRegistry) (cs : List TimedCall) (now : ℚ)
    (request : ChatCompletionRequest) :
    (((fresh registry).runAt cs).readAt now).Normalised request ∧
      ∀ name avg, ((fresh registry).runAt cs).latencyStats name = some avg →
        ∃ lo hi, (observed name cs).min? = some lo ∧ (observed name cs).max? = some hi ∧
          lo ≤ avg ∧ avg ≤ hi := by
  refine ⟨normalised _ request, fun name avg stored => ?_⟩
  rw [runAt_latencyStats] at stored
  exact average_between (by norm_num) (by norm_num) stored

end AppState

def Demo.latencies : List AppState.TimedCall :=
  [(0, .observeLatency "a" 100), (5, .observeLatency "a" 200)]

/-- Two observations of one provider, and the average that they leave. -/
theorem AppState.scores_normalised_two_latencies :
    ∃ lo hi, (observed "a" Demo.latencies).min? = some lo ∧
      (observed "a" Demo.latencies).max? = some hi ∧ lo ≤ 130 ∧ 130 ≤ hi := by
  have seen : observed "a" Demo.latencies = [100, 200] := rfl
  apply (scores_normalised Demo.ranked.registry Demo.latencies 5 (Demo.request "m")).2 "a" 130
  rw [runAt_latencyStats, seen]
  norm_num [average, step]

end Noxis
