import Noxis.LoadedRouter

/-! The two routers agree: on configurations whose fields have their declared types, ranking
a registry as it was loaded gives what the typed router gives. -/
namespace Noxis

theorem RateLimiter.Trimmed.snapshot_eq {now : ℚ} {limiter limiter' : RateLimiter}
    (h : RateLimiter.Trimmed now limiter limiter') (name : String) :
    (limiter'.snapshot now name).1 = (limiter.snapshot now name).1 := by
  have windows : limiter'.trimmed now name name = limiter.trimmed now name name := by
    rcases h name with same | same <;> simp [RateLimiter.trimmed, same]
  simp only [RateLimiter.snapshot, windows]

namespace AppState

variable (s : AppState) (request : ChatCompletionRequest)

section limiter
variable (fl : Rounding) {s} {limiter : RateLimiter} (h : RateLimiter.Trimmed s.now s.rateLimiter limiter)
include h

theorem reliabilityScore_trimmed (name : String) :
    (fl.reliabilityScore s.now name limiter).1 =
      (fl.reliabilityScore s.now name s.rateLimiter).1 := by
  unfold Rounding.reliabilityScore
  dsimp only
  rw [h.snapshot_eq name]
  split_ifs <;> rfl

theorem quotaScore_trimmed (name : String) (limits : RateLimitConfig) :
    (fl.quotaScore s.now name limits limiter).1 =
      (fl.quotaScore s.now name limits s.rateLimiter).1 := by
  unfold Rounding.quotaScore
  dsimp only
  rw [h.snapshot_eq name]
  split_ifs <;> rfl

end limiter

section decisions
variable (fl : Rounding)

/-- The score of a provider, from the limiter as it is before ranking. -/
def scoreOfWith (eligible : List String) (name : String) : ℚ :=
  fl.weightedSum (fl.healthScore (s.provider name)) (fl.priorityScore s.registry name eligible)
    (fl.latencyScore name s.latencyStats)
    (fl.reliabilityScore s.now name s.rateLimiter).1
    (fl.quotaScore s.now name (s.provider name).config.rateLimit s.rateLimiter).1
    ((capabilityScore (s.provider name) request).getD 0)

theorem scoreWith_eq (eligible : List String) {limiter : RateLimiter}
    (h : RateLimiter.Trimmed s.now s.rateLimiter limiter) (name : String) :
    (s.scoreWith fl request eligible limiter name).1 = s.scoreOfWith request fl eligible name := by
  have read : RateLimiter.Trimmed s.now limiter (fl.reliabilityScore s.now name limiter).2 := by
    unfold Rounding.reliabilityScore
    dsimp only
    split_ifs <;> exact limiter.snapshot_trims _ _
  have reliability := reliabilityScore_trimmed fl h name
  have quota := quotaScore_trimmed fl (h.trans read) name (s.provider name).config.rateLimit
  simp only [scoreWith, scoreOfWith, reliability, quota]

def decisionOfWith (eligible : List String) (name : String) : Option RoutingDecision :=
  (resolveModelForProvider (s.provider name) request.model).map fun model =>
    { provider := name, model, score := s.scoreOfWith request fl eligible name }

/-- The scoring loop decides about each provider on its own. -/
theorem scoreLoopWith_eq (eligible names : List String) {limiter : RateLimiter}
    (h : RateLimiter.Trimmed s.now s.rateLimiter limiter) :
    (s.scoreLoopWith fl request eligible names limiter).1 =
      names.mapM (s.decisionOfWith request fl eligible) := by
  induction names generalizing limiter with
  | nil => rfl
  | cons name rest ih =>
      have tail := ih (h.trans (s.scoreWith_trims request fl eligible limiter name))
      have score := s.scoreWith_eq request fl eligible h name
      rw [List.mapM_cons, ← tail, decisionOfWith, ← score, scoreLoopWith]
      dsimp only
      cases resolveModelForProvider (s.provider name) request.model with
      | none => rfl
      | some model =>
          cases (s.scoreLoopWith fl request eligible rest
            (s.scoreWith fl request eligible limiter name).2).1 <;> rfl

open Classical in
theorem rankWith_eq :
    let eligible := (candidateProvidersForModel s.registry request.model).filter
      fun name => decide (s.Eligible request name)
    (s.rankWith fl request).1 = (eligible.mapM (s.decisionOfWith request fl eligible)).map
      (List.insertionSort fun a b => b.score ≤ a.score) := by
  intro eligible
  have kept := s.filterLoop_eq_filter request (candidateProvidersForModel s.registry request.model)
    (RateLimiter.Trimmed.refl s.now s.rateLimiter)
  have trims := s.filterLoop_trims request (candidateProvidersForModel s.registry request.model)
    s.rateLimiter
  have decided := s.scoreLoopWith_eq request fl eligible eligible trims
  unfold rankWith
  dsimp only
  rw [kept]
  split_ifs with empty
  · have none_left : eligible = [] := empty
    rw [none_left]
    rfl
  · rw [← decided]

end decisions

/-- The score in exact arithmetic. -/
def scoreOf (eligible : List String) (name : String) : ℚ := s.scoreOfWith request id eligible name

theorem scoreOf_eq_sum (eligible : List String) (name : String) :
    s.scoreOf request eligible name = wHealth * healthScore (s.provider name)
      + wPriority * priorityScore s.registry name eligible
      + wLatency * latencyScore name s.latencyStats
      + wReliability * (reliabilityScore s.now name s.rateLimiter).1
      + wQuota * (quotaScore s.now name (s.provider name).config.rateLimit s.rateLimiter).1
      + wCapability * (capabilityScore (s.provider name) request).getD 0 := rfl

def decisionOf (eligible : List String) (name : String) : Option RoutingDecision :=
  s.decisionOfWith request id eligible name

open Classical in
theorem rank_eq :
    let eligible := (candidateProvidersForModel s.registry request.model).filter
      fun name => decide (s.Eligible request name)
    (s.rank request).1 = (eligible.mapM (s.decisionOf request eligible)).map
      (List.insertionSort fun a b => b.score ≤ a.score) :=
  s.rankWith_eq request id

end AppState

/-! ### A typed registry as a loaded one -/

def LoadedModel.ofSpec (m : ModelSpec) : LoadedModel :=
  { name := .scalar m.name, contextLength := .int m.contextLength,
    supportsStreaming := .bool m.supportsStreaming, supportsTools := .bool m.supportsTools,
    supportsVision := .bool m.supportsVision }

def LoadedConfig.ofConfig (name : String) (c : ProviderConfig) : LoadedConfig :=
  { name := .str name, providerType := c.providerType, baseUrl := .str c.baseUrl,
    apiKey := c.apiKey, enabled := .bool c.enabled, priority := .int c.priority,
    models := c.models.map .ofSpec, requiresApiKey := c.requiresApiKey,
    supportsStreaming := .bool c.supportsStreaming, supportsTools := .bool c.supportsTools,
    supportsVision := .bool c.supportsVision, rateLimit := c.rateLimit, chatPath := c.chatPath,
    modelsPath := c.modelsPath, extraHeaders := c.extraHeaders }

namespace ProviderRegistry

variable (r : ProviderRegistry)

def loadedProvider (name : String) : LoadedProvider :=
  { config := .ofConfig name (r.provider name).config, health := (r.provider name).health }

def loaded : LoadedRegistry :=
  { providers := r.names.map r.loadedProvider, disabledOverrides := r.disabledOverrides }

@[simp] theorem loaded_isAdminDisabled (name : String) :
    r.loaded.isAdminDisabled (r.loadedProvider name) = r.isAdminDisabled name := rfl

theorem loaded_enabled : r.loaded.enabled = r.enabled.map r.loadedProvider := by
  rw [LoadedRegistry.enabled, loaded, List.filter_map, enabled]
  rfl

variable (ops : Operators)

theorem loaded_resolveModel (name : String) (requested : ModelName) :
    (r.loadedProvider name).resolveModel requested =
      (resolveModelForProvider (r.provider name) requested).map Yaml.scalar := by
  unfold LoadedProvider.resolveModel resolveModelForProvider
  split_ifs
  · simp only [loadedProvider, LoadedConfig.ofConfig, List.head?_map, Option.map_map]
    rfl
  · rfl

theorem loaded_supportsModel (name : String) (model : ModelName) :
    (r.loadedProvider name).supportsModel ops (.scalar model) =
      (r.provider name).supportsModel model := by
  simp only [LoadedProvider.supportsModel, loadedProvider, LoadedConfig.ofConfig,
    List.isEmpty_map, List.any_map]
  rfl

theorem loaded_modelSpec (name : String) (model : ModelName) :
    (r.loadedProvider name).modelSpec ops (.scalar model) =
      ((r.provider name).modelSpec model).map .ofSpec := by
  simp only [LoadedProvider.modelSpec, loadedProvider, LoadedConfig.ofConfig, List.find?_map]
  rfl

theorem loaded_contextExceeded (name : String) (model : ModelName) (n : ℕ) :
    (r.loadedProvider name).contextExceeded ops (.scalar model) n =
      some (contextExceeded (r.provider name) model n) := by
  rw [LoadedProvider.contextExceeded, loaded_modelSpec, contextExceeded]
  cases (r.provider name).modelSpec model with
  | none => rfl
  | some spec =>
      have shorter : ((spec.contextLength : ℚ) < ((n : ℤ) : ℚ)) ↔ spec.contextLength < n := by
        exact_mod_cast Iff.rfl
      have lengths : ops.lt (.int spec.contextLength) (.int n) =
          some (decide (spec.contextLength < n)) :=
        congrArg some (decide_eq_decide.mpr shorter)
      have nonzero : (Yaml.int spec.contextLength).truthy = decide (spec.contextLength ≠ 0) := rfl
      simp only [Option.map_some, LoadedModel.ofSpec, lengths, nonzero]
      by_cases zero : spec.contextLength = 0 <;> simp [zero]

theorem loaded_capable (name : String) (request : ChatCompletionRequest) :
    (r.loadedProvider name).capable request =
      decide (capabilityScore (r.provider name) request ≠ none) := by
  have flags : ∀ b : Bool, (Yaml.bool b).truthy = b := fun b => rfl
  simp only [LoadedProvider.capable, loadedProvider, LoadedConfig.ofConfig, flags]
  unfold capabilityScore
  cases request.stream <;> cases (r.provider name).config.supportsStreaming <;>
    cases (request.tools.getD []).isEmpty <;> cases (r.provider name).config.supportsTools <;> rfl

/-- The candidates are the typed router's, in its order. -/
theorem loaded_candidates (model : ModelName) :
    r.loaded.candidates ops model =
      some ((candidateProvidersForModel r model).map r.loadedProvider) := by
  have byType : ∀ type : ProviderType,
      (r.enabled.map r.loadedProvider).filter (fun p => decide (p.config.providerType = type)) =
        (r.enabled.filter fun name => decide ((r.provider name).config.providerType = type)).map
          r.loadedProvider := by
    intro type
    rw [List.filter_map]
    rfl
  have numeric : ((r.enabled.map r.loadedProvider).all fun p => p.config.priority.number?.isSome) =
      true := by
    rw [List.all_map]
    exact List.all_eq_true.mpr fun _ _ => rfl
  have byPriority : (r.enabled.map r.loadedProvider).insertionSort
      (fun p q => p.config.priority.value ≤ q.config.priority.value) =
        (r.enabled.insertionSort fun a b =>
          (r.provider a).config.priority ≤ (r.provider b).config.priority).map r.loadedProvider := by
    refine (List.map_insertionSort _ _ _ _ fun a _ b _ => ?_).symm
    have values : ∀ c, (r.loadedProvider c).config.priority.value =
        ((r.provider c).config.priority : ℚ) := fun _ => rfl
    rw [values, values]
    exact_mod_cast Iff.rfl
  have bySupport : (r.enabled.map r.loadedProvider).filter
      (fun p => p.supportsModel ops (.scalar model)) =
        (r.enabled.filter fun name => (r.provider name).supportsModel model).map
          r.loadedProvider := by
    rw [List.filter_map]
    congr 1
    exact List.filter_congr fun name _ => r.loaded_supportsModel ops name model
  unfold LoadedRegistry.candidates candidateProvidersForModel
  dsimp only
  rw [loaded_enabled, byType, byType, bySupport, Operators.sortedByPriority, if_pos numeric, byPriority]
  split_ifs <;> simp_all

theorem isLeast_min {priority : String → ℤ} {names : List String} {lo : ℚ}
    (least : IsLeast {x : ℚ | ∃ n ∈ names, (priority n : ℚ) = x} lo) :
    lo = (((names.map priority).min?.getD 0 : ℤ) : ℚ) := by
  obtain ⟨⟨n, member, rfl⟩, below⟩ := least
  have found : (names.map priority).min? = some (priority n) := by
    rw [List.min?_eq_some_iff]
    refine ⟨List.mem_map_of_mem member, fun b known => ?_⟩
    obtain ⟨m, inNames, rfl⟩ := List.mem_map.mp known
    exact_mod_cast below ⟨m, inNames, rfl⟩
  rw [found]
  rfl

theorem isGreatest_max {priority : String → ℤ} {names : List String} {hi : ℚ}
    (greatest : IsGreatest {x : ℚ | ∃ n ∈ names, (priority n : ℚ) = x} hi) :
    hi = (((names.map priority).max?.getD 0 : ℤ) : ℚ) := by
  obtain ⟨⟨n, member, rfl⟩, above⟩ := greatest
  have found : (names.map priority).max? = some (priority n) := by
    rw [List.max?_eq_some_iff]
    refine ⟨List.mem_map_of_mem member, fun b known => ?_⟩
    obtain ⟨m, inNames, rfl⟩ := List.mem_map.mp known
    exact_mod_cast above ⟨m, inNames, rfl⟩
  rw [found]
  rfl

theorem loaded_priorityScore {names : List String} {name : String} (member : name ∈ names) :
    (r.loadedProvider name).priorityScore ops (names.map r.loadedProvider) =
      some (.finite (priorityScore r name names)) := by
  have known : r.loadedProvider name ∈ names.map r.loadedProvider := List.mem_map_of_mem member
  have numeric : ∀ q ∈ names.map r.loadedProvider, q.config.priority.number?.isSome := by
    intro q inList
    obtain ⟨other, -, rfl⟩ := List.mem_map.mp inList
    rfl
  obtain ⟨lo, hi, least, greatest, eq⟩ :=
    LoadedProvider.priorityScore_numbers ops known numeric
  have values : priorities (names.map r.loadedProvider) =
      {x : ℚ | ∃ n ∈ names, ((r.provider n).config.priority : ℚ) = x} := by
    ext x
    simp only [priorities, List.mem_map, Set.mem_ofPred_eq, exists_exists_and_eq_and]
    rfl
  rw [values] at least greatest
  have own : (r.loadedProvider name).config.priority.value = ((r.provider name).config.priority : ℚ) :=
    rfl
  rw [eq, own, isLeast_min least, isGreatest_max greatest, priorityScore, Rounding.priorityScore]
  simp only [id_eq]
  norm_cast

end ProviderRegistry

namespace AppState

variable (s : AppState) (ops : Operators) (request : ChatCompletionRequest)

/-- What the rate limiter and the latency table of a typed state answer. -/
def readings : LoadedProvider → Readings := fun p =>
  match p.config.name with
  | .scalar (.str name) =>
      { servable := (s.rateLimiter.canServe s.now name p.config.rateLimit).1
        latency := latencyScore name s.latencyStats
        reliability := (reliabilityScore s.now name s.rateLimiter).1
        quota := (quotaScore s.now name p.config.rateLimit s.rateLimiter).1 }
  | _ => { servable := false, latency := 0, reliability := 0, quota := 0 }

def loadedDecision (d : RoutingDecision) : LoadedDecision :=
  { provider := s.registry.loadedProvider d.provider, model := .scalar d.model,
    score := .finite d.score }

open Classical in
theorem loaded_passesFilters (name : String) :
    s.registry.loaded.passesFilters ops s.readings request (s.registry.loadedProvider name) =
      some (decide (s.Eligible request name)) := by
  have servable : (s.readings (s.registry.loadedProvider name)).servable =
      (s.rateLimiter.canServe s.now name (s.provider name).config.rateLimit).1 := rfl
  have health : (s.registry.loadedProvider name).health = (s.provider name).health := rfl
  unfold LoadedRegistry.passesFilters Eligible
  rw [servable, health, s.registry.loaded_isAdminDisabled, s.registry.loaded_resolveModel]
  split_ifs with unhealthy disabled refused
  · simp_all
  · simp_all
  · simp_all
  · simp only [Bool.not_eq_true', Bool.not_eq_false] at unhealthy disabled refused
    have same : s.registry.provider name = s.provider name := rfl
    rw [same]
    cases resolved : resolveModelForProvider (s.provider name) request.model with
    | none => simp
    | some model =>
        have exceeds := s.registry.loaded_contextExceeded ops name model (estimateTokens request)
        have capable := s.registry.loaded_capable name request
        rw [same] at exceeds capable
        simp only [Option.map_some, exceeds, capable]
        cases exceeded : contextExceeded (s.provider name) model (estimateTokens request) <;>
          simp_all

theorem loaded_decision {names : List String} {name : String} (member : name ∈ names) :
    LoadedRegistry.decision ops s.readings request (names.map s.registry.loadedProvider)
        (s.registry.loadedProvider name) =
      (s.decisionOf request names name).map s.loadedDecision := by
  have cap : (if (s.registry.loadedProvider name).capable request then (1 : ℚ) else 0) =
      (capabilityScore (s.provider name) request).getD 0 := by
    have same : s.registry.provider name = s.provider name := rfl
    rw [s.registry.loaded_capable, same]
    unfold capabilityScore
    split_ifs <;> simp_all
  have health : (s.registry.loadedProvider name).healthScore = healthScore (s.provider name) := rfl
  rw [LoadedRegistry.decision, s.registry.loaded_priorityScore ops member,
    s.registry.loaded_resolveModel, cap, health, decisionOf, decisionOfWith]
  change Option.bind ((resolveModelForProvider (s.provider name) request.model).map Yaml.scalar) _ = _
  cases resolveModelForProvider (s.provider name) request.model with
  | none => rfl
  | some model => rfl

/-- Ranking a typed registry as a loaded one gives the decisions of the typed router. -/
theorem loaded_rank :
    s.registry.loaded.rank ops s.readings request =
      (s.rank request).1.map (List.map s.loadedDecision) := by
  classical
  set eligible := (candidateProvidersForModel s.registry request.model).filter
    fun name => decide (s.Eligible request name) with eligible_eq
  have kept : PartialList.keepM (s.registry.loaded.passesFilters ops s.readings request)
      ((candidateProvidersForModel s.registry request.model).map s.registry.loadedProvider) =
        some (eligible.map s.registry.loadedProvider) := by
    rw [PartialList.keepM_eq, if_pos, List.filter_map]
    · congr 2
      refine List.filter_congr fun name _ => ?_
      simp [loaded_passesFilters]
    · intro p member
      obtain ⟨name, -, rfl⟩ := List.mem_map.mp member
      rw [loaded_passesFilters]
      rfl
  have decided : (eligible.map s.registry.loadedProvider).mapM (LoadedRegistry.decision ops s.readings
      request (eligible.map s.registry.loadedProvider)) =
        (eligible.mapM (s.decisionOf request eligible)).map (List.map s.loadedDecision) :=
    PartialList.mapM_map_map fun name member => s.loaded_decision ops request member
  rw [LoadedRegistry.rank, s.registry.loaded_candidates, rank_eq]
  change Option.bind (PartialList.keepM _ _) _ = _
  rw [kept]
  change Option.bind (List.mapM _ _) _ = _
  rw [decided]
  cases eligible.mapM (s.decisionOf request eligible) with
  | none => rfl
  | some ds =>
      have sorted : (ds.map s.loadedDecision).insertionSort
          (fun a b => a.score.less b.score = false) =
            (ds.insertionSort fun a b => b.score ≤ a.score).map s.loadedDecision := by
        refine (List.map_insertionSort _ _ _ _ fun a _ b _ => ?_).symm
        simp [loadedDecision, PyFloat.less]
      exact congrArg some sorted

end AppState

end Noxis
