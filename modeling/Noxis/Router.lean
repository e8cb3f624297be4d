import Noxis.ModelRegistry
import Noxis.RateLimiter
import Noxis.Schemas

/-! The router: hard filters, weighted scoring, and a stable descending sort.
Both loops read the rate limiter, whose reads trim windows, so the limiter is passed on. -/
namespace Noxis

/-- The objects that live in the application state and change while it runs, with the
reading of the clock. -/
structure AppState where
  now : ℚ
  registry : ProviderRegistry
  rateLimiter : RateLimiter
  latencyStats : String → Option ℚ

structure RoutingDecision where
  provider : String
  model : ModelName
  score : ℚ
  deriving DecidableEq

def eligibleHealth (h : ProviderHealth) : Bool := decide (h = .healthy ∨ h = .unknown)

def wHealth : ℚ := 30 / 100
def wPriority : ℚ := 15 / 100
def wLatency : ℚ := 15 / 100
def wReliability : ℚ := 20 / 100
def wQuota : ℚ := 15 / 100
def wCapability : ℚ := 5 / 100

/-- Only string contents count; a list of parts contributes nothing. -/
def contentChars (m : ChatMessage) : ℕ :=
  match m.content with
  | some (.text s) => s.length
  | _ => 0

def estimateTokens (request : ChatCompletionRequest) : ℕ :=
  max 1 ((request.messages.map contentChars).sum / 4) + request.maxTokens.getD 0

/-- What an operation on floats makes of its exact result. Nothing is assumed about it; `id`
computes exactly. -/
abbrev Rounding := ℚ → ℚ

namespace Rounding

variable (fl : Rounding)

def healthScore (p : Provider) : ℚ :=
  match p.health with
  | .healthy => 1
  | .unknown => fl (4 / 10)
  | _ => 0

/-- Python rounds the quotient of two integers once. -/
def priorityScore (r : ProviderRegistry) (name : String) (candidates : List String) : ℚ :=
  let priorities := candidates.map (fun c => (r.provider c).config.priority)
  let lo := priorities.min?.getD 0
  let hi := priorities.max?.getD 0
  if hi = lo then 1
  else fl (1 - fl ((((r.provider name).config.priority - lo : ℤ) : ℚ) / ((hi - lo : ℤ) : ℚ)))

def latencyScore (name : String) (latencyStats : String → Option ℚ) : ℚ :=
  match latencyStats name with
  | none => 1 / 2
  | some avg => max 0 (min 1 (fl (1 - fl (fl (avg - 100) / 4900))))

def reliabilityScore (now : ℚ) (name : String) (limiter : RateLimiter) : ℚ × RateLimiter :=
  let (snap, limiter) := limiter.snapshot now name
  if snap.totalRequests = 0 then (fl (7 / 10), limiter)
  else (max 0 (fl (1 - fl ((snap.totalFailures : ℚ) / snap.totalRequests))), limiter)

/-- A limit that is missing or zero contributes no sub-score. -/
def quotaScore (now : ℚ) (name : String) (limits : RateLimitConfig) (limiter : RateLimiter) :
    ℚ × RateLimiter :=
  let (snap, limiter) := limiter.snapshot now name
  let part (limit : Option ℕ) (used : ℕ) : List ℚ :=
    match limit with
    | none => []
    | some n => if n = 0 then [] else [max 0 (fl (1 - fl ((used : ℚ) / n)))]
  let scores := part limits.requestsPerMinute snap.requestsLastMinute ++
    part limits.requestsPerDay snap.requestsLastDay
  if scores = [] then (1, limiter) else (fl (fl scores.sum / scores.length), limiter)

/-- The sum of the six weighted sub-scores, from the left. -/
def weightedSum (health priority latency reliability quota capability : ℚ) : ℚ :=
  let part (weight subScore : ℚ) : ℚ := fl (fl weight * subScore)
  fl (fl (fl (fl (fl (part wHealth health + part wPriority priority) + part wLatency latency)
    + part wReliability reliability) + part wQuota quota) + part wCapability capability)

end Rounding

/-! In exact arithmetic. -/

def healthScore (p : Provider) : ℚ := Rounding.healthScore id p

def priorityScore (r : ProviderRegistry) (name : String) (candidates : List String) : ℚ :=
  Rounding.priorityScore id r name candidates

def latencyScore (name : String) (latencyStats : String → Option ℚ) : ℚ :=
  Rounding.latencyScore id name latencyStats

def reliabilityScore (now : ℚ) (name : String) (limiter : RateLimiter) : ℚ × RateLimiter :=
  Rounding.reliabilityScore id now name limiter

def quotaScore (now : ℚ) (name : String) (limits : RateLimitConfig) (limiter : RateLimiter) :
    ℚ × RateLimiter :=
  Rounding.quotaScore id now name limits limiter

/-- `None` excludes the provider. Vision is not asked for. -/
def capabilityScore (p : Provider) (request : ChatCompletionRequest) : Option ℚ :=
  if request.stream && !p.config.supportsStreaming then none
  else if !(request.tools.getD []).isEmpty && !p.config.supportsTools then none
  else some 1

/-- An alias resolves to the first configured model, or to nothing. -/
def resolveModelForProvider (p : Provider) (requested : ModelName) : Option ModelName :=
  if isAlias requested then p.config.models.head?.map ModelSpec.name else some requested

/-- The context-length filter; a zero length means no limit. -/
def contextExceeded (p : Provider) (model : ModelName) (estTokens : ℕ) : Bool :=
  match p.modelSpec model with
  | none => false
  | some spec => decide (spec.contextLength ≠ 0) && decide (spec.contextLength < estTokens)

namespace AppState

variable (s : AppState)

def provider (name : String) : Provider := s.registry.provider name

/-- The hard filters of one provider, in the order in which `rank` applies them. -/
def passesFilters (request : ChatCompletionRequest) (limiter : RateLimiter) (name : String) :
    Bool × RateLimiter :=
  let p := s.provider name
  if !eligibleHealth p.health then (false, limiter)
  else if s.registry.isAdminDisabled name then (false, limiter)
  else
    let (servable, limiter) := limiter.canServe s.now name p.config.rateLimit
    if !servable then (false, limiter)
    else match resolveModelForProvider p request.model with
      | none => (false, limiter)
      | some model =>
          if contextExceeded p model (estimateTokens request) then (false, limiter)
          else (capabilityScore p request ≠ none, limiter)

/-- First loop of `rank`. -/
def filterLoop (request : ChatCompletionRequest) : List String → RateLimiter →
    List String × RateLimiter
  | [], limiter => ([], limiter)
  | name :: rest, limiter =>
      let (keep, limiter) := s.passesFilters request limiter name
      let (eligible, limiter) := filterLoop request rest limiter
      (if keep then name :: eligible else eligible, limiter)

section scoring
variable (fl : Rounding)

def scoreWith (request : ChatCompletionRequest) (eligible : List String) (limiter : RateLimiter)
    (name : String) : ℚ × RateLimiter :=
  let p := s.provider name
  let cap := (capabilityScore p request).getD 0
  let (reliability, limiter) := fl.reliabilityScore s.now name limiter
  let (quota, limiter) := fl.quotaScore s.now name p.config.rateLimit limiter
  (fl.weightedSum (fl.healthScore p) (fl.priorityScore s.registry name eligible)
    (fl.latencyScore name s.latencyStats) reliability quota cap, limiter)

/-- Second loop of `rank`; `none` is the failed assertion on the model name. -/
def scoreLoopWith (request : ChatCompletionRequest) (eligible : List String) : List String →
    RateLimiter → Option (List RoutingDecision) × RateLimiter
  | [], limiter => (some [], limiter)
  | name :: rest, limiter =>
      let (score, limiter) := s.scoreWith fl request eligible limiter name
      match resolveModelForProvider (s.provider name) request.model with
      | none => (none, limiter)
      | some model =>
          let (decisions, limiter) := scoreLoopWith request eligible rest limiter
          (decisions.map (fun ds => { provider := name, model, score } :: ds), limiter)

/-- Stable, best score first; `none` is an `AssertionError`. -/
def rankWith (request : ChatCompletionRequest) : Option (List RoutingDecision) × RateLimiter :=
  let candidates := candidateProvidersForModel s.registry request.model
  let (eligible, limiter) := s.filterLoop request candidates s.rateLimiter
  if eligible = [] then (some [], limiter)
  else
    let (decisions, limiter) := s.scoreLoopWith fl request eligible eligible limiter
    (decisions.map (List.insertionSort (fun a b => b.score ≤ a.score)), limiter)

def observeLatencyWith (name : String) (latencyMs : ℚ) : AppState :=
  { s with latencyStats := Function.update s.latencyStats name (some
      (match s.latencyStats name with
        | none => latencyMs
        | some prev => fl (fl (fl (7 / 10) * prev) + fl (fl (3 / 10) * latencyMs)))) }

end scoring

/-! The gateway is followed in exact arithmetic. -/

def score (request : ChatCompletionRequest) (eligible : List String) (limiter : RateLimiter)
    (name : String) : ℚ × RateLimiter := s.scoreWith id request eligible limiter name

def scoreLoop (request : ChatCompletionRequest) (eligible names : List String)
    (limiter : RateLimiter) : Option (List RoutingDecision) × RateLimiter :=
  s.scoreLoopWith id request eligible names limiter

def rank (request : ChatCompletionRequest) : Option (List RoutingDecision) × RateLimiter :=
  s.rankWith id request

def observeLatency (name : String) (latencyMs : ℚ) : AppState :=
  s.observeLatencyWith id name latencyMs

/-! ### What the filters keep -/

/-- The hard filters as one predicate on the state before ranking. -/
def Eligible (request : ChatCompletionRequest) (name : String) : Prop :=
  eligibleHealth (s.provider name).health = true ∧
  s.registry.isAdminDisabled name = false ∧
  (s.rateLimiter.canServe s.now name (s.provider name).config.rateLimit).1 = true ∧
  (∃ model, resolveModelForProvider (s.provider name) request.model = some model ∧
    contextExceeded (s.provider name) model (estimateTokens request) = false) ∧
  capabilityScore (s.provider name) request ≠ none

variable (request : ChatCompletionRequest)

theorem passesFilters_trims (limiter : RateLimiter) (name : String) :
    RateLimiter.Trimmed s.now limiter (s.passesFilters request limiter name).2 := by
  unfold passesFilters
  dsimp only
  split_ifs
  · exact .refl _ _
  · exact .refl _ _
  · exact limiter.canServe_trims _ _ _
  · split
    · exact limiter.canServe_trims _ _ _
    · split_ifs <;> exact limiter.canServe_trims _ _ _

variable {s} in
theorem passesFilters_iff {limiter : RateLimiter} (name : String)
    (h : RateLimiter.Trimmed s.now s.rateLimiter limiter) :
    (s.passesFilters request limiter name).1 = true ↔ s.Eligible request name := by
  unfold passesFilters Eligible
  dsimp only
  rw [h.canServe_eq]
  split_ifs with health disabled servable
  · simp_all
  · simp_all
  · simp_all
  · simp only [Bool.not_eq_true', Bool.not_eq_false] at health disabled servable
    cases resolved : resolveModelForProvider (s.provider name) request.model with
    | none => simp
    | some model =>
        by_cases exceeded : contextExceeded (s.provider name) model (estimateTokens request)
        · simp [exceeded]
        · simp [exceeded, health, disabled, servable]

theorem filterLoop_trims (candidates : List String) (limiter : RateLimiter) :
    RateLimiter.Trimmed s.now limiter (s.filterLoop request candidates limiter).2 := by
  induction candidates generalizing limiter with
  | nil => exact .refl _ _
  | cons name rest ih => exact (s.passesFilters_trims request limiter name).trans (ih _)

open Classical in
theorem filterLoop_eq_filter (candidates : List String) {limiter : RateLimiter}
    (h : RateLimiter.Trimmed s.now s.rateLimiter limiter) :
    (s.filterLoop request candidates limiter).1 =
      candidates.filter (fun name => decide (s.Eligible request name)) := by
  induction candidates generalizing limiter with
  | nil => rfl
  | cons name rest ih =>
      have tail := ih (h.trans (s.passesFilters_trims request limiter name))
      have keeps := passesFilters_iff request name h
      by_cases eligible : s.Eligible request name
      · simp [filterLoop, keeps.mpr eligible, eligible, tail]
      · have dropped : (s.passesFilters request limiter name).1 = false := by
          rw [← Bool.not_eq_true, keeps]
          exact eligible
        simp [filterLoop, dropped, eligible, tail]

variable (fl : Rounding)

theorem scoreWith_trims (eligible : List String) (limiter : RateLimiter) (name : String) :
    RateLimiter.Trimmed s.now limiter (s.scoreWith fl request eligible limiter name).2 := by
  have reliability :
      RateLimiter.Trimmed s.now limiter (fl.reliabilityScore s.now name limiter).2 := by
    unfold Rounding.reliabilityScore
    dsimp only
    split_ifs <;> exact limiter.snapshot_trims _ _
  apply reliability.trans
  unfold scoreWith Rounding.quotaScore
  dsimp only
  split_ifs <;> exact RateLimiter.snapshot_trims _ _ _

theorem scoreLoopWith_trims (eligible names : List String) (limiter : RateLimiter) :
    RateLimiter.Trimmed s.now limiter (s.scoreLoopWith fl request eligible names limiter).2 := by
  induction names generalizing limiter with
  | nil => exact .refl _ _
  | cons name rest ih =>
      have first := s.scoreWith_trims request fl eligible limiter name
      unfold scoreLoopWith
      dsimp only
      split
      · exact first
      · exact first.trans (ih _)

/-- Scoring keeps the names and order and never fails its assertion on names that resolve. -/
theorem scoreLoopWith_spec (eligible names : List String) (limiter : RateLimiter)
    (resolves : ∀ name ∈ names,
      ∃ model, resolveModelForProvider (s.provider name) request.model = some model) :
    ∃ ds, (s.scoreLoopWith fl request eligible names limiter).1 = some ds ∧
      ds.map RoutingDecision.provider = names ∧
      ∀ d ∈ ds, resolveModelForProvider (s.provider d.provider) request.model = some d.model := by
  induction names generalizing limiter with
  | nil => exact ⟨[], rfl, rfl, by simp⟩
  | cons name rest ih =>
      obtain ⟨model, resolved⟩ := resolves name (by simp)
      obtain ⟨ds, eq, names_eq, models⟩ := ih (s.scoreWith fl request eligible limiter name).2
        (fun other member => resolves other (List.mem_cons_of_mem _ member))
      refine ⟨{ provider := name, model,
                score := (s.scoreWith fl request eligible limiter name).1 } :: ds,
        ?_, by simp [names_eq], ?_⟩
      · simp [scoreLoopWith, resolved, eq]
      · intro d member
        rcases List.mem_cons.mp member with rfl | later
        · exact resolved
        · exact models d later

theorem rankWith_trims :
    RateLimiter.Trimmed s.now s.rateLimiter (s.rankWith fl request).2 := by
  have filtered := s.filterLoop_trims request
    (candidateProvidersForModel s.registry request.model) s.rateLimiter
  unfold rankWith
  dsimp only
  split_ifs
  · exact filtered
  · exact filtered.trans (s.scoreLoopWith_trims request fl _ _ _)

/-- `rank` never fails, and lists exactly the eligible candidates, each once, each with the
model it resolves to. -/
theorem rankWith_spec :
    ∃ ds, (s.rankWith fl request).1 = some ds ∧ (ds.map RoutingDecision.provider).Nodup ∧
      (∀ name, name ∈ ds.map RoutingDecision.provider ↔
        name ∈ candidateProvidersForModel s.registry request.model ∧ s.Eligible request name) ∧
      ∀ d ∈ ds, resolveModelForProvider (s.provider d.provider) request.model = some d.model := by
  classical
  have eligible_eq := s.filterLoop_eq_filter request
    (candidateProvidersForModel s.registry request.model) (RateLimiter.Trimmed.refl s.now _)
  have distinct : ((s.filterLoop request (candidateProvidersForModel s.registry request.model)
      s.rateLimiter).1).Nodup := by
    rw [eligible_eq]
    exact (candidateProvidersForModel_nodup _ _).filter _
  have member : ∀ name, name ∈ (s.filterLoop request
      (candidateProvidersForModel s.registry request.model) s.rateLimiter).1 ↔
      name ∈ candidateProvidersForModel s.registry request.model ∧ s.Eligible request name := by
    intro name
    rw [eligible_eq, List.mem_filter, decide_eq_true_eq]
  unfold rankWith
  dsimp only
  generalize s.filterLoop request (candidateProvidersForModel s.registry request.model)
    s.rateLimiter = filtered at distinct member ⊢
  split_ifs with empty
  · refine ⟨[], rfl, by simp, ?_, by simp⟩
    intro name
    simp [← member, empty]
  · obtain ⟨ds, eq, names_eq, models⟩ := s.scoreLoopWith_spec request fl filtered.1
      filtered.1 filtered.2 (fun name kept => ((member name).mp kept).2.2.2.2.1.imp fun _ h => h.1)
    have perm := List.perm_insertionSort (fun a b : RoutingDecision => b.score ≤ a.score) ds
    have perm_names := perm.map RoutingDecision.provider
    refine ⟨_, by rw [eq]; rfl, ?_, ?_, ?_⟩
    · rw [perm_names.nodup_iff, names_eq]
      exact distinct
    · intro name
      rw [perm_names.mem_iff, names_eq]
      exact member name
    · intro d kept
      exact models d (perm.mem_iff.mp kept)

theorem rank_trims : RateLimiter.Trimmed s.now s.rateLimiter (s.rank request).2 :=
  s.rankWith_trims request id

theorem rank_spec :
    ∃ ds, (s.rank request).1 = some ds ∧ (ds.map RoutingDecision.provider).Nodup ∧
      (∀ name, name ∈ ds.map RoutingDecision.provider ↔
        name ∈ candidateProvidersForModel s.registry request.model ∧ s.Eligible request name) ∧
      ∀ d ∈ ds, resolveModelForProvider (s.provider d.provider) request.model = some d.model :=
  s.rankWith_spec request id

end AppState
end Noxis
