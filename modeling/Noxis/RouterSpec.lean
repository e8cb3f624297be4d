import Noxis.TypedRouting
import Noxis.Library.StableSort

/-! What `rank` promises: the decisions it returns, their order, and that ranking is not
observable. The limiter state it leaves differs from the one it found by hits that no later
reading of the clock would count. -/
namespace Noxis

/-! ### Windows that no later reading tells apart -/

/-- The two windows trim to the same window at every reading from `now` on. -/
def ProviderUsageWindow.SameFrom (now : ℚ) (w w' : ProviderUsageWindow) : Prop :=
  ∀ t, now ≤ t → w.trim t = w'.trim t

namespace ProviderUsageWindow.SameFrom

variable {now : ℚ} {w w' : ProviderUsageWindow}

theorem refl (now : ℚ) (w : ProviderUsageWindow) : SameFrom now w w := fun _ _ => rfl

theorem later (same : SameFrom now w w') {now' : ℚ} (le : now ≤ now') : SameFrom now' w w' :=
  fun t from_now => same t (le.trans from_now)

theorem fields (same : SameFrom now w w') :
    w.concurrent = w'.concurrent ∧ w.totalRequests = w'.totalRequests ∧
      w.totalFailures = w'.totalFailures ∧ w.total429s = w'.total429s ∧
      w.rateLimitedUntil = w'.rateLimitedUntil := by
  have eq := same now le_rfl
  unfold trim at eq
  injection eq with _ _ concurrent requests failures rejections until_eq
  exact ⟨concurrent, requests, failures, rejections, until_eq⟩

theorem hits (same : SameFrom now w w') {t : ℚ} (le : now ≤ t) :
    w.minuteHits.dropWhile (fun u => t - u > 60) = w'.minuteHits.dropWhile (fun u => t - u > 60) ∧
      w.dayHits.dropWhile (fun u => t - u > 86400) =
        w'.dayHits.dropWhile (fun u => t - u > 86400) := by
  have eq := same t le
  exact ⟨congrArg minuteHits eq, congrArg dayHits eq⟩

/-- Equal bookkeeping and equal hits at every later reading are enough. -/
theorem of_fields (concurrent : w.concurrent = w'.concurrent)
    (requests : w.totalRequests = w'.totalRequests) (failures : w.totalFailures = w'.totalFailures)
    (rejections : w.total429s = w'.total429s) (until_eq : w.rateLimitedUntil = w'.rateLimitedUntil)
    (minute : ∀ t, now ≤ t → w.minuteHits.dropWhile (fun u => t - u > 60) =
      w'.minuteHits.dropWhile (fun u => t - u > 60))
    (day : ∀ t, now ≤ t → w.dayHits.dropWhile (fun u => t - u > 86400) =
      w'.dayHits.dropWhile (fun u => t - u > 86400)) : SameFrom now w w' := by
  intro t le
  unfold trim
  rw [minute t le, day t le, concurrent, requests, failures, rejections, until_eq]

end ProviderUsageWindow.SameFrom

/-- A hit that has expired stays expired, so trimming earlier changes no later trim. -/
theorem dropWhile_expired {width now t : ℚ} (le : now ≤ t) (hits : List ℚ) :
    (hits.dropWhile (fun u => now - u > width)).dropWhile (fun u => t - u > width) =
      hits.dropWhile (fun u => t - u > width) := by
  induction hits with
  | nil => rfl
  | cons u rest ih =>
      by_cases expired : now - u > width
      · have still : t - u > width := lt_of_lt_of_le expired (sub_le_sub_right le u)
        simp only [List.dropWhile_cons, decide_eq_true expired, decide_eq_true still, if_true]
        exact ih
      · simp [List.dropWhile_cons, expired]

theorem dropWhile_push {expired : ℚ → Bool} {hits hits' : List ℚ}
    (same : hits.dropWhile expired = hits'.dropWhile expired) (u : ℚ) :
    (hits ++ [u]).dropWhile expired = (hits' ++ [u]).dropWhile expired := by
  rw [List.dropWhile_append, List.dropWhile_append, same]

namespace ProviderUsageWindow

variable {now : ℚ} {w w' : ProviderUsageWindow}

theorem trim_sameFrom (now : ℚ) (w : ProviderUsageWindow) : SameFrom now (w.trim now) w :=
  .of_fields rfl rfl rfl rfl rfl (fun _ le => dropWhile_expired le _)
    (fun _ le => dropWhile_expired le _)

theorem SameFrom.trans {w₁ w₂ w₃ : ProviderUsageWindow} (h₁ : SameFrom now w₁ w₂)
    (h₂ : SameFrom now w₂ w₃) : SameFrom now w₁ w₃ :=
  fun t le => (h₁ t le).trans (h₂ t le)

theorem SameFrom.symm (h : SameFrom now w w') : SameFrom now w' w := fun t le => (h t le).symm

theorem SameFrom.recordRequest (same : SameFrom now w w') :
    SameFrom now (w.recordRequest now) (w'.recordRequest now) := by
  obtain ⟨concurrent, requests, failures, rejections, until_eq⟩ := same.fields
  unfold ProviderUsageWindow.recordRequest
  apply (trim_sameFrom now _).trans
  apply SameFrom.trans _ (trim_sameFrom now _).symm
  apply of_fields
  · exact concurrent
  · exact congrArg (· + 1) requests
  · exact failures
  · exact rejections
  · exact until_eq
  · intro t le
    exact dropWhile_push (same.hits le).1 now
  · intro t le
    exact dropWhile_push (same.hits le).2 now

/-- A change of the number in flight alone, the same on both sides. -/
theorem SameFrom.withConcurrent (same : SameFrom now w w') (f : ℕ → ℕ) :
    SameFrom now { w with concurrent := f w.concurrent }
      { w' with concurrent := f w'.concurrent } := by
  obtain ⟨concurrent, requests, failures, rejections, until_eq⟩ := same.fields
  exact of_fields (congrArg f concurrent) requests failures rejections until_eq
    (fun t le => (same.hits le).1) (fun t le => (same.hits le).2)

theorem SameFrom.acquire (same : SameFrom now w w') :
    SameFrom now ({ w with concurrent := w.concurrent + 1 }.recordRequest now)
      ({ w' with concurrent := w'.concurrent + 1 }.recordRequest now) :=
  (same.withConcurrent (· + 1)).recordRequest

theorem SameFrom.release (same : SameFrom now w w') :
    SameFrom now { w with concurrent := w.concurrent - 1 }
      { w' with concurrent := w'.concurrent - 1 } := same.withConcurrent (· - 1)

theorem SameFrom.record429 (same : SameFrom now w w') (t : ℚ) (retryAfter : Option PyFloat) :
    SameFrom now (w.record429 t retryAfter) (w'.record429 t retryAfter) := by
  obtain ⟨concurrent, requests, failures, rejections, until_eq⟩ := same.fields
  exact of_fields concurrent requests failures (congrArg (· + 1) rejections)
    (congrArg (max · _) until_eq) (fun t le => (same.hits le).1) (fun t le => (same.hits le).2)

theorem SameFrom.recordFailure (same : SameFrom now w w') :
    SameFrom now w.recordFailure w'.recordFailure := by
  obtain ⟨concurrent, requests, failures, rejections, until_eq⟩ := same.fields
  exact of_fields concurrent requests (congrArg (· + 1) failures) rejections until_eq
    (fun t le => (same.hits le).1) (fun t le => (same.hits le).2)

end ProviderUsageWindow

namespace RateLimiter

/-- The windows of the two limiters cannot be told apart from `now` on. -/
def SameFrom (now : ℚ) (limiter limiter' : RateLimiter) : Prop :=
  ∀ name, (limiter name).SameFrom now (limiter' name)

variable {now : ℚ} {limiter limiter' : RateLimiter}

theorem Trimmed.sameFrom (h : Trimmed now limiter limiter') : SameFrom now limiter' limiter := by
  intro name
  rcases h name with same | same
  · rw [same]
    exact .refl now _
  · rw [same]
    exact ProviderUsageWindow.trim_sameFrom now _

theorem SameFrom.trans {l₁ l₂ l₃ : RateLimiter} (h₁ : SameFrom now l₁ l₂)
    (h₂ : SameFrom now l₂ l₃) : SameFrom now l₁ l₃ :=
  fun name => (h₁ name).trans (h₂ name)

theorem SameFrom.symm (h : SameFrom now limiter limiter') : SameFrom now limiter' limiter :=
  fun name => (h name).symm

/-- A change of one window that keeps it the same from `now` on keeps the limiters so. -/
theorem SameFrom.update (h : SameFrom now limiter limiter') (name : String)
    {w w' : ProviderUsageWindow} (same : w.SameFrom now w') :
    SameFrom now (Function.update limiter name w) (Function.update limiter' name w') := by
  intro other
  by_cases here : other = name
  · subst here
    simpa using same
  · simpa [here] using h other

section reads
variable (h : SameFrom now limiter limiter')
include h

theorem SameFrom.trimmed_eq (name : String) :
    limiter.trimmed now name name = limiter'.trimmed now name name := by
  simp only [trimmed, Function.update_self]
  exact h name now le_rfl

theorem SameFrom.snapshot_eq (name : String) :
    (limiter.snapshot now name).1 = (limiter'.snapshot now name).1 := by
  simp only [snapshot, h.trimmed_eq name]

theorem SameFrom.canServe_eq (name : String) (limits : RateLimitConfig) :
    (limiter.canServe now name limits).1 = (limiter'.canServe now name limits).1 := by
  obtain ⟨concurrent, -, -, -, until_eq⟩ := (h name).fields
  have windows := h name now le_rfl
  rw [Bool.eq_iff_iff, canServe_iff, canServe_iff]
  simp only [ProviderUsageWindow.requestsLastMinute, ProviderUsageWindow.requestsLastDay, windows,
    concurrent, until_eq]

/-- Two reads that only trim leave limiters that are still the same from `now` on. -/
theorem SameFrom.of_trimmed {l₁ l₂ : RateLimiter} (h₁ : Trimmed now limiter l₁)
    (h₂ : Trimmed now limiter' l₂) : SameFrom now l₁ l₂ :=
  (h₁.sameFrom.trans h).trans h₂.sameFrom.symm

end reads
end RateLimiter

namespace AppState

/-- Two states that differ only in hits which no reading from now on counts. -/
structure SameFrom (s s' : AppState) : Prop where
  now : s.now = s'.now
  registry : s.registry = s'.registry
  latencyStats : s.latencyStats = s'.latencyStats
  rateLimiter : RateLimiter.SameFrom s.now s.rateLimiter s'.rateLimiter

namespace SameFrom

variable {s s' : AppState} (h : s.SameFrom s') (request : ChatCompletionRequest) (fl : Rounding)
include h

theorem eligible_iff (name : String) : s.Eligible request name ↔ s'.Eligible request name := by
  have servable := h.rateLimiter.canServe_eq name (s.provider name).config.rateLimit
  unfold Eligible
  rw [servable]
  unfold AppState.provider
  rw [h.registry, h.now]

theorem scoreOfWith_eq (eligible : List String) (name : String) :
    s.scoreOfWith request fl eligible name = s'.scoreOfWith request fl eligible name := by
  have snap := h.rateLimiter.snapshot_eq name
  have reliability : (fl.reliabilityScore s.now name s.rateLimiter).1 =
      (fl.reliabilityScore s'.now name s'.rateLimiter).1 := by
    unfold Rounding.reliabilityScore
    dsimp only
    rw [snap, h.now]
    split_ifs <;> rfl
  have quota : (fl.quotaScore s.now name (s.provider name).config.rateLimit s.rateLimiter).1 =
      (fl.quotaScore s'.now name (s.provider name).config.rateLimit s'.rateLimiter).1 := by
    unfold Rounding.quotaScore
    dsimp only
    rw [snap, h.now]
    split_ifs <;> rfl
  unfold scoreOfWith
  rw [reliability, quota]
  unfold AppState.provider
  rw [h.registry, h.latencyStats]

theorem rankWith_eq : (s.rankWith fl request).1 = (s'.rankWith fl request).1 := by
  classical
  have kept : ∀ name, decide (s.Eligible request name) = decide (s'.Eligible request name) :=
    fun name => decide_eq_decide.mpr (h.eligible_iff request name)
  have decided : ∀ eligible,
      s.decisionOfWith request fl eligible = s'.decisionOfWith request fl eligible := by
    intro eligible
    funext name
    unfold decisionOfWith AppState.provider
    rw [h.scoreOfWith_eq request fl eligible name, h.registry]
  rw [AppState.rankWith_eq, AppState.rankWith_eq, h.registry]
  simp only [kept, decided]

theorem rank_eq : (s.rank request).1 = (s'.rank request).1 := h.rankWith_eq request id

end SameFrom

/-! ### Everything that can follow a ranking -/

/-- What the rest of the gateway does with the router, the limiter and the registry. -/
inductive RouterCall where
  | elapse (by' : ℚ≥0)
  | change (f : ProviderRegistry → ProviderRegistry)
  | observeLatency (name : String) (latencyMs : ℚ)
  | acquire (name : String)
  | release (name : String)
  | record429 (name : String) (retryAfter : Option PyFloat)
  | recordFailure (name : String)
  | canServe (name : String) (limits : RateLimitConfig)
  | snapshot (name : String)
  | rank (request : ChatCompletionRequest)

inductive RouterAnswer where
  | done
  | servable (b : Bool)
  | usage (snap : UsageSnapshot)
  | ranked (decisions : Option (List RoutingDecision))

def callWith (fl : Rounding) (s : AppState) : RouterCall → RouterAnswer × AppState
  | .elapse d => (.done, { s with now := s.now + d })
  | .change f => (.done, { s with registry := f s.registry })
  | .observeLatency name latencyMs => (.done, s.observeLatencyWith fl name latencyMs)
  | .acquire name => (.done, { s with rateLimiter := s.rateLimiter.acquire s.now name })
  | .release name => (.done, { s with rateLimiter := s.rateLimiter.release name })
  | .record429 name retryAfter =>
      (.done, { s with rateLimiter := s.rateLimiter.record429 s.now name retryAfter })
  | .recordFailure name => (.done, { s with rateLimiter := s.rateLimiter.recordFailure name })
  | .canServe name limits =>
      let (servable, rateLimiter) := s.rateLimiter.canServe s.now name limits
      (.servable servable, { s with rateLimiter })
  | .snapshot name =>
      let (usage, rateLimiter) := s.rateLimiter.snapshot s.now name
      (.usage usage, { s with rateLimiter })
  | .rank request =>
      let (decisions, rateLimiter) := s.rankWith fl request
      (.ranked decisions, { s with rateLimiter })

def callsWith (fl : Rounding) (s : AppState) : List RouterCall → List RouterAnswer
  | [] => []
  | c :: rest => (s.callWith fl c).1 :: (s.callWith fl c).2.callsWith fl rest

/-- A call in exact arithmetic. -/
def call (s : AppState) (c : RouterCall) : RouterAnswer × AppState := s.callWith id c

namespace SameFrom

variable {s s' : AppState} (h : s.SameFrom s') (fl : Rounding)
include h

omit fl in
/-- Replacing both limiters by ones that are still the same keeps the states so. -/
theorem withLimiter {limiter limiter' : RateLimiter}
    (same : RateLimiter.SameFrom s.now limiter limiter') :
    SameFrom { s with rateLimiter := limiter } { s' with rateLimiter := limiter' } :=
  ⟨h.now, h.registry, h.latencyStats, same⟩

/-- One call: the same answer, and states that are still the same from now on. -/
theorem callWith (c : RouterCall) : (s.callWith fl c).1 = (s'.callWith fl c).1 ∧
    (s.callWith fl c).2.SameFrom (s'.callWith fl c).2 := by
  have sameNow := h.now
  have windows := h.rateLimiter
  cases c with
  | elapse d =>
      refine ⟨rfl, congrArg (· + (d : ℚ)) h.now, h.registry, h.latencyStats, fun name => ?_⟩
      exact (windows name).later (le_add_of_nonneg_right d.coe_nonneg)
  | change f => exact ⟨rfl, h.now, congrArg f h.registry, h.latencyStats, windows⟩
  | observeLatency name latencyMs =>
      refine ⟨rfl, h.now, h.registry, ?_, windows⟩
      simp only [AppState.callWith, AppState.observeLatencyWith, h.latencyStats]
  | acquire name =>
      refine ⟨rfl, h.withLimiter ?_⟩
      rw [← sameNow]
      exact windows.update name (windows name).acquire
  | release name => exact ⟨rfl, h.withLimiter (windows.update name (windows name).release)⟩
  | record429 name retryAfter =>
      refine ⟨rfl, h.withLimiter ?_⟩
      rw [← sameNow]
      exact windows.update name ((windows name).record429 s.now retryAfter)
  | recordFailure name =>
      exact ⟨rfl, h.withLimiter (windows.update name (windows name).recordFailure)⟩
  | canServe name limits =>
      have answer := windows.canServe_eq name limits
      refine ⟨?_, h.withLimiter ?_⟩
      · simp only [AppState.callWith, ← sameNow, answer]
      · rw [← sameNow]
        exact windows.of_trimmed (s.rateLimiter.canServe_trims _ _ _)
          (s'.rateLimiter.canServe_trims _ _ _)
  | snapshot name =>
      have answer := windows.snapshot_eq name
      refine ⟨?_, h.withLimiter ?_⟩
      · simp only [AppState.callWith, ← sameNow, answer]
      · rw [← sameNow]
        exact windows.of_trimmed (s.rateLimiter.snapshot_trims _ _)
          (s'.rateLimiter.snapshot_trims _ _)
  | rank request =>
      have answer := h.rankWith_eq request fl
      refine ⟨?_, h.withLimiter ?_⟩
      · simp only [AppState.callWith, answer]
      · have trims := s'.rankWith_trims request fl
        rw [← sameNow] at trims
        exact windows.of_trimmed (s.rankWith_trims request fl) trims

omit fl in
theorem call (c : RouterCall) :
    (s.call c).1 = (s'.call c).1 ∧ (s.call c).2.SameFrom (s'.call c).2 := h.callWith id c

end SameFrom

/-- A run of calls answers the same from two states that are the same from now on. -/
theorem SameFrom.callsWith {s s' : AppState} (h : s.SameFrom s') (fl : Rounding)
    (cs : List RouterCall) : s.callsWith fl cs = s'.callsWith fl cs := by
  induction cs generalizing s s' with
  | nil => rfl
  | cons c rest ih =>
      obtain ⟨answer, after⟩ := h.callWith fl c
      rw [AppState.callsWith, AppState.callsWith, answer, ih after]

/-! ### What is ranked -/

/-- What the router asks of a provider before it sends a request there for `model`. -/
structure Servable (s : AppState) (request : ChatCompletionRequest) (name : String)
    (model : ModelName) : Prop where
  enabled : name ∈ s.registry.enabled
  candidate : name ∈ candidateProvidersForModel s.registry request.model
  health : (s.provider name).health = .healthy ∨ (s.provider name).health = .unknown
  admitted : (s.rateLimiter.canServe s.now name (s.provider name).config.rateLimit).1 = true
  firstModel : isAlias request.model = true →
    (s.provider name).config.models.head?.map ModelSpec.name = some model
  sameModel : isAlias request.model = false → model = request.model
  context : ∀ spec, (s.provider name).modelSpec model = some spec →
    spec.contextLength = 0 ∨ (estimateTokens request : ℤ) ≤ spec.contextLength
  streaming : request.stream = true → (s.provider name).config.supportsStreaming = true
  tools : request.tools.getD [] ≠ [] → (s.provider name).config.supportsTools = true

theorem contextExceeded_eq_false {p : Provider} {model : ModelName} {estTokens : ℕ} :
    contextExceeded p model estTokens = false ↔
      ∀ spec, p.modelSpec model = some spec →
        spec.contextLength = 0 ∨ (estTokens : ℤ) ≤ spec.contextLength := by
  unfold contextExceeded
  cases p.modelSpec model with
  | none => simp
  | some spec =>
      by_cases unlimited : spec.contextLength = 0 <;> simp [unlimited]

theorem capabilityScore_ne_none {p : Provider} {request : ChatCompletionRequest} :
    capabilityScore p request ≠ none ↔
      (request.stream = true → p.config.supportsStreaming = true) ∧
        (request.tools.getD [] ≠ [] → p.config.supportsTools = true) := by
  unfold capabilityScore
  cases request.stream <;> cases p.config.supportsStreaming <;>
    cases request.tools.getD [] <;> cases p.config.supportsTools <;> simp

theorem resolveModelForProvider_eq_some {p : Provider} {requested model : ModelName} :
    resolveModelForProvider p requested = some model ↔
      (isAlias requested = true → p.config.models.head?.map ModelSpec.name = some model) ∧
        (isAlias requested = false → model = requested) := by
  unfold resolveModelForProvider
  cases isAlias requested with
  | true => simp
  | false =>
      simp only [Bool.false_eq_true, if_false, false_implies, true_and, forall_const]
      exact ⟨fun same => (Option.some.inj same).symm, fun same => congrArg some same.symm⟩

variable (s : AppState) (request : ChatCompletionRequest)

theorem not_isAdminDisabled {name : String} (enabled : name ∈ s.registry.enabled) :
    s.registry.isAdminDisabled name = false := by
  have kept := (List.mem_filter.mp enabled).2
  simp only [Bool.and_eq_true, Bool.not_eq_true'] at kept
  exact kept.2

/-- The filters of the loop, and the model they leave a provider with. -/
theorem servable_iff (name : String) (model : ModelName) :
    s.Servable request name model ↔
      name ∈ candidateProvidersForModel s.registry request.model ∧ s.Eligible request name ∧
        resolveModelForProvider (s.provider name) request.model = some model := by
  constructor
  · intro servable
    have resolved := resolveModelForProvider_eq_some.mpr ⟨servable.firstModel, servable.sameModel⟩
    refine ⟨servable.candidate, ⟨?_, ?_, servable.admitted, ⟨model, resolved, ?_⟩, ?_⟩, resolved⟩
    · exact decide_eq_true servable.health
    · exact s.not_isAdminDisabled servable.enabled
    · exact contextExceeded_eq_false.mpr servable.context
    · exact capabilityScore_ne_none.mpr ⟨servable.streaming, servable.tools⟩
  · rintro ⟨candidate, ⟨health, -, admitted, ⟨model', resolved', fits⟩, capable⟩, resolved⟩
    obtain rfl : model' = model := Option.some.inj (resolved'.symm.trans resolved)
    obtain ⟨firstModel, sameModel⟩ := resolveModelForProvider_eq_some.mp resolved
    obtain ⟨streaming, tools⟩ := capabilityScore_ne_none.mp capable
    exact
      { enabled := candidateProvidersForModel_subset _ _ candidate
        candidate
        health := of_decide_eq_true health
        admitted
        firstModel
        sameModel
        context := contextExceeded_eq_false.mp fits
        streaming
        tools }

section order
variable (fl : Rounding)

/-- The ranked list as a sorted list of decisions made in candidate order. -/
theorem rankWith_sorted :
    ∃ unsorted : List RoutingDecision, (s.rankWith fl request).1 =
        some (unsorted.insertionSort fun a b => b.score ≤ a.score) ∧
      (unsorted.map RoutingDecision.provider).Sublist
        (candidateProvidersForModel s.registry request.model) := by
  classical
  have trims := s.filterLoop_trims request (candidateProvidersForModel s.registry request.model)
    s.rateLimiter
  set eligible := (candidateProvidersForModel s.registry request.model).filter
    fun name => decide (s.Eligible request name) with eligible_def
  obtain ⟨unsorted, scored, names, -⟩ := s.scoreLoopWith_spec request fl eligible eligible _ (by
    intro name kept
    obtain ⟨model, resolved, -⟩ := (of_decide_eq_true (List.mem_filter.mp kept).2).2.2.2.1
    exact ⟨model, resolved⟩)
  rw [s.scoreLoopWith_eq request fl eligible eligible trims] at scored
  refine ⟨unsorted, ?_, ?_⟩
  · rw [AppState.rankWith_eq, ← eligible_def, scored]
    rfl
  · rw [names]
    exact List.filter_sublist

/-- The ranked list has the better score first, and a tie in the order of the candidates. -/
theorem rankWith_pairwise {ds : List RoutingDecision}
    (ranked : (s.rankWith fl request).1 = some ds) :
    ds.Pairwise (fun a b => b.score ≤ a.score ∧ (a.score = b.score →
      [a.provider, b.provider].Sublist (candidateProvidersForModel s.registry request.model))) := by
  obtain ⟨unsorted, sorted, inOrder⟩ := s.rankWith_sorted request fl
  obtain rfl := Option.some.inj (ranked.symm.trans sorted)
  let byScore : RoutingDecision → RoutingDecision → Prop := fun a b => b.score ≤ a.score
  have total : Std.Total byScore := ⟨fun a b => le_total b.score a.score⟩
  have transitive : IsTrans RoutingDecision byScore := ⟨fun a b c ab bc => le_trans bc ab⟩
  apply (StableSort.pairwise_insertionSort byScore unsorted).imp
  intro a b before
  refine ⟨before.1, fun tie => ?_⟩
  have names := (before.2 tie.le).map RoutingDecision.provider
  exact names.trans inOrder

/-- Ranking leaves a state that the rest of the run cannot tell from the one it found. -/
theorem rankWith_sameFrom : (s.callWith fl (.rank request)).2.SameFrom s :=
  ⟨rfl, rfl, rfl, (s.rankWith_trims request fl).sameFrom⟩

end order

/-- Whatever the rounding of the scores: what is listed, in which order, and what it leaves. -/
theorem rank_decides (fl : Rounding) :
    ∃ ds, (s.rankWith fl request).1 = some ds ∧
      (∀ name model, (∃ d ∈ ds, d.provider = name ∧ d.model = model) ↔
        s.Servable request name model) ∧
      (ds.map RoutingDecision.provider).Nodup ∧
      ds.Pairwise (fun a b => b.score ≤ a.score ∧ (a.score = b.score →
        [a.provider, b.provider].Sublist
          (candidateProvidersForModel s.registry request.model))) ∧
      ∀ cs, (s.callWith fl (.rank request)).2.callsWith fl cs = s.callsWith fl cs := by
  obtain ⟨ds, ranked, distinct, listed, models⟩ := s.rankWith_spec request fl
  refine ⟨ds, ranked, fun name model => ?_, distinct, s.rankWith_pairwise request fl ranked,
    (s.rankWith_sameFrom request fl).callsWith fl⟩
  rw [servable_iff, ← and_assoc, ← listed name]
  constructor
  · rintro ⟨d, member, rfl, rfl⟩
    exact ⟨List.mem_map_of_mem member, models d member⟩
  · rintro ⟨member, resolved⟩
    obtain ⟨d, kept, rfl⟩ := List.mem_map.mp member
    exact ⟨d, kept, rfl, Option.some.inj ((models d kept).symm.trans resolved)⟩

end AppState
end Noxis
