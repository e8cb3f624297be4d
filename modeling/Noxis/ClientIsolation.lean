import Noxis.Budgets
import Noxis.FirstSuccess
import Noxis.OpenAICompatible

/-! Interference between clients. A status such as 400 blames the request, but `execute`
treats it like every terminal error and takes the provider out of every later ranking. -/
namespace Noxis

/-- An answer that blames the request: neither transient nor terminal for the provider. -/
structure InvalidRequestAnswer extends HttpAnswer where
  refused : 400 ≤ status
  notTransient : status ∉ transientStatusCodes
  notTerminal : status ∉ terminalProviderStatusCodes

/-- The error that the adapter makes of it, where its text can be read. -/
def InvalidRequestAnswer.error (a : InvalidRequestAnswer) (lib : Libraries) (text : String) :
    ProviderAPIError :=
  statusError lib a.status a.retryAfterHeader text

@[simp] theorem InvalidRequestAnswer.error_retryable (a : InvalidRequestAnswer) (lib : Libraries)
    (text : String) : (a.error lib text).retryable = false := by
  simp [InvalidRequestAnswer.error, statusError, a.notTransient]

theorem InvalidRequestAnswer.chatCompletion_read {a : InvalidRequestAnswer} {text : String}
    (read : a.text = some text) (lib : Libraries) (name : String) (latencyMs : ℚ) :
    chatCompletion lib name latencyMs (.ok a.toHttpAnswer) = .apiError (a.error lib text) := by
  rw [chatCompletion, if_pos a.refused, read]
  rfl

theorem InvalidRequestAnswer.chatCompletion_unread {a : InvalidRequestAnswer}
    (unread : a.text = none) (lib : Libraries) (name : String) (latencyMs : ℚ) :
    chatCompletion lib name latencyMs (.ok a.toHttpAnswer) = .otherError := by
  rw [chatCompletion, if_pos a.refused, unread]

/-- In a process without other tasks, every provider answers the request like this. -/
def invalidUpstreams (lib : Libraries) (answers : String → InvalidRequestAnswer)
    (timing : String → Timing) : Upstreams :=
  fun name => .alone [] (chatCompletion lib name ((timing name).callTime * 1000)
    (.ok (answers name).toHttpAnswer)) (timing name)

/-- The decisions whose providers raise an error that the loop goes on after: a text that cannot
be read ends it. -/
def failedOver (answers : String → InvalidRequestAnswer) (ds : List RoutingDecision) :
    List RoutingDecision :=
  ds.takeWhile fun d => (answers d.provider).text.isSome

def rankedPairs (s : AppState) (request : ChatCompletionRequest) : List (String × ModelName) :=
  ((s.rank request).1.getD []).map fun d => (d.provider, d.model)

def NoBudgetBinds (s : AppState) : Prop := ∀ name ∈ s.registry.names, Servable s name

theorem mem_rankedPairs {s : AppState} {request : ChatCompletionRequest} {name : String}
    {model : ModelName} :
    (name, model) ∈ rankedPairs s request ↔
      name ∈ candidateProvidersForModel s.registry request.model ∧ s.Eligible request name ∧
        resolveModelForProvider (s.provider name) request.model = some model := by
  obtain ⟨ds, ranked, -, member, models⟩ := s.rank_spec request
  simp only [rankedPairs, ranked, Option.getD_some, List.mem_map, Prod.mk.injEq]
  constructor
  · rintro ⟨d, inList, rfl, rfl⟩
    obtain ⟨candidate, eligible⟩ := (member d.provider).mp (List.mem_map_of_mem inList)
    exact ⟨candidate, eligible, models d inList⟩
  · rintro ⟨candidate, eligible, resolved⟩
    obtain ⟨d, inList, rfl⟩ := List.mem_map.mp ((member name).mpr ⟨candidate, eligible⟩)
    exact ⟨d, inList, rfl, Option.some.inj ((models d inList).symm.trans resolved)⟩

/-- `s'` differs from `s`, as far as a ranking without budgets can see, in that the listed
providers are UNAVAILABLE. -/
structure TakesOut (providers : List String) (s s' : AppState) : Prop where
  names : s'.registry.names = s.registry.names
  disabled : s'.registry.disabledOverrides = s.registry.disabledOverrides
  config : ∀ name, (s'.provider name).config = (s.provider name).config
  health : ∀ name, (s'.provider name).health =
    if name ∈ providers then .unavailable else (s.provider name).health

theorem afterTerminal_takesOut (sch : Scheduler) {env : Upstreams} (alone : Alone env)
    (s : AppState) (d : RoutingDecision) {e : ProviderAPIError} (final : e.retryable = false) :
    TakesOut [d.provider] s
      (sch.afterTerminal (Scheduler.callEnded env s d) d.provider e) := by
  have unchanged : (sch.noteFailure (Scheduler.callEnded env s d) d.provider e).registry.names =
      s.registry.names ∧
      (sch.noteFailure (Scheduler.callEnded env s d) d.provider e).registry.disabledOverrides =
        s.registry.disabledOverrides := by
    simp [Scheduler.noteFailure, Scheduler.callEnded_registry alone]
  refine ⟨unchanged.1, unchanged.2, ?_, ?_⟩
  · intro name
    by_cases same : name = d.provider
    · subst same
      simp [Scheduler.afterTerminal, Scheduler.noteFailure, final,
        Scheduler.callEnded_provider alone]
    · rw [Scheduler.afterTerminal_provider alone e same]
  · intro name
    by_cases same : name = d.provider
    · subst same
      simp [Scheduler.afterTerminal]
    · rw [Scheduler.afterTerminal_provider alone e same]
      simp [same]

theorem TakesOut.trans {first rest : List String} {s₁ s₂ s₃ : AppState} (h : TakesOut first s₁ s₂)
    (h' : TakesOut rest s₂ s₃) : TakesOut (first ++ rest) s₁ s₃ := by
  refine ⟨h'.names.trans h.names, h'.disabled.trans h.disabled,
    fun name => (h'.config name).trans (h.config name), ?_⟩
  intro name
  rw [h'.health, h.health]
  by_cases early : name ∈ first <;> by_cases late : name ∈ rest <;> simp [early, late]

theorem takesOut_nil (s : AppState) : TakesOut [] s s := ⟨rfl, rfl, fun _ => rfl, by simp⟩

theorem abandoned_takesOut {env : Upstreams} (alone : Alone env) (s : AppState)
    (d : RoutingDecision) : TakesOut [] s ((Scheduler.callEnded env s d).release d.provider) := by
  refine ⟨?_, ?_, ?_, ?_⟩
  · simp [Scheduler.callEnded_registry alone]
  · simp [Scheduler.callEnded_registry alone]
  · simp [Scheduler.callEnded_provider alone]
  · simp [Scheduler.callEnded_provider alone]

/-- The loop takes out every provider that the retries let it reach and fail over from. -/
theorem drainLoop_takesOut (sch : Scheduler) (lib : Libraries)
    (answers : String → InvalidRequestAnswer) (timing : String → Timing)
    (ds : List RoutingDecision) (s : AppState) {l : LoopState} (path : l.path = .execute) :
    TakesOut ((failedOver answers (ds.take (sch.maxRetries - l.attempts).toNat)).map
        RoutingDecision.provider) s
      (sch.drainLoop (invalidUpstreams lib answers timing) s l ds).app := by
  have alone : Alone (invalidUpstreams lib answers timing) := fun name => ⟨_, _, _, rfl⟩
  induction ds generalizing s l with
  | nil => simpa [Scheduler.drainLoop, failedOver] using takesOut_nil s
  | cons d rest ih =>
      by_cases spent : sch.maxRetries ≤ l.attempts
      · rw [Scheduler.drainLoop_spent spent, Scheduler.take_spent spent]
        exact takesOut_nil s
      · rw [Scheduler.take_room spent]
        cases read : (answers d.provider).text with
        | none =>
            have ends : (invalidUpstreams lib answers timing d.provider).outcome = .otherError :=
              InvalidRequestAnswer.chatCompletion_unread read lib _ _
            rw [Scheduler.drainLoop_otherError spent ends, failedOver,
              List.takeWhile_cons_of_neg (by simp [read])]
            exact abandoned_takesOut alone s d
        | some text =>
            have final : ((answers d.provider).error lib text).retryable = false := by simp
            have ends : (invalidUpstreams lib answers timing d.provider).outcome =
                .apiError ((answers d.provider).error lib text) :=
              InvalidRequestAnswer.chatCompletion_read read lib _ _
            have failed : (l.failed ((answers d.provider).error lib text)).path = .execute := path
            rw [Scheduler.drainLoop_terminal spent ends final path, Drained.after, failedOver,
              List.takeWhile_cons_of_pos (by simp [read])]
            exact (afterTerminal_takesOut sch alone s d final).trans (ih _ failed)

/-- A ranking before against a ranking after some providers were taken out. -/
theorem rankedPairs_takesOut {providers : List String} {s s' : AppState}
    (out : TakesOut providers s s') (before : NoBudgetBinds s) (after : NoBudgetBinds s')
    (request : ChatCompletionRequest) (name : String) (model : ModelName) :
    (name, model) ∈ rankedPairs s' request ↔
      (name, model) ∈ rankedPairs s request ∧ name ∉ providers := by
  have candidates : candidateProvidersForModel s'.registry request.model =
      candidateProvidersForModel s.registry request.model :=
    candidateProvidersForModel_congr _ out.names out.disabled out.config
  rw [mem_rankedPairs, mem_rankedPairs, candidates]
  have resolve : resolveModelForProvider (s'.provider name) request.model =
      resolveModelForProvider (s.provider name) request.model := by
    simp only [resolveModelForProvider, out.config]
  have fits : ∀ m n, contextExceeded (s'.provider name) m n = contextExceeded (s.provider name) m n := by
    intro m n
    simp only [contextExceeded, Provider.modelSpec, out.config]
  have capable : capabilityScore (s'.provider name) request =
      capabilityScore (s.provider name) request := by
    simp only [capabilityScore, out.config]
  have switch : s'.registry.isAdminDisabled name = s.registry.isAdminDisabled name := by
    simp only [ProviderRegistry.isAdminDisabled, out.disabled]
  rw [resolve]
  constructor
  · rintro ⟨candidate, ⟨healthy, enabled, -, ⟨m, resolved, short⟩, able⟩, models⟩
    rw [out.health] at healthy
    have kept : name ∉ providers := by
      intro gone
      simp [gone, eligibleHealth] at healthy
    rw [if_neg kept] at healthy
    rw [switch] at enabled
    rw [resolve] at resolved
    rw [fits] at short
    rw [capable] at able
    have servable := before name (s.registry.enabled_sublist.subset
      (candidateProvidersForModel_subset _ _ candidate))
    exact ⟨⟨candidate, ⟨healthy, enabled, servable, ⟨m, resolved, short⟩, able⟩, models⟩, kept⟩
  · rintro ⟨⟨candidate, ⟨healthy, enabled, -, ⟨m, resolved, short⟩, able⟩, models⟩, kept⟩
    have servable := after name (out.names ▸ s.registry.enabled_sublist.subset
      (candidateProvidersForModel_subset _ _ candidate))
    refine ⟨candidate, ⟨?_, switch.trans enabled, servable, ⟨m, resolve.trans resolved, ?_⟩,
      capable ▸ able⟩, models⟩
    · rw [out.health, if_neg kept]
      exact healthy
    · rw [fits]
      exact short

theorem takesOut_of_admission {sch : Scheduler} {s s' : AppState} {request : ChatCompletionRequest}
    {ds : List RoutingDecision} (admission : sch.Admission s request ds s') : TakesOut [] s s' := by
  refine ⟨admission.names, admission.disabled, ?_, ?_⟩
  all_goals
    intro name
    rcases admission.effect name with same | ⟨-, -, same⟩ <;> simp [same]

/-- When no rate budget binds, a request that every provider answers as invalid leaves the
ranking of another request as it was if and only if that ranking holds none of the
providers contacted and failed over from. -/
theorem ranking_unchanged_iff (sch : Scheduler) (lib : Libraries)
    (answers : String → InvalidRequestAnswer) (timing : String → Timing) (s : AppState)
    (r q : ChatCompletionRequest) (before : NoBudgetBinds s)
    (after : NoBudgetBinds (sch.drain (invalidUpstreams lib answers timing) .execute s r).app) :
    (∀ pair, pair ∈ rankedPairs (sch.drain (invalidUpstreams lib answers timing) .execute s r).app q ↔
        pair ∈ rankedPairs s q) ↔
      ∀ d ∈ failedOver answers ((sch.eligibleDecisions s r).1.take sch.maxRetries.toNat),
        ∀ model, (d.provider, model) ∉ rankedPairs s q := by
  have path : ({ path := .execute, request := r } : LoopState).path = .execute := rfl
  have loop := drainLoop_takesOut sch lib answers timing (sch.eligibleDecisions s r).1
    (sch.eligibleDecisions s r).2 path
  have out := (takesOut_of_admission (sch.eligibleDecisions_spec s r)).trans loop
  rw [List.nil_append, ← sch.drain_eq, Nat.cast_zero, sub_zero] at out
  have ranking := rankedPairs_takesOut out before after q
  constructor
  · intro same d contacted model ranked
    have still := (same (d.provider, model)).mpr ranked
    exact ((ranking d.provider model).mp still).2 (List.mem_map_of_mem contacted)
  · rintro apart ⟨name, model⟩
    rw [ranking]
    refine ⟨fun h => h.1, fun h => ⟨h, ?_⟩⟩
    intro gone
    obtain ⟨d, contacted, rfl⟩ := List.mem_map.mp gone
    exact apart d contacted model h

def Demo.badRequest : InvalidRequestAnswer :=
  { Demo.page "unknown parameter" with
    status := 400, refused := by decide, notTransient := by decide, notTerminal := by decide }

theorem ranking_unchanged_iff_other_model :
    (∀ pair, pair ∈ rankedPairs (Demo.scheduler.drain
        (invalidUpstreams Demo.libraries (fun _ => Demo.badRequest) Demo.instant) .execute
        (Demo.gateway narrowConfig).app (Demo.request "k")).app (Demo.request "m") ↔
        pair ∈ rankedPairs (Demo.gateway narrowConfig).app (Demo.request "m")) ↔
      ∀ d ∈ failedOver (fun _ => Demo.badRequest) ((Demo.scheduler.eligibleDecisions
          (Demo.gateway narrowConfig).app (Demo.request "k")).1.take
            Demo.scheduler.maxRetries.toNat),
        ∀ model, (d.provider, model) ∉
          rankedPairs (Demo.gateway narrowConfig).app (Demo.request "m") :=
  ranking_unchanged_iff _ _ _ _ _ _ _
    (by unfold NoBudgetBinds; decide +kernel) (by unfold NoBudgetBinds; decide +kernel)

theorem invalid_request_empties_ranking :
    NoBudgetBinds (Demo.gateway fun _ => Demo.config [] 10).app ∧
    NoBudgetBinds (Demo.scheduler.drain
      (invalidUpstreams Demo.libraries (fun _ => Demo.badRequest) Demo.instant) .execute
      (Demo.gateway fun _ => Demo.config [] 10).app (Demo.request "m")).app ∧
    rankedPairs (Demo.gateway fun _ => Demo.config [] 10).app (Demo.request "k") =
      [("a", .str "k"), ("b", .str "k")] ∧
    rankedPairs (Demo.scheduler.drain
      (invalidUpstreams Demo.libraries (fun _ => Demo.badRequest) Demo.instant) .execute
      (Demo.gateway fun _ => Demo.config [] 10).app (Demo.request "m")).app (Demo.request "k") = [] := by
  refine ⟨?_, ?_, ?_, ?_⟩
  · unfold NoBudgetBinds
    decide +kernel
  · unfold NoBudgetBinds
    decide +kernel
  · decide +kernel
  · decide +kernel

end Noxis
