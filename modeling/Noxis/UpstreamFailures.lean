import Noxis.OpenAICompatible

/-! Every failure of an upstream, and whether it reaches the scheduler as a provider error.
An exception that is not one passes through `execute`, which then tries nobody else and
records nothing. -/
namespace Noxis

def Json.IsObject (v : Json) : Prop := ∃ members, v = .obj members

/-- The failure, if the call failed, is the transport's or a transient status. -/
def chatRetryable : Except TransportError HttpAnswer → Prop
  | .error _ => True
  | .ok answer => answer.status ∈ transientStatusCodes

/-- The delay that a failure asks for. -/
def chatRetryAfter (lib : Libraries) : Except TransportError HttpAnswer → Option PyFloat
  | .error _ => none
  | .ok answer => match answer.retryAfterHeader with
      | none => none
      | some header => if header = "" then none else lib.float header

/-- The same for a stream; below 400 only the transport can fail. -/
def StreamAnswer.Retryable : StreamAnswer → Prop
  | .refused _ => True
  | .answered _ _ (.error _) _ _ => True
  | .answered status _ (.ok _) _ _ => status < 400 ∨ status ∈ transientStatusCodes

section adapter
variable (lib : Libraries) (name : String)

/-- A call on the non-streaming path returns an object or raises a provider error, and
`execute` goes on after it where it has tried that many providers before. -/
structure ChatClassified (latencyMs : ℚ) (tried : ℕ) (answer : Except TransportError HttpAnswer) :
    Prop where
  result : ∀ result, chatCompletion lib name latencyMs answer = .success result →
    result.raw.IsObject
  error : ∀ e, chatCompletion lib name latencyMs answer = .apiError e →
    (e.retryable = true ↔ chatRetryable answer)
  mapped : chatCompletion lib name latencyMs answer ≠ .otherError
  settles : ∀ (sch : Scheduler) s a u, a.loop.path = .execute → a.loop.attempts = tried →
    ∀ after, sch.settle s a (chatCompletion lib name latencyMs answer) u ≠ (after, .stop .otherError)

/-- A stream yields objects only, and ends or raises a provider error. -/
structure StreamClassified (answer : StreamAnswer) : Prop where
  values : ∀ value ∈ (streamCompletion lib name answer).1, value.IsObject
  error : ∀ e, (streamCompletion lib name answer).2 = .apiError e →
    (e.retryable = true ↔ answer.Retryable)
  mapped : (streamCompletion lib name answer).2 ≠ .otherError

/-- No exception that is not mapped; the text of an error can be read, and any other body is
an object. -/
def ChatClean : Except TransportError HttpAnswer → Prop
  | .error exc => ¬ exc.Unmapped
  | .ok answer =>
      if 400 ≤ answer.status then ∃ text, answer.text = some text
      else ∃ members, answer.json lib = .ok (.obj members)

/-- The failure is retried, but the delay before the next provider cannot be computed. -/
def DelayFails (tried : ℕ) (answer : Except TransportError HttpAnswer) : Prop :=
  chatRetryable answer ∧ Overflows (tried + 1) (chatRetryAfter lib answer)

variable {lib name}

theorem outcome_apiError_retryable {doing : String} {exc : TransportError} {e : ProviderAPIError}
    (raised : exc.outcome doing name = .apiError e) : e.retryable = true := by
  have mapped : ¬ exc.Unmapped := by
    rw [← outcome_clean_iff doing name, raised]
    simp
  obtain ⟨e', raised', retryable⟩ := (outcome_retryable_iff doing name exc).mpr mapped
  rw [raised] at raised'
  rw [CallOutcome.apiError.inj raised']
  exact retryable

/-- Only an exception that is not a provider error stops the loop of `execute` as it is, or a
delay that overflows. -/
theorem settle_otherError_iff (sch : Scheduler) (s : AppState) (a : Attempt) (u : Sample)
    (path : a.loop.path = .execute) (o : CallOutcome) :
    (∃ after, sch.settle s a o u = (after, .stop .otherError)) ↔ o = .otherError ∨
      ∃ e, o = .apiError e ∧ e.retryable = true ∧ Overflows (a.loop.attempts + 1) e.retryAfter := by
  unfold Scheduler.settle
  rw [path]
  cases o with
  | success result => simp [Scheduler.settleExecute]
  | otherError => simp [Scheduler.settleExecute]
  | apiError e =>
      cases retryable : e.retryable with
      | false => simp [Scheduler.settleExecute, retryable]
      | true =>
          simp only [Scheduler.settleExecute, retryable, Bool.not_true, Bool.false_eq_true,
            if_false, Scheduler.backOff, reduceCtorEq, false_or, CallOutcome.apiError.injEq,
            exists_eq_left', true_and]
          cases delayed : backoffDelay (a.loop.failed e).attempts sch.backoffBase sch.backoffCap
              e.retryAfter u with
          | none => exact iff_of_true ⟨_, rfl⟩ (backoffDelay_eq_none_iff.mp delayed)
          | some delay =>
              refine iff_of_false ?_ ?_
              · rintro ⟨after, stopped⟩
                cases stopped
              · exact not_overflows_of_delayed delayed

/-- Whatever the adapter raises as a provider error has the right flag. -/
theorem chatCompletion_flag {latencyMs : ℚ} {answer : Except TransportError HttpAnswer}
    {e : ProviderAPIError} (raised : chatCompletion lib name latencyMs answer = .apiError e) :
    e.retryable = true ↔ chatRetryable answer := by
  cases answer with
  | error exc => exact iff_of_true (outcome_apiError_retryable raised) trivial
  | ok answer =>
      simp only [chatCompletion] at raised
      split_ifs at raised
      · cases read : answer.text with
        | none => simp [read] at raised
        | some text =>
            simp only [read, CallOutcome.apiError.injEq] at raised
            rw [← raised]
            exact statusError_retryable_iff lib _ _ _
      · split at raised <;> cases raised

theorem chatCompletion_retryAfter {latencyMs : ℚ} {answer : Except TransportError HttpAnswer}
    {e : ProviderAPIError} (raised : chatCompletion lib name latencyMs answer = .apiError e) :
    e.retryAfter = chatRetryAfter lib answer := by
  cases answer with
  | error exc => exact outcome_retryAfter raised
  | ok answer =>
      simp only [chatCompletion] at raised
      split_ifs at raised
      · cases read : answer.text with
        | none => simp [read] at raised
        | some text =>
            simp only [read, CallOutcome.apiError.injEq] at raised
            rw [← raised]
            rfl
      · split at raised <;> cases raised

variable (name) in
/-- What a clean answer gives is a result that is an object, or a provider error. -/
theorem ChatClean.outcome {answer : Except TransportError HttpAnswer} (clean : ChatClean lib answer)
    (latencyMs : ℚ) :
    (∃ result, chatCompletion lib name latencyMs answer = .success result ∧ result.raw.IsObject) ∨
      ∃ e, chatCompletion lib name latencyMs answer = .apiError e := by
  cases answer with
  | error exc =>
      obtain ⟨e, raised, -⟩ := (outcome_retryable_iff "contacting" name exc).mpr clean
      exact .inr ⟨e, raised⟩
  | ok answer =>
      by_cases refused : 400 ≤ answer.status
      · simp only [ChatClean, if_pos refused] at clean
        obtain ⟨text, read⟩ := clean
        exact .inr ⟨statusError lib answer.status answer.retryAfterHeader text,
          by simp [chatCompletion, refused, read]⟩
      · simp only [ChatClean, if_neg refused] at clean
        obtain ⟨members, loaded⟩ := clean
        exact .inl ⟨{ raw := .obj members, latencyMs, providerName := name },
          by simp [chatCompletion, refused, loaded], members, rfl⟩

theorem chatClean_of_outcome {latencyMs : ℚ} {answer : Except TransportError HttpAnswer}
    (mapped : chatCompletion lib name latencyMs answer ≠ .otherError)
    (result : ∀ result, chatCompletion lib name latencyMs answer = .success result →
      result.raw.IsObject) : ChatClean lib answer := by
  cases answer with
  | error exc => exact (outcome_clean_iff "contacting" name exc).mp mapped
  | ok answer =>
      by_cases refused : 400 ≤ answer.status
      · simp only [chatCompletion, if_pos refused] at mapped
        rw [ChatClean, if_pos refused]
        cases read : answer.text with
        | none => simp [read] at mapped
        | some text => exact ⟨text, rfl⟩
      · simp only [chatCompletion, if_neg refused] at mapped result
        rw [ChatClean, if_neg refused]
        cases loaded : answer.json lib with
        | error reason => simp [loaded] at mapped
        | ok raw =>
            rw [loaded] at result
            obtain ⟨members, object⟩ := result _ rfl
            exact ⟨members, congrArg Except.ok object⟩

variable (name) in
/-- What may be retried is not a result. -/
theorem ChatClean.raises {answer : Except TransportError HttpAnswer} (clean : ChatClean lib answer)
    (retryable : chatRetryable answer) (latencyMs : ℚ) :
    ∃ e, chatCompletion lib name latencyMs answer = .apiError e := by
  rcases clean.outcome name latencyMs with ⟨result, returned, -⟩ | raised
  · cases answer with
    | error exc =>
        cases exc <;> simp [chatCompletion, TransportError.outcome, TransportError.mapped] at returned
    | ok answer =>
        have transient : ∀ code ∈ transientStatusCodes, 400 ≤ code := by decide
        simp only [chatCompletion, if_pos (transient _ retryable)] at returned
        split at returned <;> cases returned
  · exact raised

theorem ChatClassified.clean {latencyMs : ℚ} {tried : ℕ} {answer : Except TransportError HttpAnswer}
    (classified : ChatClassified lib name latencyMs tried answer) :
    ChatClean lib answer ∧ ¬ DelayFails lib tried answer := by
  have clean := chatClean_of_outcome classified.mapped classified.result
  refine ⟨clean, ?_⟩
  rintro ⟨retryable, large⟩
  obtain ⟨e, raised⟩ := clean.raises name retryable latencyMs
  rw [← chatCompletion_retryAfter raised] at large
  let l : LoopState := { path := .execute, request := Demo.request "m", attempts := tried }
  let a : Attempt :=
    { loop := l, decision := { provider := "a", model := .str "m", score := 0 }, rest := [], start := 0 }
  let s := (Demo.gateway fun _ => Demo.config [] 10).app
  obtain ⟨after, stopped⟩ := (settle_otherError_iff Demo.scheduler s a Demo.half rfl _).mpr
    (.inr ⟨e, raised, (chatCompletion_flag raised).mpr retryable, large⟩)
  exact classified.settles Demo.scheduler s a Demo.half rfl rfl after stopped

theorem ChatClean.classified {latencyMs : ℚ} {tried : ℕ}
    {answer : Except TransportError HttpAnswer} (clean : ChatClean lib answer)
    (delayed : ¬ DelayFails lib tried answer) : ChatClassified lib name latencyMs tried answer := by
  have mapped : chatCompletion lib name latencyMs answer ≠ .otherError := by
    rcases clean.outcome name latencyMs with ⟨result, returned, -⟩ | ⟨e, raised⟩
    · simp [returned]
    · simp [raised]
  refine ⟨?_, fun e => chatCompletion_flag, mapped, ?_⟩
  · intro result same
    rcases clean.outcome name latencyMs with ⟨result', returned, object⟩ | ⟨e, raised⟩
    · rw [returned] at same
      rw [← CallOutcome.success.inj same]
      exact object
    · rw [raised] at same
      cases same
  · intro sch s a u path number after stopped
    rcases (settle_otherError_iff sch s a u path _).mp ⟨after, stopped⟩ with other | failed
    · exact mapped other
    · obtain ⟨e, raised, retryable, large⟩ := failed
      rw [number, chatCompletion_retryAfter raised] at large
      exact delayed ⟨(chatCompletion_flag raised).mp retryable, large⟩

/-- Lines are read below 400 only, and then nothing but the transport raises. -/
theorem readLines_flag {broken : Option TransportError} {lines : List String} {e : ProviderAPIError}
    (raised : (readLines lib name broken lines).2 = .apiError e) : e.retryable = true := by
  induction lines with
  | nil =>
      cases broken with
      | none => simp [readLines, streamEnded] at raised
      | some exc => exact outcome_apiError_retryable raised
  | cons line rest ih =>
      cases field : dataField line with
      | none => exact ih (by simpa [readLines, field] using raised)
      | some data =>
          by_cases last : data = "[DONE]"
          · simp [readLines, field, last, streamEnded] at raised
          · cases loaded : lib.loads data with
            | ok value => exact ih (by simpa [readLines, field, last, loaded] using raised)
            | error reason =>
                cases reason with
                | decode => exact ih (by simpa [readLines, field, last, loaded] using raised)
                | other => simp [readLines, field, last, loaded] at raised

theorem streamCompletion_flag {answer : StreamAnswer} {e : ProviderAPIError}
    (raised : (streamCompletion lib name answer).2 = .apiError e) :
    e.retryable = true ↔ answer.Retryable := by
  cases answer with
  | refused exc => exact iff_of_true (outcome_apiError_retryable raised) trivial
  | answered status retryAfterHeader body lines broken =>
      by_cases refused : 400 ≤ status
      · simp only [streamCompletion, if_pos refused] at raised
        cases body with
        | error exc => exact iff_of_true (outcome_apiError_retryable raised) trivial
        | ok text =>
            rw [← CallOutcome.apiError.inj raised, statusError_retryable_iff]
            exact ⟨.inr, fun transient => transient.resolve_left (not_lt.mpr refused)⟩
      · simp only [streamCompletion, if_neg refused] at raised
        refine iff_of_true (readLines_flag raised) ?_
        cases body with
        | error exc => trivial
        | ok text => exact .inl (not_le.mp refused)

theorem stream_classified_iff {answer : StreamAnswer} :
    StreamClassified lib name answer ↔ answer.Clean lib Json.IsObject := by
  rw [streamCompletion_clean_iff lib name]
  exact ⟨fun classified => ⟨classified.mapped, classified.values⟩,
    fun ⟨mapped, values⟩ => ⟨values, fun e => streamCompletion_flag, mapped⟩⟩

end adapter

/-- The failures that are classified, on both paths. -/
theorem upstream_failures_classified_iff (lib : Libraries) (name : String) :
    (∀ latencyMs tried answer, ChatClassified lib name latencyMs tried answer ↔
        ChatClean lib answer ∧ ¬ DelayFails lib tried answer) ∧
      ∀ answer, StreamClassified lib name answer ↔ answer.Clean lib Json.IsObject :=
  ⟨fun _ _ _ => ⟨ChatClassified.clean, fun ⟨clean, delayed⟩ => clean.classified delayed⟩,
    fun _ => stream_classified_iff⟩

/-- A broken read on either path, a page that is not JSON behind a status of 200, and an error
page in a charset whose codec raises. -/
theorem read_error_not_classified :
    ¬ ChatClassified Demo.libraries "a" 120 0 (.error .other) ∧
      ¬ ChatClassified Demo.libraries "a" 120 0 (.ok (Demo.page "<html></html>")) ∧
      ¬ ChatClassified Demo.libraries "a" 120 0
        (.ok { Demo.page "busy" with status := 503, text := none }) ∧
      ¬ StreamClassified Demo.libraries "a" (.answered 200 none (.ok "") [] (some .other)) :=
  ⟨fun classified => classified.mapped rfl, fun classified => classified.mapped rfl,
    fun classified => classified.mapped rfl, fun classified => classified.mapped rfl⟩

end Noxis
