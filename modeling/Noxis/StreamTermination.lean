import Noxis.Chat
import Noxis.StreamOrder

/-! The termination protocol of the event stream: chunks, then one terminal event. An
exception that neither handler of the generator catches breaks it. -/
namespace Noxis

/-- Chunks, then `[DONE]` if the scheduler's generator ended normally and an error if not. -/
def FollowsProtocol (ending : RunEnd) (events : List SseEvent) : Prop :=
  ∃ (chunks : List String) (last : SseEvent),
    events = chunks.map SseEvent.chunk ++ [last] ∧
    ((ending = .completed ∧ last = .done) ∨
      (ending ≠ .completed ∧ ∃ payload, last = .error payload))

/-- The ends that reach one of the two handlers, or none of them because all is well. -/
def RunEnd.Handled : RunEnd → Prop
  | .completed | .unavailable _ | .providerError _ => True
  | _ => False

theorem not_followsProtocol_nil (ending : RunEnd) : ¬ FollowsProtocol ending [] := by
  rintro ⟨chunks, last, eq, -⟩
  simp at eq

/-- A chunk in front neither repairs nor breaks the protocol. -/
theorem followsProtocol_cons (ending : RunEnd) (data : String) (events : List SseEvent) :
    FollowsProtocol ending (.chunk data :: events) ↔ FollowsProtocol ending events := by
  constructor
  · rintro ⟨chunks, last, eq, terminal⟩
    cases chunks with
    | nil =>
        simp only [List.map_nil, List.nil_append, List.cons.injEq] at eq
        obtain ⟨rfl, -⟩ := eq
        simp at terminal
    | cons first chunks =>
        simp only [List.map_cons, List.cons_append, List.cons.injEq] at eq
        exact ⟨chunks, last, eq.2, terminal⟩
  · rintro ⟨chunks, last, rfl, terminal⟩
    exact ⟨data :: chunks, last, rfl, terminal⟩

/-- The generator keeps the protocol if and only if every value can be sent on and the
scheduler ends in a way that is handled. -/
theorem eventGen_followsProtocol_iff (lib : Libraries) (chatId model : String) (ending : RunEnd)
    (clock : ℕ → ℤ) (providerUsed : String) (out : List (Json × String)) :
    FollowsProtocol ending (eventGen lib chatId model ending clock providerUsed out).events ↔
      (∀ pair ∈ out, Sendable lib chatId model pair.2 pair.1) ∧ ending.Handled := by
  induction out generalizing clock providerUsed with
  | nil =>
      have single : ∀ event, FollowsProtocol ending [event] ↔
          ((ending = .completed ∧ event = .done) ∨
            (ending ≠ .completed ∧ ∃ payload, event = .error payload)) := by
        intro event
        constructor
        · rintro ⟨chunks, last, eq, terminal⟩
          cases chunks with
          | nil =>
              obtain rfl : event = last := by simpa using eq
              exact terminal
          | cons first chunks => simp at eq
        · intro terminal
          exact ⟨[], event, rfl, terminal⟩
      cases ending with
      | completed => simp [eventGen, RunEnd.Handled, single]
      | unavailable message => simp [eventGen, RunEnd.Handled, single]
      | providerError e => simp [eventGen, RunEnd.Handled, single]
      | otherError => simp [eventGen, RunEnd.Handled, not_followsProtocol_nil]
      | returned result provider => simp [eventGen, RunEnd.Handled, not_followsProtocol_nil]
      | cancelled => simp [eventGen, RunEnd.Handled, not_followsProtocol_nil]
  | cons pair rest ih =>
      obtain ⟨raw, provider⟩ := pair
      cases made : chunkData lib raw chatId (clock 0) model provider with
      | ok data =>
          have sendable := (chunkData_ok_iff lib raw chatId (clock 0) model provider).mp ⟨data, made⟩
          simp [eventGen, made, followsProtocol_cons, ih, sendable]
      | error reason =>
          have refused : ¬ Sendable lib chatId model provider raw := by
            rw [← chunkData_ok_iff lib raw chatId (clock 0), made]
            simp
          simp [eventGen, made, not_followsProtocol_nil, refused]

theorem streamEnd_handled_iff (outcome : CallOutcome) :
    (streamEnd outcome).Handled ↔ outcome ≠ .otherError := by
  cases outcome <;> simp [streamEnd, RunEnd.Handled]

/-- Two splits of a list at its first element without a property are at the same element. -/
theorem first_without_unique {α : Type} {P : α → Prop} {earlier earlier' later later' : List α}
    {x x' : α} (split : earlier ++ x :: later = earlier' ++ x' :: later')
    (all : ∀ y ∈ earlier, P y) (fails : ¬ P x) (all' : ∀ y ∈ earlier', P y) (fails' : ¬ P x') :
    x = x' := by
  rcases List.append_eq_append_iff.mp split with ⟨between, eq, tail⟩ | ⟨between, eq, tail⟩
  all_goals
    cases between with
    | nil =>
        simp only [List.nil_append, List.cons.injEq] at tail
        first | exact tail.1 | exact tail.1.symm
    | cons y between =>
        simp only [List.cons_append, List.cons.injEq] at tail
        obtain ⟨rfl, -⟩ := tail
        first
          | exact absurd (all' x (by simp [eq])) fails
          | exact absurd (all x' (by simp [eq])) fails'

section first
variable {α : Type} {P Q : α → Prop} {l earlier later : List α} {x : α}

/-- What is asked of the first element without a property is asked of this one. -/
theorem forall_first_iff (split : l = earlier ++ x :: later) (all : ∀ y ∈ earlier, P y)
    (fails : ¬ P x) :
    (∀ earlier' x' later', l = earlier' ++ x' :: later' → (∀ y ∈ earlier', P y) → ¬ P x' → Q x') ↔
      Q x := by
  constructor
  · intro asked
    exact asked earlier x later split all fails
  · intro fine earlier' x' later' split' all' fails'
    rw [first_without_unique (split'.symm.trans split) all' fails' all fails]
    exact fine

/-- Where every element has the property, nothing is asked. -/
theorem forall_first_of_all (all : ∀ y ∈ l, P y) (earlier' : List α) (x' : α) (later' : List α)
    (split' : l = earlier' ++ x' :: later') (_ : ∀ y ∈ earlier', P y) (fails' : ¬ P x') : Q x' :=
  absurd (all x' (by simp [split'])) fails'

end first

section overHttp
variable (env : Upstreams) (lib : Libraries) (answers : String → StreamAnswer)

theorem failsSilently_overHttp_iff (name : String) :
    FailsSilently (env.overHttp lib answers name) ↔ (answers name).Silent lib :=
  (streamCompletion_silent_iff lib name (answers name)).symm

theorem retriedSilently_overHttp_iff (p : RoutingDecision × ℕ) :
    RetriedSilently (env.overHttp lib answers) p ↔ (answers p.1.provider).Retried lib p.2 := by
  have asked : ∀ {e}, (env.overHttp lib answers p.1.provider).outcome = .apiError e →
      e.retryAfter = (answers p.1.provider).retryAfter lib := fun ends =>
    streamCompletion_retryAfter ends
  rw [StreamAnswer.Retried, ← failsSilently_overHttp_iff env]
  constructor
  · intro retried
    refine ⟨retried.failsSilently, ?_⟩
    obtain ⟨-, e, ends, -, small⟩ := retried
    rwa [← asked ends]
  · rintro ⟨⟨quiet, e, ends, retryable⟩, small⟩
    rw [← asked ends] at small
    exact ⟨quiet, e, ends, retryable, small⟩

end overHttp

/-- The event stream follows the protocol if and only if the first provider within the retry
bound that does not fail silently, with a delay behind its failure, if there is one, does not fail
silently at all, and answers with nothing but values that can be sent on and, at the end, no
exception that nothing maps. -/
theorem stream_terminates_iff (lib : Libraries) (sch : Scheduler) (env : Upstreams)
    (answers : String → StreamAnswer) (s : AppState) (payload : ChatCompletionRequest)
    (chatId model : String) (clock : ℕ → ℤ) :
    FollowsProtocol
        (sch.drain (env.overHttp lib answers) .executeStream s (payload.withModel model)).ending
        (streamResponse lib sch (env.overHttp lib answers) s payload chatId model clock).events ↔
      ∀ earlier p later,
        numbered 0 ((sch.eligibleDecisions s (payload.withModel model)).1.take
          sch.maxRetries.toNat) = earlier ++ p :: later →
        (∀ q ∈ earlier, (answers q.1.provider).Retried lib q.2) →
        ¬ (answers p.1.provider).Retried lib p.2 →
        ¬ (answers p.1.provider).Silent lib ∧
          (answers p.1.provider).Clean lib (Sendable lib chatId model p.1.provider) := by
  have run := sch.drain_streams (env.overHttp lib answers) s (payload.withModel model)
  simp only [streamResponse, eventGen_followsProtocol_iff, ← retriedSilently_overHttp_iff env,
    ← failsSilently_overHttp_iff env]
  generalize sch.drain (env.overHttp lib answers) .executeStream s (payload.withModel model) = r
    at run ⊢
  generalize numbered 0 ((sch.eligibleDecisions s (payload.withModel model)).1.take
    sch.maxRetries.toNat) = tried at run ⊢
  cases run with
  | allSilent silent called nothing message ending =>
      simp only [nothing, ending, List.not_mem_nil, false_implies, implies_true, RunEnd.Handled,
        and_self, true_iff]
      exact forall_first_of_all silent
  | stopsAt earlier p later split silent speaks called out ending =>
      rw [forall_first_iff split silent (mt RetriedSilently.failsSilently speaks)]
      simp only [speaks, not_false_eq_true, true_and]
      rw [streamCompletion_clean_iff lib p.1.provider, ending, streamEnd_handled_iff, and_comm, out,
        List.forall_mem_map]
      rfl
  | overflows earlier p later split silent fails large called nothing ending =>
      rw [forall_first_iff split silent large]
      simp [ending, RunEnd.Handled, fails]

/-- The stream is accepted, and the connection is reset before the first line arrives. -/
def Demo.resetConnection : String → StreamAnswer := fun _ =>
  .answered 200 none (.ok "") [] (some .other)

theorem stream_without_terminal_event :
    ¬ FollowsProtocol
      (Demo.scheduler.drain
        (Demo.surroundings.overHttp Demo.libraries Demo.resetConnection)
        .executeStream (Demo.gateway fun _ => Demo.config [] 10).app
        ((Demo.request "m").withModel "m")).ending
      (streamResponse Demo.libraries Demo.scheduler
        (Demo.surroundings.overHttp Demo.libraries Demo.resetConnection)
        (Demo.gateway fun _ => Demo.config [] 10).app (Demo.request "m") "chatcmpl-1" "m"
        fun _ => 1000).events := by
  have silent : (streamResponse Demo.libraries Demo.scheduler
      (Demo.surroundings.overHttp Demo.libraries Demo.resetConnection)
      (Demo.gateway fun _ => Demo.config [] 10).app (Demo.request "m") "chatcmpl-1" "m"
        fun _ => 1000).events.isEmpty
      = true := by decide +kernel
  rw [List.isEmpty_iff.mp silent]
  exact not_followsProtocol_nil _

end Noxis
