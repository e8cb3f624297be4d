import Noxis.OpenAICompatible

/-! The streaming chat endpoint: chunk normalisation and the event generator. -/
namespace Noxis

/-- The exceptions of normalising a chunk and writing it out; `event_gen` catches none. -/
inductive ChunkError where
  | attributeError | typeError | validationError | serializationError
  deriving DecidableEq

/-- An object on which `.get` is called. -/
def asDict : Json → Except ChunkError (List (String × Json))
  | .obj members => .ok members
  | _ => .error .attributeError

/-- What `enumerate` goes through: the items of a list, the keys of an object, the
characters of a string. -/
def iterate : Json → Except ChunkError (List Json)
  | .arr items => .ok items
  | .obj members => .ok (members.map fun m => .str m.1)
  | .scalar (.str s) => .ok (s.toList.map fun c => .str (String.ofList [c]))
  | .scalar _ => .error .typeError

/-- A field of type `str | None`. -/
def optionalStr : Json → Except ChunkError (Option String)
  | .scalar .none => .ok none
  | .scalar (.str s) => .ok (some s)
  | _ => .error .validationError

def requiredStr : Json → Except ChunkError String
  | .scalar (.str s) => .ok s
  | _ => .error .validationError

def requiredDict : Json → Except ChunkError (List (String × Json))
  | .obj members => .ok members
  | _ => .error .validationError

/-- A field of type `list[dict[str, Any]] | None`. -/
def optionalDicts : Json → Except ChunkError (Option (List (List (String × Json))))
  | .scalar .none => .ok none
  | .arr items => (items.mapM requiredDict).map some
  | _ => .error .validationError

def requiredInt (lib : Libraries) (v : Json) : Except ChunkError ℤ :=
  match lib.coerceInt v with
  | some n => .ok n
  | none => .error .validationError

/-- One choice of a chunk; its position is the default of its index. -/
def normalizeChoice (lib : Libraries) (i : ℕ) (c : Json) :
    Except ChunkError ChatCompletionChunkChoice := do
  let c ← asDict c
  let delta ← asDict (Json.get c "delta" (.obj []))
  let role ← optionalStr (Json.get delta "role" .null)
  let content ← optionalStr (Json.get delta "content" .null)
  let toolCalls ← optionalDicts (Json.get delta "tool_calls" .null)
  let index ← requiredInt lib (Json.get c "index" (.scalar (.int i)))
  let finishReason ← optionalStr (Json.get c "finish_reason" .null)
  return { index, delta := { role, content, toolCalls }, finishReason }

def normalizeChoices (lib : Libraries) : ℕ → List Json →
    Except ChunkError (List ChatCompletionChunkChoice)
  | _, [] => .ok []
  | i, c :: rest => do
      let choice ← normalizeChoice lib i c
      let choices ← normalizeChoices lib (i + 1) rest
      return choice :: choices

/-- The chunk gets the time at which it is made. -/
def normalizeChunk (lib : Libraries) (raw : Json) (chatId : String) (now : ℤ)
    (requestedModel providerName : String) : Except ChunkError ChatCompletionChunk := do
  let raw ← asDict raw
  let items ← iterate (Json.get raw "choices" (.arr []))
  let choices ← normalizeChoices lib 0 items
  let id ← requiredStr (Json.get raw "id" (.str chatId))
  let model ← requiredStr (Json.get raw "model" (.str requestedModel))
  return { id, created := now, model, choices, noxisProvider := providerName }

/-- What is sent for one upstream value: `_normalize_chunk` and then `model_dump_json`. -/
def chunkData (lib : Libraries) (raw : Json) (chatId : String) (now : ℤ)
    (requestedModel providerName : String) : Except ChunkError String := do
  let chunk ← normalizeChunk lib raw chatId now requestedModel providerName
  match lib.dumpJson chunk with
  | some data => return data
  | none => throw .serializationError

/-- The `data` field of one server-sent event. -/
inductive SseEvent where
  | chunk (data : String)
  | done
  | error (payload : Json)

/-- The row written for a finished stream. -/
structure UsageEntry where
  provider : String
  model : String
  requestedModel : String
  status : String
  errorCode : Option String
  streamed : Bool

/-- The events sent and the usage recorded. After an exception that no handler catches
there is nothing more of either. -/
structure EventStream where
  events : List SseEvent
  usage : Option UsageEntry

/-- `exc.detail` of a `ServiceUnavailableError`. -/
def unavailableDetail (message : String) : Json :=
  .obj [("error", .obj [("message", .str message), ("type", .str "service_unavailable"),
    ("code", .str "NOXIS_ALL_PROVIDERS_FAILED"), ("param", .null)])]

def streamFailedDetail (message : String) : Json :=
  .obj [("error", .obj [("message", .str message), ("type", .str "service_unavailable"),
    ("code", .str "NOXIS_STREAM_FAILED")])]

/-- `event_gen` over what the scheduler yields and how its generator ends; `clock` reads the time
at each chunk. -/
def eventGen (lib : Libraries) (chatId model : String) (ending : RunEnd) :
    (ℕ → ℤ) → String → List (Json × String) → EventStream
  | _, providerUsed, [] =>
      let entry : UsageEntry :=
        { provider := providerUsed
          model := model
          requestedModel := model
          status := "success"
          errorCode := none
          streamed := true }
      match ending with
      | .completed => { events := [.done], usage := some entry }
      | .unavailable message =>
          { events := [.error (unavailableDetail message)]
            usage := some
              { entry with status := "error", errorCode := some "NOXIS_ALL_PROVIDERS_FAILED" } }
      | .providerError e => { events := [.error (streamFailedDetail e.message)], usage := none }
      | _ => { events := [], usage := none }
  | clock, _, (raw, provider) :: rest =>
      match chunkData lib raw chatId (clock 0) model provider with
      | .ok data =>
          let stream := eventGen lib chatId model ending (fun i => clock (i + 1)) provider rest
          { stream with events := .chunk data :: stream.events }
      | .error _ => { events := [], usage := none }

/-- A streaming chat request from its routing to its last event. A validated payload has
a string for its model. -/
def streamResponse (lib : Libraries) (sch : Scheduler) (env : Upstreams) (s : AppState)
    (payload : ChatCompletionRequest) (chatId model : String) (clock : ℕ → ℤ) : EventStream :=
  let r := sch.drain env .executeStream s (payload.withModel model)
  eventGen lib chatId model r.ending clock "unknown" (yielded r.events)

/-! ### The values that can be sent on -/

/-- A value that a field of type `str` takes. -/
def Json.IsStr (v : Json) : Prop := ∃ s, v = .str s

/-- A value that a field of type `str | None` takes. -/
def Json.IsOptionalStr (v : Json) : Prop := v = .null ∨ v.IsStr

/-- A value that a field of type `list[dict[str, Any]] | None` takes. -/
def Json.IsOptionalDicts (v : Json) : Prop :=
  v = .null ∨ ∃ items, v = .arr items ∧ ∀ item ∈ items, ∃ members, item = .obj members

/-- A choice that fits the schema at position `i`. -/
def ChoiceShaped (lib : Libraries) (i : ℕ) (c : Json) : Prop :=
  ∃ members delta, c = .obj members ∧ Json.get members "delta" (.obj []) = .obj delta ∧
    (Json.get delta "role" .null).IsOptionalStr ∧
    (Json.get delta "content" .null).IsOptionalStr ∧
    (Json.get delta "tool_calls" .null).IsOptionalDicts ∧
    (lib.coerceInt (Json.get members "index" (.scalar (.int i)))).isSome ∧
    (Json.get members "finish_reason" .null).IsOptionalStr

/-- Choices that fit: a list of such choices, or something empty to go through. -/
def ChoicesShaped (lib : Libraries) : Json → Prop
  | .arr items => ∀ i c, items[i]? = some c → ChoiceShaped lib i c
  | .obj members => members = []
  | .scalar (.str s) => s = ""
  | .scalar _ => False

/-- A value that fits the schema of a chunk. The id and model of the request stand in for
missing members. -/
def ChunkShaped (lib : Libraries) (raw : Json) : Prop :=
  ∃ members, raw = .obj members ∧ ChoicesShaped lib (Json.get members "choices" (.arr [])) ∧
    (∀ id ∈ Json.member? members "id", id.IsStr) ∧
    (∀ model ∈ Json.member? members "model", model.IsStr)

/-- A value that fits the schema and whose chunk can be written out. -/
def Sendable (lib : Libraries) (chatId requestedModel providerName : String) (raw : Json) : Prop :=
  ChunkShaped lib raw ∧
    ∀ now chunk, normalizeChunk lib raw chatId now requestedModel providerName = .ok chunk →
      (lib.dumpJson chunk).isSome

/-- A loop over `enumerate`, from the position `i` on. -/
def enumerateM {α : Type} (f : ℕ → Json → Except ChunkError α) : ℕ → List Json →
    Except ChunkError (List α)
  | _, [] => .ok []
  | i, c :: rest => do
      let first ← f i c
      let others ← enumerateM f (i + 1) rest
      return first :: others

/-- A value that can be gone through, with items that pass the test at their positions; keys
and characters do not. -/
def Json.Enumerates (P : ℕ → Json → Prop) : Json → Prop
  | .arr items => ∀ i c, items[i]? = some c → P i c
  | .obj members => members = []
  | .scalar (.str s) => s = ""
  | .scalar _ => False

section shapes

/-- A computation of two steps succeeds if the first does and then the second. -/
theorem exists_bind_ok {ε α β : Type} (x : Except ε α) (f : α → Except ε β) :
    (∃ r, x >>= f = .ok r) ↔ ∃ a, x = .ok a ∧ ∃ r, f a = .ok r := by
  cases x with
  | error e => simp [bind, Except.bind]
  | ok a => simp [bind, Except.bind]

/-- Steps whose results nothing later depends on succeed each for itself. -/
theorem exists_bind_ok_of_iff {ε α β : Type} {x : Except ε α} {f : α → Except ε β} {P Q : Prop}
    (first : (∃ a, x = .ok a) ↔ P) (second : ∀ a, (∃ r, f a = .ok r) ↔ Q) :
    (∃ r, x >>= f = .ok r) ↔ P ∧ Q := by
  rw [exists_bind_ok, ← first]
  constructor
  · rintro ⟨a, eq, ok⟩
    exact ⟨⟨a, eq⟩, (second a).mp ok⟩
  · rintro ⟨⟨a, eq⟩, ok⟩
    exact ⟨a, eq, (second a).mpr ok⟩

/-- The last step, whose result is only packed. -/
theorem exists_bind_ok_map {ε α β : Type} {x : Except ε α} {P : Prop}
    (last : (∃ a, x = .ok a) ↔ P) (g : α → β) : (∃ r, (do return g (← x)) = .ok r) ↔ P := by
  rw [← last]
  cases x <;> simp [bind, Except.bind, pure, Except.pure]

/-- A computation over the items of a list succeeds if it does on each of them. -/
theorem exists_mapM_ok {ε α β : Type} {f : α → Except ε β} {P : α → Prop}
    (each : ∀ a, (∃ b, f a = .ok b) ↔ P a) (items : List α) :
    (∃ r, items.mapM f = .ok r) ↔ ∀ item ∈ items, P item := by
  induction items with
  | nil => simp [pure, Except.pure]
  | cons item rest ih =>
      rw [List.mapM_cons, exists_bind_ok_of_iff (each item) fun b =>
        exists_bind_ok_map ih fun bs => b :: bs]
      simp

theorem asDict_ok_iff (v : Json) (members : List (String × Json)) :
    asDict v = .ok members ↔ v = .obj members := by
  cases v <;> simp [asDict]

theorem requiredStr_ok_iff (v : Json) : (∃ s, requiredStr v = .ok s) ↔ v.IsStr := by
  rcases v with (_ | _ | _ | _ | _) | _ | _ <;> simp [requiredStr, Json.IsStr, Json.str]

theorem optionalStr_ok_iff (v : Json) : (∃ s, optionalStr v = .ok s) ↔ v.IsOptionalStr := by
  rcases v with (_ | _ | _ | _ | _) | _ | _ <;>
    simp [optionalStr, Json.IsOptionalStr, Json.IsStr, Json.str, Json.null]

theorem requiredDict_ok_iff (v : Json) :
    (∃ members, requiredDict v = .ok members) ↔ ∃ members, v = .obj members := by
  cases v <;> simp [requiredDict]

theorem exists_map_some_ok {ε α : Type} (x : Except ε α) :
    (∃ r, x.map some = .ok r) ↔ ∃ a, x = .ok a := by
  cases x <;> simp [Except.map]

theorem optionalDicts_ok_iff (v : Json) : (∃ r, optionalDicts v = .ok r) ↔ v.IsOptionalDicts := by
  cases v with
  | arr items =>
      simp [optionalDicts, Json.IsOptionalDicts, exists_map_some_ok,
        exists_mapM_ok requiredDict_ok_iff]
  | obj members => simp [optionalDicts, Json.IsOptionalDicts]
  | scalar v => cases v <;> simp [optionalDicts, Json.IsOptionalDicts]

theorem requiredInt_ok_iff (lib : Libraries) (v : Json) :
    (∃ n, requiredInt lib v = .ok n) ↔ (lib.coerceInt v).isSome := by
  cases coerced : lib.coerceInt v <;> simp [requiredInt, coerced]

theorem normalizeChoice_ok_iff (lib : Libraries) (i : ℕ) (c : Json) :
    (∃ r, normalizeChoice lib i c = .ok r) ↔ ChoiceShaped lib i c := by
  rw [normalizeChoice, exists_bind_ok]
  simp only [asDict_ok_iff, exists_bind_ok (asDict _)]
  have fields := fun members delta : List (String × Json) =>
    exists_bind_ok_of_iff (optionalStr_ok_iff (Json.get delta "role" .null)) fun role =>
      exists_bind_ok_of_iff (optionalStr_ok_iff (Json.get delta "content" .null)) fun content =>
        exists_bind_ok_of_iff (optionalDicts_ok_iff (Json.get delta "tool_calls" .null))
          fun toolCalls =>
            exists_bind_ok_of_iff
              (requiredInt_ok_iff lib (Json.get members "index" (.scalar (.int i)))) fun index =>
                exists_bind_ok_map (optionalStr_ok_iff (Json.get members "finish_reason" .null))
                  fun finishReason => ({ index, delta := { role, content, toolCalls }, finishReason } :
                    ChatCompletionChunkChoice)
  constructor
  · rintro ⟨members, rfl, delta, inner, ok⟩
    exact ⟨members, delta, rfl, inner, (fields members delta).mp ok⟩
  · rintro ⟨members, delta, rfl, inner, shaped⟩
    exact ⟨members, rfl, delta, inner, (fields members delta).mpr shaped⟩

section enumerated
variable {α : Type} {f : ℕ → Json → Except ChunkError α} {P : ℕ → Json → Prop}

theorem enumerateM_ok_iff (each : ∀ i c, (∃ a, f i c = .ok a) ↔ P i c) (i : ℕ)
    (items : List Json) :
    (∃ r, enumerateM f i items = .ok r) ↔ ∀ j c, items[j]? = some c → P (i + j) c := by
  induction items generalizing i with
  | nil => simp [enumerateM]
  | cons c rest ih =>
      rw [enumerateM, exists_bind_ok_of_iff (each i c) fun choice =>
        exists_bind_ok_map (ih (i + 1)) fun choices => choice :: choices]
      constructor
      · rintro ⟨first, others⟩ j d found
        cases j with
        | zero =>
            obtain rfl : c = d := by simpa using found
            exact first
        | succ j =>
            have shaped := others j d (by simpa using found)
            rwa [Nat.add_right_comm] at shaped
      · intro all
        refine ⟨all 0 c rfl, fun j d found => ?_⟩
        rw [Nat.add_right_comm]
        exact all (j + 1) d (by simpa using found)

/-- Where no text passes, going through keys or characters must meet none. -/
theorem enumerateM_texts_iff (each : ∀ i c, (∃ a, f i c = .ok a) ↔ P i c)
    (noText : ∀ i s, ¬ P i (.str s)) (texts : List String) :
    (∃ r, enumerateM f 0 (texts.map .str) = .ok r) ↔ texts = [] := by
  cases texts with
  | nil => simp [enumerateM]
  | cons text rest =>
      rw [enumerateM_ok_iff each]
      simp only [reduceCtorEq, iff_false]
      intro all
      exact noText _ text (all 0 (.str text) (by simp))

theorem enumerated_ok_iff (each : ∀ i c, (∃ a, f i c = .ok a) ↔ P i c)
    (noText : ∀ i s, ¬ P i (.str s)) (v : Json) :
    (∃ items, iterate v = .ok items ∧ ∃ r, enumerateM f 0 items = .ok r) ↔ v.Enumerates P := by
  cases v with
  | arr items => simp [iterate, Json.Enumerates, enumerateM_ok_iff each]
  | obj members =>
      have keys := enumerateM_texts_iff each noText (members.map Prod.fst)
      rw [List.map_map, List.map_eq_nil_iff] at keys
      simpa [iterate, Json.Enumerates, Function.comp_def] using keys
  | scalar v =>
      cases v with
      | str s =>
          have characters :=
            enumerateM_texts_iff each noText (s.toList.map fun c => .ofList [c])
          rw [List.map_map, List.map_eq_nil_iff, String.toList_eq_nil_iff] at characters
          simpa [iterate, Json.Enumerates, Function.comp_def] using characters
      | _ => simp [iterate, Json.Enumerates]

end enumerated

theorem normalizeChoices_eq (lib : Libraries) (i : ℕ) (items : List Json) :
    normalizeChoices lib i items = enumerateM (normalizeChoice lib) i items := by
  induction items generalizing i with
  | nil => rfl
  | cons c rest ih => simp only [normalizeChoices, enumerateM, ih]

theorem choicesShaped_iff (lib : Libraries) (v : Json) :
    ChoicesShaped lib v ↔ v.Enumerates (ChoiceShaped lib) := by
  rcases v with (_ | _ | _ | _ | _) | _ | _ <;> rfl

theorem choices_ok_iff (lib : Libraries) (v : Json) :
    (∃ items, iterate v = .ok items ∧ ∃ r, normalizeChoices lib 0 items = .ok r) ↔
      ChoicesShaped lib v := by
  have noText : ∀ i s, ¬ ChoiceShaped lib i (.str s) := by
    rintro i s ⟨members, delta, object, -⟩
    cases object
  simp only [normalizeChoices_eq, choicesShaped_iff,
    enumerated_ok_iff (normalizeChoice_ok_iff lib) noText]

/-- A member with a text for its default is a text if it is absent or is one. -/
theorem get_isStr_iff (members : List (String × Json)) (name default : String) :
    (Json.get members name (.str default)).IsStr ↔
      ∀ v ∈ Json.member? members name, v.IsStr := by
  cases found : Json.member? members name <;> simp [Json.get, found, Json.IsStr]

/-- Normalisation succeeds exactly on the values that fit the schema. -/
theorem normalizeChunk_ok_iff (lib : Libraries) (raw : Json) (chatId : String) (now : ℤ)
    (requestedModel providerName : String) :
    (∃ chunk, normalizeChunk lib raw chatId now requestedModel providerName = .ok chunk) ↔
      ChunkShaped lib raw := by
  have rest := fun (members : List (String × Json)) (items : List Json) =>
    exists_bind_ok_of_iff (Iff.refl (∃ choices, normalizeChoices lib 0 items = .ok choices))
      fun choices =>
        exists_bind_ok_of_iff (requiredStr_ok_iff (Json.get members "id" (.str chatId))) fun id =>
          exists_bind_ok_map (requiredStr_ok_iff (Json.get members "model" (.str requestedModel)))
            fun model => ({ id, created := now, model, choices, noxisProvider := providerName } :
              ChatCompletionChunk)
  rw [normalizeChunk, exists_bind_ok]
  simp only [asDict_ok_iff, exists_bind_ok (iterate _)]
  constructor
  · rintro ⟨members, rfl, items, listed, ok⟩
    obtain ⟨choices, id, model⟩ := (rest members items).mp ok
    exact ⟨members, rfl, (choices_ok_iff lib _).mp ⟨items, listed, choices⟩,
      (get_isStr_iff ..).mp id, (get_isStr_iff ..).mp model⟩
  · rintro ⟨members, rfl, choices, id, model⟩
    obtain ⟨items, listed, choices⟩ := (choices_ok_iff lib _).mpr choices
    exact ⟨members, rfl, items, listed, (rest members items).mpr
      ⟨choices, (get_isStr_iff ..).mpr id, (get_isStr_iff ..).mpr model⟩⟩

/-- The time is the only thing in a chunk that depends on when it is made. -/
theorem normalizeChunk_later {lib : Libraries} {raw : Json} {chatId : String} {now : ℤ}
    {requestedModel providerName : String} {chunk : ChatCompletionChunk}
    (made : normalizeChunk lib raw chatId now requestedModel providerName = .ok chunk) {later : ℤ} :
    normalizeChunk lib raw chatId later requestedModel providerName =
      .ok { chunk with created := later } := by
  simp only [normalizeChunk, bind_eq_ok] at made
  obtain ⟨members, object, items, listed, choices, made, id, named, model, asked, packed⟩ := made
  obtain rfl := Except.ok.inj packed
  simp only [normalizeChunk, object, listed, made, named, asked, bind, Except.bind]
  rfl

/-- A value is sent on exactly if it fits the schema and its chunk can be written out. -/
theorem chunkData_ok_iff (lib : Libraries) (raw : Json) (chatId : String) (now : ℤ)
    (requestedModel providerName : String) :
    (∃ data, chunkData lib raw chatId now requestedModel providerName = .ok data) ↔
      Sendable lib chatId requestedModel providerName raw := by
  rw [chunkData, exists_bind_ok, Sendable, ← normalizeChunk_ok_iff lib raw chatId now requestedModel
    providerName]
  have written : ∀ chunk, (∃ data, (match lib.dumpJson chunk with
      | some data => pure data
      | none => throw .serializationError : Except ChunkError String) = .ok data) ↔
        (lib.dumpJson chunk).isSome := by
    intro chunk
    cases lib.dumpJson chunk <;> simp [pure, Except.pure, throw, throwThe, MonadExceptOf.throw]
  simp only [written]
  constructor
  · rintro ⟨chunk, ok, dumped⟩
    refine ⟨⟨chunk, ok⟩, fun later other ok' => ?_⟩
    rw [normalizeChunk_later ok] at ok'
    obtain rfl := Except.ok.inj ok'
    rwa [lib.stamped]
  · rintro ⟨⟨chunk, ok⟩, dumped⟩
    exact ⟨chunk, ok, dumped now chunk ok⟩

end shapes

end Noxis
