import Noxis.OpenAIObjects
import Noxis.ProvidersFile

/-! What the gateway writes, read again: the dump of an answer, validated when it comes out of the
cache, and normalised when the upstream is itself a gateway. -/
namespace Noxis

/-! ### Dumps with null for `None` -/

def ChatMessage.modelDump (m : ChatMessage) : Json :=
  .obj [("role", .str m.role.value), ("content", .ofOption MessageContent.dump m.content),
    ("name", .ofOption .str m.name),
    ("tool_calls", .ofOption (fun calls => .arr (calls.map ToolCall.dump)) m.toolCalls),
    ("tool_call_id", .ofOption .str m.toolCallId)]

def ChatCompletionChoice.modelDump (c : ChatCompletionChoice) : Json :=
  .obj [("index", .ofInt c.index), ("message", c.message.modelDump),
    ("finish_reason", .ofOption .str c.finishReason)]

def Usage.modelDump (u : Usage) : Json :=
  .obj [("prompt_tokens", .ofInt u.promptTokens), ("completion_tokens", .ofInt u.completionTokens),
    ("total_tokens", .ofInt u.totalTokens)]

def ChatCompletionResponse.modelDump (r : ChatCompletionResponse) : List (String × Json) :=
  [("id", .str r.id), ("object", .str "chat.completion"), ("created", .ofInt r.created),
    ("model", .str r.model), ("choices", .arr (r.choices.map ChatCompletionChoice.modelDump)),
    ("usage", r.usage.modelDump), ("system_fingerprint", .null),
    ("noxis_provider", .ofOption .str r.noxisProvider)]

def DeltaMessage.modelDump (d : DeltaMessage) : Json :=
  .obj [("role", .ofOption .str d.role), ("content", .ofOption .str d.content),
    ("tool_calls", .ofOption (fun calls => .arr (calls.map .obj)) d.toolCalls)]

def ChatCompletionChunkChoice.modelDump (c : ChatCompletionChunkChoice) : Json :=
  .obj [("index", .ofInt c.index), ("delta", c.delta.modelDump),
    ("finish_reason", .ofOption .str c.finishReason)]

def ChatCompletionChunk.modelDump (c : ChatCompletionChunk) : List (String × Json) :=
  [("id", .str c.id), ("object", .str "chat.completion.chunk"), ("created", .ofInt c.created),
    ("model", .str c.model), ("choices", .arr (c.choices.map ChatCompletionChunkChoice.modelDump)),
    ("noxis_provider", .str c.noxisProvider)]

/-! ### Validation of an answer -/

/-- A field of type `Literal[...]` with one text, which is its default. -/
def constant (text : String) (v : Json) : Except ChunkError Unit :=
  match v with
  | .scalar (.str s) => if s = text then .ok () else .error .validationError
  | _ => .error .validationError

def requiredList : Json → Except ChunkError (List Json)
  | .arr items => .ok items
  | _ => .error .validationError

def validateMessage (v : Json) : Except ChunkError ChatMessage := do
  let members ← requiredDict v
  let role ← requiredRole (Json.get members "role" .null)
  let content ← optionalContent (Json.get members "content" .null)
  let name ← optionalStr (Json.get members "name" .null)
  let toolCalls ← optionalToolCalls (Json.get members "tool_calls" .null)
  let toolCallId ← optionalStr (Json.get members "tool_call_id" .null)
  return { role, content, name, toolCalls, toolCallId }

def validateChoice (lib : Libraries) (v : Json) : Except ChunkError ChatCompletionChoice := do
  let members ← requiredDict v
  let index ← requiredInt lib (Json.get members "index" .null)
  let message ← validateMessage (Json.get members "message" .null)
  let finishReason ← optionalStr (Json.get members "finish_reason" .null)
  return { index, message, finishReason }

def validateUsage (lib : Libraries) (v : Json) : Except ChunkError Usage := do
  let members ← requiredDict v
  let promptTokens ← requiredInt lib (Json.get members "prompt_tokens" (.ofInt 0))
  let completionTokens ← requiredInt lib (Json.get members "completion_tokens" (.ofInt 0))
  let totalTokens ← requiredInt lib (Json.get members "total_tokens" (.ofInt 0))
  return { promptTokens, completionTokens, totalTokens }

/-- `ChatCompletionResponse(**cached)` at that time. -/
def validateResponse (lib : Libraries) (now : ℤ) (cached : List (String × Json)) :
    Except ChunkError ChatCompletionResponse := do
  let id ← requiredStr (Json.get cached "id" .null)
  let _ ← constant "chat.completion" (Json.get cached "object" (.str "chat.completion"))
  let created ← requiredInt lib (Json.get cached "created" (.ofInt now))
  let model ← requiredStr (Json.get cached "model" .null)
  let items ← requiredList (Json.get cached "choices" .null)
  let choices ← items.mapM (validateChoice lib)
  let usage ← validateUsage lib (Json.get cached "usage" (.obj []))
  let _ ← optionalStr (Json.get cached "system_fingerprint" .null)
  let noxisProvider ← optionalStr (Json.get cached "noxis_provider" .null)
  return { id, created, model, choices, usage, noxisProvider }

/-! ### One field after the other -/

section fields

@[simp] theorem optionalStr_dump (s : Option String) : optionalStr (.ofOption .str s) = .ok s := by
  cases s <;> rfl

@[simp] theorem requiredRole_dump (role : MessageRole) : requiredRole (.str role.value) = .ok role := by
  cases role <;> rfl

theorem mapM_dump {α : Type} {read : Json → Except ChunkError α} {dump : α → Json} {items : List α}
    (each : ∀ a ∈ items, read (dump a) = .ok a) : (items.map dump).mapM read = .ok items := by
  induction items with
  | nil => rfl
  | cons a rest ih =>
      rw [List.map_cons, List.mapM_cons, each a (by simp), ih fun b member => each b (by simp [member])]
      rfl

theorem requiredDict_dump (dicts : List (List (String × Json))) :
    (dicts.map Json.obj).mapM requiredDict = .ok dicts :=
  mapM_dump fun dict _ => (rfl : requiredDict (.obj dict) = .ok dict)

@[simp] theorem toolCall_dump (t : ToolCall) : toolCall t.dump = .ok t := by
  simp [toolCall, ToolCall.dump, requiredDict, Json.get, Json.member?, requiredStr, functionType,
    Json.str, bind, Except.bind, pure, Except.pure]

@[simp] theorem optionalToolCalls_dump (calls : Option (List ToolCall)) :
    optionalToolCalls (.ofOption (fun calls => .arr (calls.map ToolCall.dump)) calls) = .ok calls := by
  cases calls with
  | none => rfl
  | some calls =>
      change (((calls.map ToolCall.dump).mapM toolCall).map some) = _
      rw [mapM_dump fun t _ => toolCall_dump t]
      rfl

@[simp] theorem optionalDicts_dump (calls : Option (List (List (String × Json)))) :
    optionalDicts (.ofOption (fun calls => .arr (calls.map .obj)) calls) = .ok calls := by
  cases calls with
  | none => rfl
  | some calls =>
      change (((calls.map Json.obj).mapM requiredDict).map some) = _
      rw [requiredDict_dump]
      rfl

/-- The parts of a content are dictionaries. -/
def Fits (content : Option MessageContent) : Prop :=
  ∀ items, content = some (.parts items) → ∃ dicts : List (List (String × Json)), items = dicts.map .obj

theorem fits_of_optionalContent {v : Json} {content : Option MessageContent}
    (ok : optionalContent v = .ok content) : Fits content := by
  rintro items rfl
  rcases v with (_ | _ | _ | _ | s) | given | members
  case arr =>
    cases dicts : given.mapM requiredDict with
    | error e => simp [optionalContent, dicts, bind, Except.bind] at ok
    | ok read =>
        simp only [optionalContent, dicts, bind, Except.bind, pure, Except.pure, Except.ok.injEq,
          Option.some.injEq, MessageContent.parts.injEq] at ok
        exact ⟨read, ok.symm⟩
  all_goals simp [optionalContent] at ok

theorem optionalContent_dump {content : Option MessageContent} (fits : Fits content) :
    optionalContent (.ofOption MessageContent.dump content) = .ok content := by
  match content with
  | none => rfl
  | some (.text s) => rfl
  | some (.parts items) =>
      obtain ⟨dicts, rfl⟩ := fits items rfl
      change ((dicts.map Json.obj).mapM requiredDict >>= fun dicts =>
        return some (MessageContent.parts (dicts.map Json.obj))) = _
      rw [requiredDict_dump]
      rfl

theorem requiredInt_ofInt {lib : Libraries} (ints : ∀ n, lib.coerceInt (.scalar (.int n)) = some n)
    (n : ℤ) : requiredInt lib (.ofInt n) = .ok n := by
  simp [requiredInt, Json.ofInt, ints]

end fields

/-! ### Answers -/

/-- A message as the gateway makes it: its parts are dictionaries, and it has a role, a content and
tool calls only. -/
structure ChatMessage.Plain (m : ChatMessage) : Prop where
  content : Fits m.content
  name : m.name = none
  toolCallId : m.toolCallId = none

section answers
variable {lib : Libraries} (ints : ∀ n, lib.coerceInt (.scalar (.int n)) = some n)

theorem plain_of_normalizeAnswer {i : ℕ} {v : Json} {c : ChatCompletionChoice}
    (ok : normalizeAnswer lib i v = .ok c) : c.message.Plain := by
  unfold normalizeAnswer at ok
  obtain ⟨members, -, ok⟩ := bind_eq_ok.mp ok
  obtain ⟨msg, -, ok⟩ := bind_eq_ok.mp ok
  obtain ⟨role, -, ok⟩ := bind_eq_ok.mp ok
  obtain ⟨content, read, ok⟩ := bind_eq_ok.mp ok
  obtain ⟨toolCalls, -, ok⟩ := bind_eq_ok.mp ok
  obtain ⟨index, -, ok⟩ := bind_eq_ok.mp ok
  obtain ⟨finishReason, -, ok⟩ := bind_eq_ok.mp ok
  obtain rfl := Except.ok.inj ok
  exact ⟨fits_of_optionalContent read, rfl, rfl⟩

theorem validateMessage_dump {m : ChatMessage} (fits : Fits m.content) :
    validateMessage m.modelDump = .ok m := by
  have content := optionalContent_dump fits
  simp [validateMessage, ChatMessage.modelDump, requiredDict, Json.get, Json.member?, content, bind,
    Except.bind, pure, Except.pure]

include ints

theorem validateChoice_dump {c : ChatCompletionChoice} (fits : Fits c.message.content) :
    validateChoice lib c.modelDump = .ok c := by
  have message := validateMessage_dump fits
  have index := requiredInt_ofInt ints c.index
  simp [validateChoice, ChatCompletionChoice.modelDump, requiredDict, Json.get, Json.member?, message,
    index, bind, Except.bind, pure, Except.pure]

theorem validateUsage_dump (u : Usage) : validateUsage lib u.modelDump = .ok u := by
  simp [validateUsage, Usage.modelDump, requiredDict, Json.get, Json.member?, requiredInt_ofInt ints,
    bind, Except.bind, pure, Except.pure]

theorem validateResponse_dump {r : ChatCompletionResponse}
    (fits : ∀ c ∈ r.choices, Fits c.message.content) (now : ℤ) :
    validateResponse lib now r.modelDump = .ok r := by
  have choices : (r.choices.map ChatCompletionChoice.modelDump).mapM (validateChoice lib) =
      .ok r.choices := mapM_dump fun c member => validateChoice_dump ints (fits c member)
  have created := requiredInt_ofInt ints r.created
  have usage := validateUsage_dump ints r.usage
  have unset : optionalStr .null = .ok none := rfl
  simp [validateResponse, ChatCompletionResponse.modelDump, Json.get, Json.member?, requiredStr,
    constant, requiredList, Json.str, choices, created, usage, unset, bind, Except.bind, pure,
    Except.pure]

/-- Normalising the dump of a choice gives the choice back, wherever it stands. -/
theorem normalizeAnswer_dump {c : ChatCompletionChoice} (plain : c.message.Plain) (i : ℕ) :
    normalizeAnswer lib i c.modelDump = .ok c := by
  obtain ⟨fits, noName, noToolCallId⟩ := plain
  have content := optionalContent_dump fits
  have index := requiredInt_ofInt ints c.index
  obtain ⟨index', ⟨role, content', name, toolCalls, toolCallId⟩, finishReason⟩ := c
  simp only at noName noToolCallId content index
  subst noName noToolCallId
  simp [normalizeAnswer, ChatCompletionChoice.modelDump, ChatMessage.modelDump, asDict, Json.get,
    Json.member?, content, index, bind, Except.bind, pure, Except.pure]

theorem normalizeUsage_dump (u : Usage) : normalizeUsage lib u.modelDump = .ok u := by
  simp [normalizeUsage, Usage.modelDump, Json.orElse, Json.truthy, asDict, Json.get, Json.member?,
    Json.ofInt, requiredInt, ints, bind, Except.bind, pure, Except.pure]

theorem enumerateM_dump {choices : List ChatCompletionChoice}
    (plain : ∀ c ∈ choices, c.message.Plain) (i : ℕ) :
    enumerateM (normalizeAnswer lib) i (choices.map ChatCompletionChoice.modelDump) = .ok choices := by
  induction choices generalizing i with
  | nil => rfl
  | cons c rest ih =>
      have first := normalizeAnswer_dump ints (plain c (by simp)) i
      have others := ih (fun d member => plain d (by simp [member])) (i + 1)
      simp [enumerateM, first, others, bind, Except.bind, pure, Except.pure]

/-- Normalising the dump of an answer changes the provider that is named in it, and nothing else. -/
theorem normalizeChatResponse_dump {r : ChatCompletionResponse}
    (plain : ∀ c ∈ r.choices, c.message.Plain) (chosen : r.choices ≠ []) (named : r.id ≠ "")
    (chatId : String) (now : ℤ) (requestedModel provider : String) :
    normalizeChatResponse lib (.obj r.modelDump) chatId now requestedModel provider =
      .ok { r with noxisProvider := some provider } := by
  have choices := enumerateM_dump ints plain 0
  have usage := normalizeUsage_dump ints r.usage
  have created := requiredInt_ofInt ints r.created
  have present : (Json.str r.id).truthy = true := by
    simpa [Json.str, Json.truthy, Scalar.truthy] using named
  have some_chosen : r.choices.isEmpty = false := by simpa using chosen
  simp [normalizeChatResponse, ChatCompletionResponse.modelDump, asDict, iterate, Json.get,
    Json.member?, Json.orElse, choices, usage, created, present, some_chosen, bind, Except.bind,
    pure, Except.pure]
  simp [requiredStr]

omit ints in
theorem plain_of_enumerateM {i : ℕ} {items : List Json} {choices : List ChatCompletionChoice}
    (ok : enumerateM (normalizeAnswer lib) i items = .ok choices) :
    ∀ c ∈ choices, c.message.Plain := by
  induction items generalizing i choices with
  | nil =>
      obtain rfl := Except.ok.inj ok
      simp
  | cons v rest ih =>
      obtain ⟨first, one, ok⟩ := bind_eq_ok.mp ok
      obtain ⟨others, more, ok⟩ := bind_eq_ok.mp ok
      obtain rfl := Except.ok.inj ok
      intro c member
      rcases List.mem_cons.mp member with rfl | later
      · exact plain_of_normalizeAnswer one
      · exact ih more c later

omit ints in
/-- What normalisation makes of any body. -/
theorem made_by_normalizeChatResponse {raw : Json} {chatId requestedModel provider : String} {now : ℤ}
    {r : ChatCompletionResponse} (generated : chatId ≠ "")
    (ok : normalizeChatResponse lib raw chatId now requestedModel provider = .ok r) :
    (∀ c ∈ r.choices, c.message.Plain) ∧ r.choices ≠ [] ∧ r.id ≠ "" := by
  unfold normalizeChatResponse at ok
  obtain ⟨members, -, ok⟩ := bind_eq_ok.mp ok
  obtain ⟨items, -, ok⟩ := bind_eq_ok.mp ok
  obtain ⟨choices, read, ok⟩ := bind_eq_ok.mp ok
  obtain ⟨usage, -, ok⟩ := bind_eq_ok.mp ok
  obtain ⟨id, named, ok⟩ := bind_eq_ok.mp ok
  obtain ⟨created, -, ok⟩ := bind_eq_ok.mp ok
  obtain ⟨model, -, ok⟩ := bind_eq_ok.mp ok
  obtain rfl := Except.ok.inj ok
  have plain := plain_of_enumerateM read
  refine ⟨?_, ?_, ?_⟩
  · intro c member
    by_cases empty : choices.isEmpty = true
    · simp only [empty, if_true, List.mem_singleton] at member
      subst member
      refine ⟨?_, rfl, rfl⟩
      intro parts same
      cases same
    · simp only [empty] at member
      exact plain c (by simpa using member)
  · by_cases empty : choices = []
    · simp [empty]
    · simp [empty]
  · rintro rfl
    by_cases given : (Json.get members "id" .null).truthy = true
    · rw [Json.orElse, if_pos given] at named
      unfold requiredStr at named
      split at named
      next s found =>
        obtain rfl : s = "" := Except.ok.inj named
        rw [found] at given
        cases given
      next => cases named
    · rw [Json.orElse, if_neg given] at named
      exact generated (Except.ok.inj named)

end answers

/-- Whatever the upstream sent, the dump of the answer made of it validates back to the answer, as
for a hit in the cache, and a second gateway that reads the dump makes the same answer of it,
under its own provider's name. -/
theorem response_round_trip (lib : Libraries)
    (ints : ∀ n, lib.coerceInt (.scalar (.int n)) = some n) (raw : Json)
    (chatId requestedModel provider : String) (generated : chatId ≠ "") (now : ℤ)
    (r : ChatCompletionResponse)
    (ok : normalizeChatResponse lib raw chatId now requestedModel provider = .ok r) :
    (∀ time, validateResponse lib time r.modelDump = .ok r) ∧
      ∀ chatId' time model' provider',
        normalizeChatResponse lib (.obj r.modelDump) chatId' time model' provider' =
          .ok { r with noxisProvider := some provider' } := by
  obtain ⟨plain, chosen, named⟩ := made_by_normalizeChatResponse generated ok
  constructor
  · exact validateResponse_dump ints fun c member => (plain c member).content
  · exact normalizeChatResponse_dump ints plain chosen named

theorem response_round_trip_good_morning :
    ∃ r, normalizeChatResponse Demo.strictInts (Demo.upstreamJson []) "chatcmpl-1" 0 "m" "a" = .ok r ∧
      (∀ time, validateResponse Demo.strictInts time r.modelDump = .ok r) ∧
      ∀ chatId' time model' provider',
        normalizeChatResponse Demo.strictInts (.obj r.modelDump) chatId' time model' provider' =
          .ok { r with noxisProvider := some provider' } :=
  ⟨_, rfl, response_round_trip Demo.strictInts Demo.strictInts_int (Demo.upstreamJson []) "chatcmpl-1" "m" "a"
    (by decide) 0 _ rfl⟩

/-! ### Chunks -/

section chunks
variable {lib : Libraries} (ints : ∀ n, lib.coerceInt (.scalar (.int n)) = some n)
include ints

theorem normalizeChoice_dump (c : ChatCompletionChunkChoice) (i : ℕ) :
    normalizeChoice lib i c.modelDump = .ok c := by
  have index := requiredInt_ofInt ints c.index
  simp [normalizeChoice, ChatCompletionChunkChoice.modelDump, DeltaMessage.modelDump, asDict, Json.get,
    Json.member?, index, bind, Except.bind, pure, Except.pure]

theorem normalizeChoices_dump (choices : List ChatCompletionChunkChoice) (i : ℕ) :
    normalizeChoices lib i (choices.map ChatCompletionChunkChoice.modelDump) = .ok choices := by
  induction choices generalizing i with
  | nil => rfl
  | cons c rest ih =>
      simp [normalizeChoices, normalizeChoice_dump ints c i, ih (i + 1), bind, Except.bind, pure,
        Except.pure]

/-- Normalising the dump of a chunk changes its time and the provider that is named in it, and
nothing else. -/
theorem normalizeChunk_dump (c : ChatCompletionChunk) (chatId : String) (now : ℤ)
    (requestedModel provider : String) :
    normalizeChunk lib (.obj c.modelDump) chatId now requestedModel provider =
      .ok { c with created := now, noxisProvider := provider } := by
  have choices := normalizeChoices_dump ints c.choices 0
  simp [normalizeChunk, ChatCompletionChunk.modelDump, asDict, iterate, Json.get, Json.member?, choices,
    bind, Except.bind, pure, Except.pure]
  simp [requiredStr]

end chunks
end Noxis
