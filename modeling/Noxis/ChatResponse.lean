import Noxis.Cache
import Noxis.Chat

/-! The answer of the non-streaming path, built from what the provider returned. -/
namespace Noxis

structure Usage where
  promptTokens : ℤ
  completionTokens : ℤ
  totalTokens : ℤ

structure ChatCompletionChoice where
  index : ℤ
  message : ChatMessage
  finishReason : Option String

/-- Without the constant `object` and the fingerprint, which is never set. -/
structure ChatCompletionResponse where
  id : String
  created : ℤ
  model : String
  choices : List ChatCompletionChoice
  usage : Usage
  noxisProvider : Option String

/-- `v or default`. -/
def Json.orElse (v default : Json) : Json := if v.truthy then v else default

def messageRoles : List MessageRole := [.system, .user, .assistant, .tool, .developer]

def requiredRole : Json → Except ChunkError MessageRole
  | .scalar (.str s) =>
      match messageRoles.find? fun role => role.value = s with
      | some role => .ok role
      | none => .error .validationError
  | _ => .error .validationError

/-- A field of type `str | list[dict[str, Any]] | None`. -/
def optionalContent : Json → Except ChunkError (Option MessageContent)
  | .scalar .none => .ok none
  | .scalar (.str s) => .ok (some (.text s))
  | .arr items => do
      let dicts ← items.mapM requiredDict
      return some (.parts (dicts.map .obj))
  | _ => .error .validationError

/-- A field of type `Literal["function"]`. -/
def functionType : Json → Except ChunkError Unit
  | .scalar (.str s) => if s = "function" then .ok () else .error .validationError
  | _ => .error .validationError

/-- A missing member is refused as null is. -/
def toolCall (v : Json) : Except ChunkError ToolCall := do
  let members ← requiredDict v
  let id ← requiredStr (Json.get members "id" .null)
  let _ ← functionType (Json.get members "type" (.str "function"))
  let function ← requiredDict (Json.get members "function" .null)
  return { id, function }

/-- A field of type `list[ToolCall] | None`. -/
def optionalToolCalls : Json → Except ChunkError (Option (List ToolCall))
  | .scalar .none => .ok none
  | .arr items => (items.mapM toolCall).map some
  | _ => .error .validationError

/-- One choice of an answer; its position is the default of its index. -/
def normalizeAnswer (lib : Libraries) (i : ℕ) (c : Json) :
    Except ChunkError ChatCompletionChoice := do
  let c ← asDict c
  let msg ← asDict (Json.get c "message" (.obj []))
  let role ← requiredRole (Json.get msg "role" (.str "assistant"))
  let content ← optionalContent (Json.get msg "content" .null)
  let toolCalls ← optionalToolCalls (Json.get msg "tool_calls" .null)
  let index ← requiredInt lib (Json.get c "index" (.scalar (.int i)))
  let finishReason ← optionalStr (Json.get c "finish_reason" .null)
  return { index, message := { role, content, toolCalls }, finishReason }

def normalizeUsage (lib : Libraries) (v : Json) : Except ChunkError Usage := do
  let usage ← asDict (v.orElse (.obj []))
  let promptTokens ← requiredInt lib (Json.get usage "prompt_tokens" (.scalar (.int 0)))
  let completionTokens ← requiredInt lib (Json.get usage "completion_tokens" (.scalar (.int 0)))
  let totalTokens ← requiredInt lib (Json.get usage "total_tokens" (.scalar (.int 0)))
  return { promptTokens, completionTokens, totalTokens }

/-- The choice of an answer that has none. -/
def emptyAnswer : ChatCompletionChoice :=
  { index := 0, message := { role := .assistant, content := some (.text "") },
    finishReason := some "stop" }

/-- `_normalize_chat_response`, with the id it would generate and its reading of the clock. -/
def normalizeChatResponse (lib : Libraries) (raw : Json) (chatId : String) (now : ℤ)
    (requestedModel providerName : String) : Except ChunkError ChatCompletionResponse := do
  let raw ← asDict raw
  let items ← iterate (Json.get raw "choices" (.arr []))
  let choices ← enumerateM (normalizeAnswer lib) 0 items
  let usage ← normalizeUsage lib (Json.get raw "usage" .null)
  let id ← requiredStr ((Json.get raw "id" .null).orElse (.str chatId))
  let created ← requiredInt lib (Json.get raw "created" (.scalar (.int now)))
  let model ← requiredStr (Json.get raw "model" (.str requestedModel))
  return {
    id, created, model, usage
    choices := if choices.isEmpty then [emptyAnswer] else choices
    noxisProvider := some providerName }

/-! ### The bodies that fit the schema -/

def Json.IsDicts (v : Json) : Prop :=
  ∃ items, v = .arr items ∧ ∀ item ∈ items, ∃ members, item = .obj members

def Json.IsContent (v : Json) : Prop := v.IsOptionalStr ∨ v.IsDicts

def Json.IsToolCall (v : Json) : Prop :=
  ∃ members, v = .obj members ∧ (Json.get members "id" .null).IsStr ∧
    Json.get members "type" (.str "function") = .str "function" ∧
    ∃ function, Json.get members "function" .null = .obj function

def Json.IsToolCalls (v : Json) : Prop :=
  v = .null ∨ ∃ items, v = .arr items ∧ ∀ item ∈ items, item.IsToolCall

def AnswerShaped (lib : Libraries) (i : ℕ) (c : Json) : Prop :=
  ∃ members msg, c = .obj members ∧ Json.get members "message" (.obj []) = .obj msg ∧
    (∃ role : MessageRole, Json.get msg "role" (.str "assistant") = .str role.value) ∧
    (Json.get msg "content" .null).IsContent ∧
    (Json.get msg "tool_calls" .null).IsToolCalls ∧
    (lib.coerceInt (Json.get members "index" (.scalar (.int i)))).isSome ∧
    (Json.get members "finish_reason" .null).IsOptionalStr

/-- Token counts are whole numbers where they are given; anything false counts as no usage. -/
def UsageShaped (lib : Libraries) (v : Json) : Prop :=
  ∃ usage, v.orElse (.obj []) = .obj usage ∧
    ∀ name ∈ ["prompt_tokens", "completion_tokens", "total_tokens"],
      (lib.coerceInt (Json.get usage name (.scalar (.int 0)))).isSome

/-- A body that fits the schema of an answer. -/
def ResponseShaped (lib : Libraries) (now : ℤ) (raw : Json) : Prop :=
  ∃ members, raw = .obj members ∧
    (Json.get members "choices" (.arr [])).Enumerates (AnswerShaped lib) ∧
    UsageShaped lib (Json.get members "usage" .null) ∧
    ((Json.get members "id" .null).truthy = true → (Json.get members "id" .null).IsStr) ∧
    (lib.coerceInt (Json.get members "created" (.scalar (.int now)))).isSome ∧
    ∀ model ∈ Json.member? members "model", model.IsStr

theorem requiredRole_ok_iff (v : Json) :
    (∃ role, requiredRole v = .ok role) ↔ ∃ role : MessageRole, v = .str role.value := by
  rcases v with (_ | _ | _ | _ | s) | _ | _
  case scalar.str =>
    have known : ∀ role, role ∈ messageRoles := by
      intro role
      cases role <;> decide
    constructor
    · rintro ⟨role, ok⟩
      cases found : messageRoles.find? fun role => role.value = s with
      | none => simp [requiredRole, found] at ok
      | some other =>
          have same := List.find?_some found
          exact ⟨other, by rw [of_decide_eq_true same]⟩
    · rintro ⟨role, eq⟩
      obtain rfl : s = role.value := by simpa [Json.str] using eq
      cases found : messageRoles.find? fun other => other.value = role.value with
      | none =>
          have refused := List.find?_eq_none.mp found role (known role)
          simp at refused
      | some other => exact ⟨other, by simp [requiredRole, found]⟩
  all_goals simp [requiredRole, Json.str]

theorem optionalContent_ok_iff (v : Json) : (∃ r, optionalContent v = .ok r) ↔ v.IsContent := by
  cases v with
  | arr items =>
      rw [optionalContent, exists_bind_ok_map (exists_mapM_ok requiredDict_ok_iff items)
        fun dicts => some (MessageContent.parts (dicts.map .obj))]
      simp [Json.IsContent, Json.IsDicts, Json.IsOptionalStr, Json.IsStr, Json.str]
  | obj members =>
      simp [optionalContent, Json.IsContent, Json.IsDicts, Json.IsOptionalStr, Json.IsStr,
        Json.str]
  | scalar v =>
      cases v <;> simp [optionalContent, Json.IsContent, Json.IsDicts, Json.IsOptionalStr,
        Json.IsStr, Json.str, Json.null]

theorem functionType_ok_iff (v : Json) :
    (∃ r, functionType v = .ok r) ↔ v = .str "function" := by
  rcases v with (_ | _ | _ | _ | s) | _ | _
  case scalar.str => by_cases same : s = "function" <;> simp [functionType, Json.str, same]
  all_goals simp [functionType, Json.str]

theorem toolCall_ok_iff (v : Json) : (∃ r, toolCall v = .ok r) ↔ v.IsToolCall := by
  have fields := fun members : List (String × Json) =>
    exists_bind_ok_of_iff (requiredStr_ok_iff (Json.get members "id" .null)) fun id =>
      exists_bind_ok_of_iff
        (functionType_ok_iff (Json.get members "type" (.str "function"))) fun _ =>
          exists_bind_ok_map (requiredDict_ok_iff (Json.get members "function" .null))
            fun function => ({ id, function } : ToolCall)
  cases v with
  | obj members =>
      have rest := fields members
      simp only [toolCall, requiredDict, Json.IsToolCall, Json.obj.injEq, exists_eq_left']
      exact rest
  | arr items => simp [toolCall, requiredDict, Json.IsToolCall, bind, Except.bind]
  | scalar v => simp [toolCall, requiredDict, Json.IsToolCall, bind, Except.bind]

theorem optionalToolCalls_ok_iff (v : Json) :
    (∃ r, optionalToolCalls v = .ok r) ↔ v.IsToolCalls := by
  cases v with
  | arr items =>
      simp [optionalToolCalls, Json.IsToolCalls, exists_map_some_ok,
        exists_mapM_ok toolCall_ok_iff]
  | obj members => simp [optionalToolCalls, Json.IsToolCalls]
  | scalar v => cases v <;> simp [optionalToolCalls, Json.IsToolCalls]

theorem normalizeAnswer_ok_iff (lib : Libraries) (i : ℕ) (c : Json) :
    (∃ r, normalizeAnswer lib i c = .ok r) ↔ AnswerShaped lib i c := by
  rw [normalizeAnswer, exists_bind_ok]
  simp only [asDict_ok_iff, exists_bind_ok (asDict _)]
  have fields := fun members msg : List (String × Json) =>
    exists_bind_ok_of_iff (requiredRole_ok_iff (Json.get msg "role" (.str "assistant")))
      fun role =>
        exists_bind_ok_of_iff (optionalContent_ok_iff (Json.get msg "content" .null))
          fun content =>
            exists_bind_ok_of_iff (optionalToolCalls_ok_iff (Json.get msg "tool_calls" .null))
              fun toolCalls =>
                exists_bind_ok_of_iff
                  (requiredInt_ok_iff lib (Json.get members "index" (.scalar (.int i))))
                  fun index =>
                    exists_bind_ok_map
                      (optionalStr_ok_iff (Json.get members "finish_reason" .null))
                      fun finishReason =>
                        ({ index, message := { role, content, toolCalls }, finishReason } :
                          ChatCompletionChoice)
  constructor
  · rintro ⟨members, rfl, msg, inner, ok⟩
    exact ⟨members, msg, rfl, inner, (fields members msg).mp ok⟩
  · rintro ⟨members, msg, rfl, inner, shaped⟩
    exact ⟨members, rfl, msg, inner, (fields members msg).mpr shaped⟩

theorem normalizeUsage_ok_iff (lib : Libraries) (v : Json) :
    (∃ r, normalizeUsage lib v = .ok r) ↔ UsageShaped lib v := by
  rw [normalizeUsage, exists_bind_ok]
  simp only [asDict_ok_iff]
  have counts := fun usage : List (String × Json) =>
    exists_bind_ok_of_iff
      (requiredInt_ok_iff lib (Json.get usage "prompt_tokens" (.scalar (.int 0)))) fun prompt =>
        exists_bind_ok_of_iff
          (requiredInt_ok_iff lib (Json.get usage "completion_tokens" (.scalar (.int 0))))
          fun completion =>
            exists_bind_ok_map
              (requiredInt_ok_iff lib (Json.get usage "total_tokens" (.scalar (.int 0))))
              fun total => (⟨prompt, completion, total⟩ : Usage)
  constructor
  · rintro ⟨usage, object, ok⟩
    exact ⟨usage, object, by simpa using (counts usage).mp ok⟩
  · rintro ⟨usage, object, shaped⟩
    exact ⟨usage, object, (counts usage).mpr (by simpa using shaped)⟩

/-- A text stands in for an id that is missing or false. -/
theorem orElse_isStr_iff (v : Json) (default : String) :
    (v.orElse (.str default)).IsStr ↔ (v.truthy = true → v.IsStr) := by
  cases given : v.truthy <;> simp [Json.orElse, given, Json.IsStr]

/-- Normalisation succeeds exactly on the bodies that fit the schema. -/
theorem normalizeChatResponse_ok_iff (lib : Libraries) (raw : Json) (chatId : String) (now : ℤ)
    (requestedModel providerName : String) :
    (∃ r, normalizeChatResponse lib raw chatId now requestedModel providerName = .ok r) ↔
      ResponseShaped lib now raw := by
  have noText : ∀ i s, ¬ AnswerShaped lib i (.str s) := by
    rintro i s ⟨members, msg, object, -⟩
    cases object
  have rest := fun (members : List (String × Json)) (choices : List ChatCompletionChoice) =>
    exists_bind_ok_of_iff (normalizeUsage_ok_iff lib (Json.get members "usage" .null)) fun usage =>
      exists_bind_ok_of_iff
        (requiredStr_ok_iff ((Json.get members "id" .null).orElse (.str chatId))) fun id =>
          exists_bind_ok_of_iff
            (requiredInt_ok_iff lib (Json.get members "created" (.scalar (.int now))))
            fun created =>
              exists_bind_ok_map
                (requiredStr_ok_iff (Json.get members "model" (.str requestedModel)))
                fun model => ({
                  id, created, model, usage
                  choices := if choices.isEmpty then [emptyAnswer] else choices
                  noxisProvider := some providerName } : ChatCompletionResponse)
  have looped := fun (members : List (String × Json)) (items : List Json) =>
    exists_bind_ok_of_iff
      (Iff.refl (∃ choices, enumerateM (normalizeAnswer lib) 0 items = .ok choices))
      (rest members)
  have listed := fun members : List (String × Json) =>
    enumerated_ok_iff (normalizeAnswer_ok_iff lib) noText (Json.get members "choices" (.arr []))
  rw [normalizeChatResponse, exists_bind_ok]
  simp only [asDict_ok_iff, exists_bind_ok (iterate _)]
  constructor
  · rintro ⟨members, rfl, items, through, ok⟩
    obtain ⟨choices, usage, id, created, model⟩ := (looped members items).mp ok
    exact ⟨members, rfl, (listed members).mp ⟨items, through, choices⟩, usage,
      (orElse_isStr_iff ..).mp id, created, (get_isStr_iff ..).mp model⟩
  · rintro ⟨members, rfl, choices, usage, id, created, model⟩
    obtain ⟨items, through, choices⟩ := (listed members).mpr choices
    exact ⟨members, rfl, items, through, (looped members items).mpr
      ⟨choices, usage, (orElse_isStr_iff ..).mpr id, created, (get_isStr_iff ..).mpr model⟩⟩

end Noxis
