import Noxis.ChatResponse

/-! Upstream objects of OpenAI's shape in which members may be missing or null, and what the
two normalisations make of them. -/
namespace Noxis

/-- A member that may be left out or null. -/
inductive Given (α : Type) where
  | absent
  | null
  | value (a : α)

namespace Given

variable {α : Type}

/-- Null counts as absent. -/
def get? : Given α → Option α
  | value a => some a
  | _ => none

/-- The member of an object is spelled like this. -/
def Spells (spell : α → Json → Prop) (g : Given α) (v : Option Json) : Prop :=
  match g with
  | absent => v = none
  | null => v = some .null
  | value a => ∃ j, v = some j ∧ spell a j

end Given

structure UpstreamMessage where
  role : Given MessageRole := .absent
  content : Given String := .absent
  toolCalls : Given (List ToolCall) := .absent

structure UpstreamDelta where
  role : Given String := .absent
  content : Given String := .absent
  toolCalls : Given (List (List (String × Json))) := .absent

structure UpstreamChoice where
  message : Given UpstreamMessage := .absent
  delta : Given UpstreamDelta := .absent
  index : Given ℤ := .absent
  finishReason : Given String := .absent

structure UpstreamUsage where
  promptTokens : Given ℤ := .absent
  completionTokens : Given ℤ := .absent
  totalTokens : Given ℤ := .absent

structure UpstreamObject where
  choices : Given (List UpstreamChoice) := .absent
  usage : Given UpstreamUsage := .absent
  id : Given String := .absent
  created : Given ℤ := .absent
  model : Given String := .absent

/-! ### How they are spelled

Other members may stand between these, in any order. -/

def spellStr (s : String) (v : Json) : Prop := v = .str s

def spellInt (n : ℤ) (v : Json) : Prop := v = .scalar (.int n)

def spellList {α : Type} (spell : α → Json → Prop) (l : List α) (v : Json) : Prop :=
  ∃ items, v = .arr items ∧ List.Forall₂ spell l items

def ToolCall.Spells (t : ToolCall) (v : Json) : Prop :=
  ∃ members, v = .obj members ∧ Json.member? members "id" = some (.str t.id) ∧
    Json.get members "type" (.str "function") = .str "function" ∧
    Json.member? members "function" = some (.obj t.function)

def UpstreamMessage.Spells (m : UpstreamMessage) (v : Json) : Prop :=
  ∃ members, v = .obj members ∧
    m.role.Spells (fun role => spellStr role.value) (Json.member? members "role") ∧
    m.content.Spells spellStr (Json.member? members "content") ∧
    m.toolCalls.Spells (spellList ToolCall.Spells) (Json.member? members "tool_calls")

def UpstreamDelta.Spells (d : UpstreamDelta) (v : Json) : Prop :=
  ∃ members, v = .obj members ∧ d.role.Spells spellStr (Json.member? members "role") ∧
    d.content.Spells spellStr (Json.member? members "content") ∧
    d.toolCalls.Spells (spellList fun call v => v = .obj call) (Json.member? members "tool_calls")

def UpstreamChoice.Spells (c : UpstreamChoice) (v : Json) : Prop :=
  ∃ members, v = .obj members ∧
    c.message.Spells UpstreamMessage.Spells (Json.member? members "message") ∧
    c.delta.Spells UpstreamDelta.Spells (Json.member? members "delta") ∧
    c.index.Spells spellInt (Json.member? members "index") ∧
    c.finishReason.Spells spellStr (Json.member? members "finish_reason")

def UpstreamUsage.Spells (u : UpstreamUsage) (v : Json) : Prop :=
  ∃ members, v = .obj members ∧
    u.promptTokens.Spells spellInt (Json.member? members "prompt_tokens") ∧
    u.completionTokens.Spells spellInt (Json.member? members "completion_tokens") ∧
    u.totalTokens.Spells spellInt (Json.member? members "total_tokens")

def UpstreamObject.Spells (u : UpstreamObject) (v : Json) : Prop :=
  ∃ members, v = .obj members ∧
    u.choices.Spells (spellList UpstreamChoice.Spells) (Json.member? members "choices") ∧
    u.usage.Spells UpstreamUsage.Spells (Json.member? members "usage") ∧
    u.id.Spells spellStr (Json.member? members "id") ∧
    u.created.Spells spellInt (Json.member? members "created") ∧
    u.model.Spells spellStr (Json.member? members "model")

/-! ### What they stand for -/

def UpstreamMessage.message (m : UpstreamMessage) : ChatMessage :=
  { role := m.role.get?.getD .assistant, content := m.content.get?.map .text,
    toolCalls := m.toolCalls.get? }

def UpstreamDelta.delta (d : UpstreamDelta) : DeltaMessage :=
  { role := d.role.get?, content := d.content.get?, toolCalls := d.toolCalls.get? }

def UpstreamChoice.answer (i : ℕ) (c : UpstreamChoice) : ChatCompletionChoice :=
  { index := c.index.get?.getD i, message := (c.message.get?.getD {}).message,
    finishReason := c.finishReason.get? }

def UpstreamChoice.chunkChoice (i : ℕ) (c : UpstreamChoice) : ChatCompletionChunkChoice :=
  { index := c.index.get?.getD i, delta := (c.delta.get?.getD {}).delta,
    finishReason := c.finishReason.get? }

def UpstreamUsage.counts (u : UpstreamUsage) : Usage :=
  { promptTokens := u.promptTokens.get?.getD 0, completionTokens := u.completionTokens.get?.getD 0,
    totalTokens := u.totalTokens.get?.getD 0 }

namespace UpstreamObject

variable (u : UpstreamObject)

/-- An empty id is replaced as a missing one is. -/
def responseId (chatId : String) : String :=
  if u.id.get?.getD "" = "" then chatId else u.id.get?.getD ""

/-- One choice for each one upstream, in order, and a single empty one if there is none. -/
def response (chatId : String) (now : ℤ) (requestedModel providerName : String) :
    ChatCompletionResponse :=
  let choices := (u.choices.get?.getD []).mapIdx UpstreamChoice.answer
  { id := u.responseId chatId, created := u.created.get?.getD now,
    model := u.model.get?.getD requestedModel,
    choices := if choices = [] then [emptyAnswer] else choices
    usage := (u.usage.get?.getD {}).counts, noxisProvider := some providerName }

/-- The time that was given upstream is not passed on. -/
def chunk (chatId : String) (now : ℤ) (requestedModel providerName : String) :
    ChatCompletionChunk :=
  { id := u.id.get?.getD chatId, created := now, model := u.model.get?.getD requestedModel,
    choices := (u.choices.get?.getD []).mapIdx UpstreamChoice.chunkChoice
    noxisProvider := providerName }

end UpstreamObject

/-! ### Reading them -/

section members

variable {α : Type} {members : List (String × Json)} {name : String} {spell : α → Json → Prop}
  {g : Given α}

theorem Given.Spells.get_null (h : Given.Spells spell .null (Json.member? members name))
    (default : Json) : Json.get members name default = .null := by
  rw [Json.get, show Json.member? members name = some .null from h]
  rfl

/-- A member that is not null is read as its value, or as the default. -/
theorem Given.Spells.get_eq (h : g.Spells spell (Json.member? members name)) (given : g ≠ .null)
    {default : α} {v : Json} (spelled : spell default v) :
    spell (g.get?.getD default) (Json.get members name v) := by
  cases g with
  | absent =>
      rw [Json.get, show Json.member? members name = none from h]
      exact spelled
  | null => exact absurd rfl given
  | value a =>
      obtain ⟨j, found, spelled'⟩ := h
      rw [Json.get, found]
      exact spelled'

/-- A member whose default is null is read in every case. -/
theorem Given.Spells.get_optional (h : g.Spells spell (Json.member? members name)) :
    (Json.get members name .null = .null ∧ g.get? = none) ∨
      ∃ a, g.get? = some a ∧ spell a (Json.get members name .null) := by
  cases g with
  | absent =>
      rw [Json.get, show Json.member? members name = none from h]
      exact .inl ⟨rfl, rfl⟩
  | null => exact .inl ⟨h.get_null .null, rfl⟩
  | value a =>
      obtain ⟨j, found, spelled⟩ := h
      rw [Json.get, found]
      exact .inr ⟨a, rfl, spelled⟩

/-- A reader that takes null for nothing reads a member as its value, or as nothing. -/
theorem Given.Spells.read_optional {β : Type} (h : g.Spells spell (Json.member? members name))
    (read : Json → Except ChunkError (Option β)) (k : α → β) (null : read .null = .ok none)
    (each : ∀ a v, spell a v → read v = .ok (some (k a))) :
    read (Json.get members name .null) = .ok (g.get?.map k) := by
  rcases h.get_optional with ⟨absent, nothing⟩ | ⟨a, value, spelled⟩
  · rw [absent, nothing, null, Option.map_none]
  · rw [each a _ spelled, value, Option.map_some]

theorem optionalStr_given {g : Given String} (h : g.Spells spellStr (Json.member? members name)) :
    optionalStr (Json.get members name .null) = .ok g.get? := by
  have read := h.read_optional optionalStr id rfl fun s v spelled => by
    rw [spelled]
    rfl
  rwa [Option.map_id] at read

theorem requiredStr_given {g : Given String} (h : g.Spells spellStr (Json.member? members name))
    (given : g ≠ .null) (default : String) :
    requiredStr (Json.get members name (.str default)) = .ok (g.get?.getD default) := by
  rw [show Json.get members name (.str default) = .str (g.get?.getD default) from
    h.get_eq given rfl]
  rfl

theorem optionalContent_given {g : Given String}
    (h : g.Spells spellStr (Json.member? members name)) :
    optionalContent (Json.get members name .null) = .ok (g.get?.map .text) := by
  refine h.read_optional optionalContent .text rfl fun s v spelled => ?_
  rw [spelled]
  rfl

theorem requiredRole_value (role : MessageRole) : requiredRole (.str role.value) = .ok role := by
  cases role <;> rfl

theorem requiredRole_given {g : Given MessageRole}
    (h : g.Spells (fun role => spellStr role.value) (Json.member? members name))
    (given : g ≠ .null) :
    requiredRole (Json.get members name (.str "assistant")) =
      .ok (g.get?.getD .assistant) := by
  have spelled : Json.get members name (.str "assistant") =
      .str (g.get?.getD MessageRole.assistant).value := h.get_eq given rfl
  rw [spelled, requiredRole_value]

/-- What each item reads as, the list reads as. -/
theorem mapM_spelled {β : Type} {spell : β → Json → Prop} {f : Json → Except ChunkError β}
    (each : ∀ b v, spell b v → f v = .ok b) {l : List β} {items : List Json}
    (spelled : List.Forall₂ spell l items) : items.mapM f = .ok l := by
  induction spelled with
  | nil => rfl
  | cons first rest ih =>
      rw [List.mapM_cons, each _ _ first, ih]
      rfl

theorem optionalDicts_given {g : Given (List (List (String × Json)))}
    (h : g.Spells (spellList fun call v => v = .obj call) (Json.member? members name)) :
    optionalDicts (Json.get members name .null) = .ok g.get? := by
  have read := h.read_optional optionalDicts id rfl fun calls v ⟨items, listed, each⟩ => by
    have read : items.mapM requiredDict = .ok calls :=
      mapM_spelled (fun call v eq => by rw [eq, requiredDict]) each
    rw [listed, optionalDicts, read]
    rfl
  rwa [Option.map_id] at read

theorem toolCall_spelled {t : ToolCall} {v : Json} (spelled : t.Spells v) :
    toolCall v = .ok t := by
  obtain ⟨members, rfl, id, type, function⟩ := spelled
  have idMember : Json.get members "id" .null = .str t.id := by
    rw [Json.get, id]
    rfl
  have functionMember : Json.get members "function" .null = .obj t.function := by
    rw [Json.get, function]
    rfl
  simp only [toolCall, requiredDict, bind, Except.bind, idMember, type, functionMember]
  rfl

theorem optionalToolCalls_given {g : Given (List ToolCall)}
    (h : g.Spells (spellList ToolCall.Spells) (Json.member? members name)) :
    optionalToolCalls (Json.get members name .null) = .ok g.get? := by
  have read := h.read_optional optionalToolCalls id rfl fun calls v ⟨items, listed, each⟩ => by
    have read : items.mapM toolCall = .ok calls :=
      mapM_spelled (fun _ _ spelled => toolCall_spelled spelled) each
    rw [listed, optionalToolCalls, read]
    rfl
  rwa [Option.map_id] at read

end members

/-! ### The two normalisations -/

namespace UpstreamChoice

/-- Nothing is null that reading the choice as an answer refuses. -/
structure Readable (c : UpstreamChoice) : Prop where
  message : c.message ≠ .null
  role : (c.message.get?.getD {}).role ≠ .null
  index : c.index ≠ .null

/-- The same for reading it as a part of a stream. -/
structure ChunkReadable (c : UpstreamChoice) : Prop where
  delta : c.delta ≠ .null
  index : c.index ≠ .null

end UpstreamChoice

theorem UpstreamMessage.spells_empty : ({} : UpstreamMessage).Spells (.obj []) :=
  ⟨[], rfl, rfl, rfl, rfl⟩

theorem UpstreamDelta.spells_empty : ({} : UpstreamDelta).Spells (.obj []) :=
  ⟨[], rfl, rfl, rfl, rfl⟩

theorem UpstreamUsage.spells_empty : ({} : UpstreamUsage).Spells (.obj []) :=
  ⟨[], rfl, rfl, rfl, rfl⟩

/-- No member is null that the answer of the non-streaming path needs a default for. -/
structure UpstreamObject.ResponseReadable (u : UpstreamObject) : Prop where
  choices : u.choices ≠ .null
  each : ∀ c ∈ u.choices.get?.getD [], c.Readable
  promptTokens : (u.usage.get?.getD {}).promptTokens ≠ .null
  completionTokens : (u.usage.get?.getD {}).completionTokens ≠ .null
  totalTokens : (u.usage.get?.getD {}).totalTokens ≠ .null
  created : u.created ≠ .null
  model : u.model ≠ .null

/-- No member is null that a chunk needs a default for. -/
structure UpstreamObject.ChunkReadable (u : UpstreamObject) : Prop where
  choices : u.choices ≠ .null
  each : ∀ c ∈ u.choices.get?.getD [], c.ChunkReadable
  id : u.id ≠ .null
  model : u.model ≠ .null

section normalisation

variable {lib : Libraries} (ints : ∀ n, lib.coerceInt (.scalar (.int n)) = some n)

section integers
variable {members : List (String × Json)} {name : String} {g : Given ℤ}
  (h : g.Spells spellInt (Json.member? members name))
include h

include ints in
theorem requiredInt_given (given : g ≠ .null) (default : ℤ) :
    requiredInt lib (Json.get members name (.scalar (.int default))) =
      .ok (g.get?.getD default) := by
  rw [show Json.get members name (.scalar (.int default)) = .scalar (.int (g.get?.getD default)) from
    h.get_eq given rfl, requiredInt, ints]

theorem not_null_of_coerced (refuses : lib.coerceInt .null = none) {default : Json}
    (coerced : (lib.coerceInt (Json.get members name default)).isSome = true) : g ≠ .null := by
  rintro rfl
  rw [h.get_null, refuses] at coerced
  cases coerced

end integers

include ints in
theorem normalizeAnswer_spelled {c : UpstreamChoice} {v : Json} (spelled : c.Spells v)
    (readable : c.Readable) (i : ℕ) : normalizeAnswer lib i v = .ok (c.answer i) := by
  obtain ⟨members, rfl, message, -, index, finishReason⟩ := spelled
  obtain ⟨msg, object, role, content, toolCalls⟩ :=
    message.get_eq readable.message UpstreamMessage.spells_empty
  simp only [normalizeAnswer, asDict, object, bind, Except.bind,
    requiredRole_given role readable.role, optionalContent_given content,
    optionalToolCalls_given toolCalls, requiredInt_given ints index readable.index,
    optionalStr_given finishReason]
  rfl

theorem readable_of_answer (refuses : lib.coerceInt .null = none) {c : UpstreamChoice} {v : Json}
    (spelled : c.Spells v) {i : ℕ} (shaped : AnswerShaped lib i v) : c.Readable := by
  obtain ⟨members, rfl, message, -, index, -⟩ := spelled
  obtain ⟨_, msg, same, object, role, -, -, coerced, -⟩ := shaped
  obtain rfl := Json.obj.inj same
  have given : c.message ≠ .null := by
    intro null
    rw [null] at message
    rw [message.get_null] at object
    cases object
  refine ⟨given, fun null => ?_, not_null_of_coerced index refuses coerced⟩
  obtain ⟨msg', object', roleMember, -, -⟩ := message.get_eq given UpstreamMessage.spells_empty
  rw [object] at object'
  obtain rfl := Json.obj.inj object'
  rw [null] at roleMember
  obtain ⟨role, value⟩ := role
  rw [roleMember.get_null] at value
  cases value

include ints in
theorem normalizeChoice_spelled {c : UpstreamChoice} {v : Json} (spelled : c.Spells v)
    (readable : c.ChunkReadable) (i : ℕ) : normalizeChoice lib i v = .ok (c.chunkChoice i) := by
  obtain ⟨members, rfl, -, delta, index, finishReason⟩ := spelled
  obtain ⟨inner, object, role, content, toolCalls⟩ :=
    delta.get_eq readable.delta UpstreamDelta.spells_empty
  simp only [normalizeChoice, asDict, object, bind, Except.bind, optionalStr_given role,
    optionalStr_given content, optionalDicts_given toolCalls,
    requiredInt_given ints index readable.index, optionalStr_given finishReason]
  rfl

theorem chunkReadable_of_choice (refuses : lib.coerceInt .null = none) {c : UpstreamChoice}
    {v : Json} (spelled : c.Spells v) {i : ℕ} (shaped : ChoiceShaped lib i v) :
    c.ChunkReadable := by
  obtain ⟨members, rfl, -, delta, index, -⟩ := spelled
  obtain ⟨_, inner, same, object, -, -, -, coerced, -⟩ := shaped
  obtain rfl := Json.obj.inj same
  refine ⟨fun null => ?_, not_null_of_coerced index refuses coerced⟩
  rw [null] at delta
  rw [delta.get_null] at object
  cases object

/-- The loop over the choices makes one value of each, in order. -/
theorem enumerateM_spelled {α : Type} {f : ℕ → Json → Except ChunkError α}
    {g : ℕ → UpstreamChoice → α} {cs : List UpstreamChoice} {items : List Json}
    (spelled : List.Forall₂ UpstreamChoice.Spells cs items)
    (each : ∀ c ∈ cs, ∀ v, c.Spells v → ∀ i, f i v = .ok (g i c)) (i : ℕ) :
    enumerateM f i items = .ok (cs.mapIdx fun j c => g (i + j) c) := by
  induction spelled generalizing i with
  | nil => rfl
  | @cons c v cs items first rest ih =>
      have later := ih (fun c member => each c (List.mem_cons_of_mem _ member)) (i + 1)
      rw [enumerateM, each c List.mem_cons_self v first i, later, List.mapIdx_cons]
      simp only [Nat.add_right_comm i 1, ← Nat.add_assoc]
      rfl

theorem usage_object {usage : Given UpstreamUsage} {members : List (String × Json)}
    (h : usage.Spells UpstreamUsage.Spells (Json.member? members "usage")) :
    (usage.get?.getD {}).Spells ((Json.get members "usage" .null).orElse (.obj [])) := by
  rcases h.get_optional with ⟨null, nothing⟩ | ⟨value, found, spelled⟩
  · rw [null, nothing]
    exact UpstreamUsage.spells_empty
  · obtain ⟨counters, object, counts⟩ := spelled
    rw [object, found]
    refine ⟨counters, ?_, counts⟩
    cases counters <;> rfl

include ints in
theorem normalizeUsage_spelled {u : UpstreamUsage} {v : Json}
    (spelled : u.Spells (v.orElse (.obj []))) (prompt : u.promptTokens ≠ .null)
    (completion : u.completionTokens ≠ .null) (total : u.totalTokens ≠ .null) :
    normalizeUsage lib v = .ok u.counts := by
  obtain ⟨members, object, promptTokens, completionTokens, totalTokens⟩ := spelled
  simp only [normalizeUsage, asDict, object, bind, Except.bind,
    requiredInt_given ints promptTokens prompt, requiredInt_given ints completionTokens completion,
    requiredInt_given ints totalTokens total]
  rfl

theorem responseId_read {u : UpstreamObject} {members : List (String × Json)}
    (h : u.id.Spells spellStr (Json.member? members "id")) (chatId : String) :
    requiredStr ((Json.get members "id" .null).orElse (.str chatId)) =
      .ok (u.responseId chatId) := by
  rcases h.get_optional with ⟨null, nothing⟩ | ⟨s, value, spelled⟩
  · rw [null, UpstreamObject.responseId, nothing]
    rfl
  · rw [show Json.get members "id" .null = .str s from spelled, UpstreamObject.responseId, value]
    by_cases empty : s = "" <;> simp [Json.orElse, Json.truthy, Scalar.truthy, empty, requiredStr]

/-- The choices of an object as the list that the loop goes through. -/
theorem iterate_choices {choices : Given (List UpstreamChoice)} {members : List (String × Json)}
    (h : choices.Spells (spellList UpstreamChoice.Spells) (Json.member? members "choices"))
    (given : choices ≠ .null) :
    ∃ items, Json.get members "choices" (.arr []) = .arr items ∧
      List.Forall₂ UpstreamChoice.Spells (choices.get?.getD []) items :=
  h.get_eq given ⟨[], rfl, .nil⟩

include ints in
theorem normalizeChatResponse_spelled {u : UpstreamObject} {raw : Json} (spelled : u.Spells raw)
    (readable : u.ResponseReadable) (chatId : String) (now : ℤ)
    (requestedModel providerName : String) :
    normalizeChatResponse lib raw chatId now requestedModel providerName =
      .ok (u.response chatId now requestedModel providerName) := by
  obtain ⟨members, rfl, choices, usage, id, created, model⟩ := spelled
  obtain ⟨items, listed, each⟩ := iterate_choices choices readable.choices
  have answers := enumerateM_spelled each
    (fun c member v spells i => normalizeAnswer_spelled ints spells (readable.each c member) i) 0
  have counts := normalizeUsage_spelled ints (usage_object usage) readable.promptTokens
    readable.completionTokens readable.totalTokens
  simp only [Nat.zero_add] at answers
  simp only [normalizeChatResponse, asDict, listed, iterate, bind, Except.bind, answers, counts,
    responseId_read id, requiredInt_given ints created readable.created,
    requiredStr_given model readable.model, List.isEmpty_iff]
  rfl

include ints in
theorem normalizeChunk_spelled {u : UpstreamObject} {raw : Json} (spelled : u.Spells raw)
    (readable : u.ChunkReadable) (chatId : String) (now : ℤ)
    (requestedModel providerName : String) :
    normalizeChunk lib raw chatId now requestedModel providerName =
      .ok (u.chunk chatId now requestedModel providerName) := by
  obtain ⟨members, rfl, choices, -, id, -, model⟩ := spelled
  obtain ⟨items, listed, each⟩ := iterate_choices choices readable.choices
  have parts := enumerateM_spelled each
    (fun c member v spells i => normalizeChoice_spelled ints spells (readable.each c member) i) 0
  simp only [Nat.zero_add] at parts
  simp only [normalizeChunk, asDict, listed, iterate, bind, Except.bind, normalizeChoices_eq, parts,
    requiredStr_given id readable.id, requiredStr_given model readable.model]
  rfl

theorem not_null_of_text {g : Given String} {members : List (String × Json)} {name : String}
    (h : g.Spells spellStr (Json.member? members name))
    (text : ∀ v ∈ Json.member? members name, v.IsStr) : g ≠ .null := by
  rintro rfl
  obtain ⟨s, same⟩ := text .null h
  cases same

/-- Choices that can be gone through are not null, and each of them fits. -/
theorem choices_of_enumerates {P : ℕ → Json → Prop} {choices : Given (List UpstreamChoice)}
    {members : List (String × Json)}
    (h : choices.Spells (spellList UpstreamChoice.Spells) (Json.member? members "choices"))
    (passes : (Json.get members "choices" (.arr [])).Enumerates P) :
    choices ≠ .null ∧
      ∀ c ∈ choices.get?.getD [], ∃ v i, c.Spells v ∧ P i v := by
  have given : choices ≠ .null := by
    rintro rfl
    rw [h.get_null] at passes
    exact passes
  refine ⟨given, fun c member => ?_⟩
  obtain ⟨items, listed, each⟩ := iterate_choices h given
  rw [listed] at passes
  obtain ⟨i, bound, rfl⟩ := List.getElem_of_mem member
  have bound' : i < items.length := each.length_eq ▸ bound
  exact ⟨items[i], i, each.get bound bound', passes i items[i] (List.getElem?_eq_getElem bound')⟩

theorem responseReadable_of_shaped (refuses : lib.coerceInt .null = none) {u : UpstreamObject}
    {raw : Json} (spelled : u.Spells raw) {now : ℤ} (shaped : ResponseShaped lib now raw) :
    u.ResponseReadable := by
  obtain ⟨members, rfl, choices, usage, -, created, model⟩ := spelled
  obtain ⟨_, same, passes, ⟨counters, object, counts⟩, -, coerced, text⟩ := shaped
  obtain rfl := Json.obj.inj same
  obtain ⟨given, each⟩ := choices_of_enumerates choices passes
  obtain ⟨_, object', promptTokens, completionTokens, totalTokens⟩ := usage_object usage
  rw [object] at object'
  obtain rfl := Json.obj.inj object'
  have counter : ∀ name ∈ ["prompt_tokens", "completion_tokens", "total_tokens"],
      ∀ g : Given ℤ, g.Spells spellInt (Json.member? counters name) → g ≠ .null :=
    fun name listed g h => not_null_of_coerced h refuses (counts name listed)
  exact
    { choices := given
      each := fun c member =>
        (each c member).elim fun v ⟨i, spells, fits⟩ => readable_of_answer refuses spells fits
      promptTokens := counter _ (by simp) _ promptTokens
      completionTokens := counter _ (by simp) _ completionTokens
      totalTokens := counter _ (by simp) _ totalTokens
      created := not_null_of_coerced created refuses coerced
      model := not_null_of_text model text }

theorem chunkReadable_of_shaped (refuses : lib.coerceInt .null = none) {u : UpstreamObject}
    {raw : Json} (spelled : u.Spells raw) (shaped : ChunkShaped lib raw) : u.ChunkReadable := by
  obtain ⟨members, rfl, choices, -, id, -, model⟩ := spelled
  obtain ⟨_, same, listed, idText, modelText⟩ := shaped
  obtain rfl := Json.obj.inj same
  obtain ⟨given, each⟩ := choices_of_enumerates choices ((choicesShaped_iff lib _).mp listed)
  exact
    { choices := given
      each := fun c member =>
        (each c member).elim fun v ⟨i, spells, fits⟩ => chunkReadable_of_choice refuses spells fits
      id := not_null_of_text id idText
      model := not_null_of_text model modelText }

include ints in
/-- Both normalisations return what an object of OpenAI's shape stands for, with null for absent,
if and only if none of the members is null that they read with a default. -/
theorem normalisation_total_iff (refuses : lib.coerceInt .null = none) {u : UpstreamObject}
    {raw : Json} (spelled : u.Spells raw) (chatId : String) (now : ℤ)
    (requestedModel providerName : String) :
    (normalizeChatResponse lib raw chatId now requestedModel providerName =
        .ok (u.response chatId now requestedModel providerName) ↔ u.ResponseReadable) ∧
      (normalizeChunk lib raw chatId now requestedModel providerName =
        .ok (u.chunk chatId now requestedModel providerName) ↔ u.ChunkReadable) := by
  constructor
  · constructor
    · intro ok
      exact responseReadable_of_shaped refuses spelled
        ((normalizeChatResponse_ok_iff lib raw chatId now requestedModel providerName).mp ⟨_, ok⟩)
    · exact fun readable => normalizeChatResponse_spelled ints spelled readable _ _ _ _
  · constructor
    · intro ok
      exact chunkReadable_of_shaped refuses spelled
        ((normalizeChunk_ok_iff lib raw chatId now requestedModel providerName).mp ⟨_, ok⟩)
    · exact fun readable => normalizeChunk_spelled ints spelled readable _ _ _ _

end normalisation

/-- A validation library that takes integers for integers. -/
def Demo.strictInts : Libraries :=
  { Demo.libraries with
    coerceInt := fun
      | .scalar (.int n) => some n
      | _ => none }

theorem Demo.strictInts_int (n : ℤ) : Demo.strictInts.coerceInt (.scalar (.int n)) = some n := rfl

/-- One choice with a text, and null for the finish reason. -/
def Demo.upstream (role : Given MessageRole) : UpstreamObject :=
  { choices := .value [{ message := .value { role, content := .value "Good morning." },
                         finishReason := .null }] }

def Demo.upstreamJson (message : List (String × Json)) : Json :=
  .obj [("object", .str "chat.completion"), ("choices", .arr [.obj
    [("finish_reason", .null), ("message", .obj (("content", .str "Good morning.") :: message))]])]

theorem Demo.upstream_absent : (Demo.upstream .absent).Spells (Demo.upstreamJson []) := by
  refine ⟨_, rfl, ⟨_, rfl, _, rfl, .cons ?_ .nil⟩, rfl, rfl, rfl, rfl⟩
  exact ⟨_, rfl, ⟨_, rfl, _, rfl, rfl, ⟨_, rfl, rfl⟩, rfl⟩, rfl, rfl, rfl⟩

theorem Demo.upstream_null :
    (Demo.upstream .null).Spells (Demo.upstreamJson [("role", .null)]) := by
  refine ⟨_, rfl, ⟨_, rfl, _, rfl, .cons ?_ .nil⟩, rfl, rfl, rfl, rfl⟩
  exact ⟨_, rfl, ⟨_, rfl, _, rfl, rfl, ⟨_, rfl, rfl⟩, rfl⟩, rfl, rfl, rfl⟩

theorem normalisation_total_iff_absent_role :
    (normalizeChatResponse Demo.strictInts (Demo.upstreamJson []) "chatcmpl-1" 0 "m" "a" =
        .ok ((Demo.upstream .absent).response "chatcmpl-1" 0 "m" "a") ↔
          (Demo.upstream .absent).ResponseReadable) ∧
      (normalizeChunk Demo.strictInts (Demo.upstreamJson []) "chatcmpl-1" 0 "m" "a" =
        .ok ((Demo.upstream .absent).chunk "chatcmpl-1" 0 "m" "a") ↔
          (Demo.upstream .absent).ChunkReadable) :=
  normalisation_total_iff Demo.strictInts_int rfl Demo.upstream_absent "chatcmpl-1" 0 "m" "a"

/-- A null role raises. -/
theorem null_role_refused :
    (Demo.upstream .null).Spells (Demo.upstreamJson [("role", .null)]) ∧
      normalizeChatResponse Demo.strictInts (Demo.upstreamJson [("role", .null)]) "chatcmpl-1" 0
          "m" "a" = .error .validationError :=
  ⟨Demo.upstream_null, rfl⟩

end Noxis
