import Noxis.CacheTransparency
import Noxis.ResponseRoundTrip

/-! What the gateway posts, read by another one. The body of an upstream call is a request of the
same schema, and a second gateway validates it. -/
namespace Noxis

/-- pydantic's coercions to a float and to a truth value. -/
structure RequestLibraries extends Libraries where
  coerceFloat : Json → Option PyFloat
  coerceBool : Json → Option Bool

/-- A field of type `T | None`. -/
def optionalOf {α : Type} (read : Json → Except ChunkError α) (v : Json) :
    Except ChunkError (Option α) :=
  if v.isNull then .ok none else (read v).map some

section readers
variable (lib : RequestLibraries)

/-- A float with `ge` and `le`, between which no special value lies. -/
def boundedFloat (ge le : ℚ) (v : Json) : Except ChunkError ℚ :=
  match lib.coerceFloat v with
  | some (.finite q) => if ge ≤ q ∧ q ≤ le then .ok q else .error .validationError
  | _ => .error .validationError

/-- An integer with `ge=1`, and `le` where there is one. -/
def positiveInt (le : Option ℕ) (v : Json) : Except ChunkError ℕ :=
  match lib.coerceInt v with
  | some n =>
      if 1 ≤ n ∧ ∀ top ∈ le, n ≤ top then .ok n.toNat else .error .validationError
  | none => .error .validationError

def requiredBool (v : Json) : Except ChunkError Bool :=
  match lib.coerceBool v with
  | some b => .ok b
  | none => .error .validationError

/-- `str | list[str]`. -/
def strOrList : Json → Except ChunkError (String ⊕ List String)
  | .scalar (.str s) => .ok (.inl s)
  | .arr items => (items.mapM requiredStr).map .inr
  | _ => .error .validationError

/-- `dict[str, float]`. -/
def floatDict (v : Json) : Except ChunkError (List (String × PyFloat)) := do
  let members ← requiredDict v
  members.mapM fun m =>
    match lib.coerceFloat m.2 with
    | some x => .ok (m.1, x)
    | none => .error .validationError

/-- `str | dict[str, Any]`. -/
def strOrDict : Json → Except ChunkError Json
  | .scalar (.str s) => .ok (.str s)
  | .obj members => .ok (.obj members)
  | _ => .error .validationError

def functionDef (v : Json) : Except ChunkError FunctionDef := do
  let members ← requiredDict v
  let name ← requiredStr (Json.get members "name" .null)
  let description ← optionalStr (Json.get members "description" .null)
  let parameters ← optionalOf requiredDict (Json.get members "parameters" .null)
  return { name, description, parameters }

def toolDef (v : Json) : Except ChunkError ToolDef := do
  let members ← requiredDict v
  let _ ← functionType (Json.get members "type" (.str "function"))
  let function ← functionDef (Json.get members "function" .null)
  return { function }

/-- `list[ToolDef]`. -/
def toolDefs (v : Json) : Except ChunkError (List ToolDef) := do
  let items ← requiredList v
  items.mapM toolDef

def formatTypes : List ResponseFormatType := [.text, .jsonObject, .jsonSchema]

def formatType : Json → Except ChunkError ResponseFormatType
  | .scalar (.str s) =>
      match formatTypes.find? fun type => type.value = s with
      | some type => .ok type
      | none => .error .validationError
  | _ => .error .validationError

def responseFormat (v : Json) : Except ChunkError ResponseFormat := do
  let members ← requiredDict v
  let type ← formatType (Json.get members "type" (.str "text"))
  let jsonSchema ← optionalOf requiredDict (Json.get members "json_schema" .null)
  return { type, jsonSchema }

/-- `ChatCompletionRequest(**body)`. -/
def validateRequest (body : List (String × Json)) : Except ChunkError ChatCompletionRequest := do
  let model ← requiredStr (Json.get body "model" .null)
  let items ← requiredList (Json.get body "messages" .null)
  let messages ← items.mapM validateMessage
  let temperature ← optionalOf (boundedFloat lib 0 2) (Json.get body "temperature" .null)
  let topP ← optionalOf (boundedFloat lib 0 1) (Json.get body "top_p" .null)
  let n ← optionalOf (positiveInt lib (some 8)) (Json.get body "n" (.ofInt 1))
  let stream ← requiredBool lib (Json.get body "stream" (.scalar (.bool false)))
  let stop ← optionalOf strOrList (Json.get body "stop" .null)
  let maxTokens ← optionalOf (positiveInt lib none) (Json.get body "max_tokens" .null)
  let presencePenalty ← optionalOf (boundedFloat lib (-2) 2) (Json.get body "presence_penalty" .null)
  let frequencyPenalty ←
    optionalOf (boundedFloat lib (-2) 2) (Json.get body "frequency_penalty" .null)
  let logitBias ← optionalOf (floatDict lib) (Json.get body "logit_bias" .null)
  let user ← optionalStr (Json.get body "user" .null)
  let tools ← optionalOf toolDefs (Json.get body "tools" .null)
  let toolChoice ← optionalOf strOrDict (Json.get body "tool_choice" .null)
  let format ← optionalOf responseFormat (Json.get body "response_format" .null)
  let seed ← optionalOf (requiredInt lib.toLibraries) (Json.get body "seed" .null)
  match messages with
  | [] => throw .validationError
  | first :: rest =>
      return {
        model := .str model
        messages := first :: rest
        nonEmptyMessages := List.cons_ne_nil first rest
        temperature, topP, n, stream, stop, maxTokens, presencePenalty, frequencyPenalty, logitBias
        user, tools, toolChoice, responseFormat := format, seed }

end readers

/-! ### What a dump without its nulls reads as -/

namespace Json

/-- Dropping nulls leaves a member as it is, unless it is one. -/
theorem member?_excludeNone {members : List (String × Json)}
    (distinct : (members.map Prod.fst).Nodup) (name : String) :
    member? (excludeNone members) name = (member? members name).filter fun v => !v.isNull := by
  induction members with
  | nil => rfl
  | cons m rest ih =>
      obtain ⟨fresh, distinct⟩ := List.nodup_cons.mp distinct
      have ih := ih distinct
      have absent : m.1 = name → member? rest name = none := by
        rintro rfl
        rw [member?, List.find?_eq_none.mpr]
        · rfl
        · intro other inside same
          exact fresh (List.mem_map.mpr ⟨other, inside, of_decide_eq_true same⟩)
      by_cases here : m.1 = name
      · cases null : m.2.isNull with
        | true =>
            have dropped : excludeNone (m :: rest) = excludeNone rest := by simp [excludeNone, null]
            rw [dropped, ih, absent here]
            simp [member?, here, null, Option.filter]
        | false => simp [member?, excludeNone, here, null, Option.filter]
      · have later : ∀ tail : List (String × Json), member? (m :: tail) name = member? tail name := by
          intro tail
          simp [member?, here]
        rw [later, ← ih]
        cases null : m.2.isNull with
        | true => simp [excludeNone, null]
        | false =>
            have kept : excludeNone (m :: rest) = m :: excludeNone rest := by
              simp [excludeNone, null]
            rw [kept, later]

/-- A member that is read with a default other than null. -/
theorem get_excludeNone_default {members : List (String × Json)}
    (distinct : (members.map Prod.fst).Nodup) (name : String) (default : Json) :
    Json.get (excludeNone members) name default =
      if (Json.get members name .null).isNull then default else Json.get members name .null := by
  rw [Json.get, member?_excludeNone distinct]
  cases found : member? members name with
  | none => simp [Json.get, found, isNull]
  | some v => cases null : v.isNull <;> simp [Json.get, found, null, Option.filter]

end Json

section dumps

theorem optionalOf_dump {α : Type} {read : Json → Except ChunkError α} {dump : α → Json}
    {value : Option α} (reads : ∀ a ∈ value, read (dump a) = .ok a)
    (present : ∀ a, (dump a).isNull = false) : optionalOf read (.ofOption dump value) = .ok value := by
  cases value with
  | none => rfl
  | some a =>
      have read_eq := reads a rfl
      simp [optionalOf, Json.ofOption, present, read_eq, Except.map]

theorem validateMessage_request_dump {m : ChatMessage} (fits : Fits m.content) :
    validateMessage m.dump = .ok m := by
  have same : validateMessage m.dump = validateMessage m.modelDump := by
    simp only [validateMessage, ChatMessage.dump, ChatMessage.modelDump, requiredDict, bind,
      Except.bind]
    simp (disch := simp) only [Json.get_excludeNone]
  rw [same, validateMessage_dump fits]

@[simp] theorem functionDef_dump (f : FunctionDef) : functionDef f.dump = .ok f := by
  have parameters : optionalOf requiredDict (.ofOption .obj f.parameters) = .ok f.parameters :=
    optionalOf_dump (fun _ _ => rfl) fun _ => rfl
  simp only [functionDef, FunctionDef.dump, requiredDict, bind, Except.bind]
  simp (disch := simp) only [Json.get_excludeNone]
  simp [Json.get, Json.member?, requiredStr, Json.str, parameters, pure, Except.pure]

@[simp] theorem toolDef_dump (t : ToolDef) : toolDef t.dump = .ok t := by
  simp [toolDef, ToolDef.dump, requiredDict, Json.get, Json.member?, functionType, Json.str, bind,
    Except.bind, pure, Except.pure]

@[simp] theorem formatType_dump (type : ResponseFormatType) :
    formatType (.str type.value) = .ok type := by
  cases type <;> rfl

@[simp] theorem responseFormat_dump (f : ResponseFormat) : responseFormat f.dump = .ok f := by
  obtain ⟨type, jsonSchema⟩ := f
  simp only [responseFormat, ResponseFormat.dump, requiredDict, bind, Except.bind]
  simp (disch := simp) only [Json.get_excludeNone_default]
  cases jsonSchema <;> simp [Json.get, Json.member?, Json.isNull, Json.ofOption, optionalOf,
    requiredDict, Except.map, pure, Except.pure]

theorem strOrList_dump (stop : String ⊕ List String) : strOrList (stopDump stop) = .ok stop := by
  cases stop with
  | inl s => rfl
  | inr texts =>
      change ((texts.map Json.str).mapM requiredStr).map Sum.inr = _
      rw [mapM_dump fun s _ => (rfl : requiredStr (.str s) = .ok s)]
      rfl

section coerced
variable {lib : RequestLibraries}

theorem boundedFloat_dump (floats : ∀ x, lib.coerceFloat (.scalar (.float x)) = some x) {ge le q : ℚ}
    (within : ge ≤ q ∧ q ≤ le) : boundedFloat lib ge le (.ofRat q) = .ok q := by
  simp [boundedFloat, Json.ofRat, floats, within]

theorem positiveInt_dump (ints : ∀ n, lib.coerceInt (.scalar (.int n)) = some n) {le : Option ℕ}
    {k : ℕ} (within : 1 ≤ k ∧ ∀ top ∈ le, k ≤ top) : positiveInt lib le (.ofInt k) = .ok k := by
  have bounds : (1 : ℤ) ≤ k ∧ ∀ top ∈ le, (k : ℤ) ≤ top :=
    ⟨by exact_mod_cast within.1, fun top member => by exact_mod_cast within.2 top member⟩
  simp only [positiveInt, Json.ofInt, ints, if_pos bounds, Int.toNat_natCast]

theorem floatDict_dump (floats : ∀ x, lib.coerceFloat (.scalar (.float x)) = some x)
    (bias : List (String × PyFloat)) :
    floatDict lib (.obj (bias.map fun m => (m.1, .scalar (.float m.2)))) = .ok bias := by
  change (bias.map _).mapM _ = _
  induction bias with
  | nil => rfl
  | cons m rest ih =>
      rw [List.map_cons, List.mapM_cons, ih, floats]
      rfl

end coerced
end dumps

/-! ### Requests -/

/-- A request as the schema lets it in: within the bounds of its fields, with dictionaries for the
parts of its contents. -/
structure ChatCompletionRequest.Valid (r : ChatCompletionRequest) : Prop where
  messages : ∀ m ∈ r.messages, Fits m.content
  temperature : ∀ q ∈ r.temperature, 0 ≤ q ∧ q ≤ 2
  topP : ∀ q ∈ r.topP, 0 ≤ q ∧ q ≤ 1
  n : ∀ k ∈ r.n, 1 ≤ k ∧ k ≤ 8
  maxTokens : ∀ k ∈ r.maxTokens, 1 ≤ k
  presencePenalty : ∀ q ∈ r.presencePenalty, -2 ≤ q ∧ q ≤ 2
  frequencyPenalty : ∀ q ∈ r.frequencyPenalty, -2 ≤ q ∧ q ≤ 2
  toolChoice : ∀ v ∈ r.toolChoice, strOrDict v = .ok v ∧ v.isNull = false

theorem optionalOf_some {α : Type} {read : Json → Except ChunkError α} {v : Json} {value : Option α}
    (ok : optionalOf read v = .ok value) : ∀ a ∈ value, read v = .ok a := by
  intro a member
  unfold optionalOf at ok
  split_ifs at ok with null
  · rw [← Except.ok.inj ok] at member
    cases member
  · cases found : read v with
    | error e => rw [found] at ok; cases ok
    | ok b =>
        rw [found] at ok
        obtain rfl := Except.ok.inj ok
        exact congrArg Except.ok (Option.some.inj member)

theorem boundedFloat_within {lib : RequestLibraries} {ge le q : ℚ} {v : Json}
    (ok : boundedFloat lib ge le v = .ok q) : ge ≤ q ∧ q ≤ le := by
  unfold boundedFloat at ok
  split at ok
  · split_ifs at ok with within
    rwa [← Except.ok.inj ok]
  · cases ok

theorem positiveInt_within {lib : RequestLibraries} {le : Option ℕ} {k : ℕ} {v : Json}
    (ok : positiveInt lib le v = .ok k) : 1 ≤ k ∧ ∀ top ∈ le, k ≤ top := by
  unfold positiveInt at ok
  split at ok
  · split_ifs at ok with within
    rw [← Except.ok.inj ok]
    refine ⟨by omega, fun top member => ?_⟩
    have bound := within.2 top member
    omega
  · cases ok

theorem strOrDict_ok {v w : Json} (ok : strOrDict v = .ok w) :
    strOrDict w = .ok w ∧ w.isNull = false := by
  unfold strOrDict at ok
  split at ok
  · rw [← Except.ok.inj ok]
    exact ⟨rfl, rfl⟩
  · rw [← Except.ok.inj ok]
    exact ⟨rfl, rfl⟩
  · cases ok

theorem mapM_all {α β : Type} {f : α → Except ChunkError β} {P : β → Prop}
    (each : ∀ a b, f a = .ok b → P b) {items : List α} {results : List β}
    (ok : items.mapM f = .ok results) : ∀ b ∈ results, P b := by
  induction items generalizing results with
  | nil =>
      obtain rfl := Except.ok.inj ok
      simp
  | cons a rest ih =>
      rw [List.mapM_cons] at ok
      obtain ⟨b, first, ok⟩ := bind_eq_ok.mp ok
      obtain ⟨others, later, ok⟩ := bind_eq_ok.mp ok
      obtain rfl := Except.ok.inj ok
      intro c member
      rcases List.mem_cons.mp member with rfl | member
      · exact each a c first
      · exact ih later c member

theorem fits_of_validateMessage {v : Json} {m : ChatMessage} (ok : validateMessage v = .ok m) :
    Fits m.content := by
  obtain ⟨members, -, ok⟩ := bind_eq_ok.mp ok
  obtain ⟨role, -, ok⟩ := bind_eq_ok.mp ok
  obtain ⟨content, read, ok⟩ := bind_eq_ok.mp ok
  obtain ⟨name, -, ok⟩ := bind_eq_ok.mp ok
  obtain ⟨toolCalls, -, ok⟩ := bind_eq_ok.mp ok
  obtain ⟨toolCallId, -, ok⟩ := bind_eq_ok.mp ok
  obtain rfl := Except.ok.inj ok
  exact fits_of_optionalContent read

section requests
variable {lib : RequestLibraries}

/-- What the gateway lets in keeps to the schema. -/
theorem valid_of_validateRequest {body : List (String × Json)} {r : ChatCompletionRequest}
    (ok : validateRequest lib body = .ok r) : r.Valid := by
  obtain ⟨model, -, ok⟩ := bind_eq_ok.mp ok
  obtain ⟨items, -, ok⟩ := bind_eq_ok.mp ok
  obtain ⟨messages, read, ok⟩ := bind_eq_ok.mp ok
  obtain ⟨temperature, temperature_ok, ok⟩ := bind_eq_ok.mp ok
  obtain ⟨topP, topP_ok, ok⟩ := bind_eq_ok.mp ok
  obtain ⟨n, n_ok, ok⟩ := bind_eq_ok.mp ok
  obtain ⟨stream, -, ok⟩ := bind_eq_ok.mp ok
  obtain ⟨stop, -, ok⟩ := bind_eq_ok.mp ok
  obtain ⟨maxTokens, maxTokens_ok, ok⟩ := bind_eq_ok.mp ok
  obtain ⟨presencePenalty, presence_ok, ok⟩ := bind_eq_ok.mp ok
  obtain ⟨frequencyPenalty, frequency_ok, ok⟩ := bind_eq_ok.mp ok
  obtain ⟨logitBias, -, ok⟩ := bind_eq_ok.mp ok
  obtain ⟨user, -, ok⟩ := bind_eq_ok.mp ok
  obtain ⟨tools, -, ok⟩ := bind_eq_ok.mp ok
  obtain ⟨toolChoice, choice_ok, ok⟩ := bind_eq_ok.mp ok
  obtain ⟨format, -, ok⟩ := bind_eq_ok.mp ok
  obtain ⟨seed, -, ok⟩ := bind_eq_ok.mp ok
  have fits := mapM_all (fun _ _ => fits_of_validateMessage) read
  cases messages with
  | nil => cases ok
  | cons first rest =>
      obtain rfl := Except.ok.inj ok
      exact {
        messages := fits
        temperature := fun q given => boundedFloat_within (optionalOf_some temperature_ok q given)
        topP := fun q given => boundedFloat_within (optionalOf_some topP_ok q given)
        n := fun k given =>
          (positiveInt_within (optionalOf_some n_ok k given)).imp_right fun top => top 8 rfl
        maxTokens := fun k given => (positiveInt_within (optionalOf_some maxTokens_ok k given)).1
        presencePenalty := fun q given => boundedFloat_within (optionalOf_some presence_ok q given)
        frequencyPenalty := fun q given =>
          boundedFloat_within (optionalOf_some frequency_ok q given)
        toolChoice := fun v given => strOrDict_ok (optionalOf_some choice_ok v given) }

/-- A field of the body that is posted, other than `stream`. -/
theorem get_requestPayload (r : ChatCompletionRequest) (stream : Bool) {name : String}
    (other : name ≠ "stream") (default : Json) :
    Json.get (r.requestPayload stream) name default =
      if (Json.get r.fields name .null).isNull then default else Json.get r.fields name .null := by
  have distinct : (r.fields.map Prod.fst).Nodup := by
    rw [ChatCompletionRequest.fields_names]
    decide
  have dumped := Json.get_excludeNone_default distinct name default
  have found : Json.member? (r.requestPayload stream) name = Json.member? r.modelDump name := by
    have same : (fun m : String × Json => decide (decide (m.1 ≠ "stream") = true ∧
        decide (m.1 = name) = true)) = fun m => decide (m.1 = name) := by
      funext m
      by_cases here : m.1 = name <;> simp [here, other]
    have last : List.find? (fun m : String × Json => decide (m.1 = name))
        [("stream", .scalar (.bool stream))] = none := by simp [Ne.symm other]
    rw [Json.member?, ChatCompletionRequest.requestPayload, List.find?_append, List.find?_filter,
      same, last, Option.or_none]
    rfl
  rw [Json.get, found]
  exact dumped

theorem get_requestPayload_null (r : ChatCompletionRequest) (stream : Bool) {name : String}
    (other : name ≠ "stream") :
    Json.get (r.requestPayload stream) name .null = Json.get r.fields name .null := by
  rw [get_requestPayload r stream other]
  split_ifs with null
  · rw [Json.isNull_iff.mp null]
  · rfl

theorem get_requestPayload_stream (r : ChatCompletionRequest) (stream : Bool) (default : Json) :
    Json.get (r.requestPayload stream) "stream" default = .scalar (.bool stream) := by
  have none_before : List.find? (fun m : String × Json => decide (m.1 = "stream"))
      (r.modelDump.filter fun m => m.1 ≠ "stream") = none := by
    rw [List.find?_eq_none]
    intro m member same
    have apart := List.of_mem_filter member
    simp_all
  rw [Json.get, Json.member?, ChatCompletionRequest.requestPayload, List.find?_append, none_before]
  rfl

/-- A field that is null by default. -/
theorem optionalOf_field {α : Type} {read : Json → Except ChunkError α} {dump : α → Json}
    {value : Option α} {r : ChatCompletionRequest} {name : String} (stream : Bool)
    (other : name ≠ "stream") (here : Json.get r.fields name .null = .ofOption dump value)
    (reads : ∀ a ∈ value, read (dump a) = .ok a) (present : ∀ a, (dump a).isNull = false) :
    optionalOf read (Json.get (r.requestPayload stream) name .null) = .ok value := by
  rw [get_requestPayload_null r stream other, here]
  exact optionalOf_dump reads present

variable (ints : ∀ n, lib.coerceInt (.scalar (.int n)) = some n)
  (floats : ∀ x, lib.coerceFloat (.scalar (.float x)) = some x)
  (bools : ∀ b, lib.coerceBool (.scalar (.bool b)) = some b)

include ints in
/-- A request without a number of answers is posted without one, and asks for one. -/
theorem optionalOf_n {r : ChatCompletionRequest} (within : ∀ k ∈ r.n, 1 ≤ k ∧ k ≤ 8)
    (stream : Bool) :
    optionalOf (positiveInt lib (some 8)) (Json.get (r.requestPayload stream) "n" (.ofInt 1)) =
      .ok (some (r.n.getD 1)) := by
  have posted : Json.get (r.requestPayload stream) "n" (.ofInt 1) =
      .ofOption (fun k : ℕ => .ofInt k) (some (r.n.getD 1)) := by
    have given : Json.get r.fields "n" .null = .ofOption (fun k : ℕ => .ofInt k) r.n := rfl
    rw [get_requestPayload r stream (by decide), given]
    cases r.n <;> rfl
  have bounds : 1 ≤ r.n.getD 1 ∧ ∀ top ∈ some 8, r.n.getD 1 ≤ top := by
    cases given : r.n with
    | none => simp
    | some k => simpa using within k given
  rw [posted]
  refine optionalOf_dump (fun k member => ?_) fun _ => rfl
  obtain rfl := Option.some.inj member
  exact positiveInt_dump ints bounds

include floats in
theorem boundedFloat_field {ge le : ℚ} {value : Option ℚ} (within : ∀ q ∈ value, ge ≤ q ∧ q ≤ le)
    {r : ChatCompletionRequest} {name : String} (stream : Bool) (other : name ≠ "stream")
    (here : Json.get r.fields name .null = .ofOption .ofRat value) :
    optionalOf (boundedFloat lib ge le) (Json.get (r.requestPayload stream) name .null) =
      .ok value :=
  optionalOf_field stream other here (fun q given => boundedFloat_dump floats (within q given))
    fun _ => rfl

theorem optionalOf_toolChoice {r : ChatCompletionRequest}
    (kept : ∀ v ∈ r.toolChoice, strOrDict v = .ok v ∧ v.isNull = false) (stream : Bool) :
    optionalOf strOrDict (Json.get (r.requestPayload stream) "tool_choice" .null) =
      .ok r.toolChoice := by
  have given : Json.get r.fields "tool_choice" .null = .ofOption id r.toolChoice := rfl
  rw [get_requestPayload_null r stream (by decide), given]
  cases choice : r.toolChoice with
  | none => rfl
  | some v =>
      obtain ⟨read, present⟩ := kept v choice
      simp [optionalOf, Json.ofOption, present, read, Except.map]

include ints floats bools

/-- The body that is posted for a request validates to the request, with a number of answers. -/
theorem validateRequest_requestPayload {r : ChatCompletionRequest} (valid : r.Valid) {model : String}
    (named : r.model = .str model) (stream : Bool) :
    validateRequest lib (r.requestPayload stream) =
      .ok { r with stream, n := some (r.n.getD 1) } := by
  have name : requiredStr (Json.get (r.requestPayload stream) "model" .null) = .ok model := by
    rw [get_requestPayload_null r stream (by decide)]
    have given : Json.get r.fields "model" .null = .scalar r.model := rfl
    rw [given, named]
    rfl
  have items : requiredList (Json.get (r.requestPayload stream) "messages" .null) =
      .ok (r.messages.map ChatMessage.dump) := by
    rw [get_requestPayload_null r stream (by decide)]
    rfl
  have messages : (r.messages.map ChatMessage.dump).mapM validateMessage = .ok r.messages :=
    mapM_dump fun m member => validateMessage_request_dump (valid.messages m member)
  have temperature :
      optionalOf (boundedFloat lib 0 2) (Json.get (r.requestPayload stream) "temperature" .null) =
        .ok r.temperature :=
    boundedFloat_field floats valid.temperature stream (by decide) rfl
  have topP : optionalOf (boundedFloat lib 0 1) (Json.get (r.requestPayload stream) "top_p" .null) =
      .ok r.topP :=
    boundedFloat_field floats valid.topP stream (by decide) rfl
  have streaming : requiredBool lib
      (Json.get (r.requestPayload stream) "stream" (.scalar (.bool false))) = .ok stream := by
    simp [get_requestPayload_stream, requiredBool, bools]
  have stop : optionalOf strOrList (Json.get (r.requestPayload stream) "stop" .null) = .ok r.stop :=
    optionalOf_field stream (by decide) rfl (fun texts _ => strOrList_dump texts)
      fun texts => by cases texts <;> rfl
  have maxTokens :
      optionalOf (positiveInt lib none) (Json.get (r.requestPayload stream) "max_tokens" .null) =
        .ok r.maxTokens :=
    optionalOf_field stream (by decide) rfl
      (fun k given => positiveInt_dump ints ⟨valid.maxTokens k given, by simp⟩) fun _ => rfl
  have presence : optionalOf (boundedFloat lib (-2) 2)
      (Json.get (r.requestPayload stream) "presence_penalty" .null) = .ok r.presencePenalty :=
    boundedFloat_field floats valid.presencePenalty stream (by decide) rfl
  have frequency : optionalOf (boundedFloat lib (-2) 2)
      (Json.get (r.requestPayload stream) "frequency_penalty" .null) = .ok r.frequencyPenalty :=
    boundedFloat_field floats valid.frequencyPenalty stream (by decide) rfl
  have logitBias :
      optionalOf (floatDict lib) (Json.get (r.requestPayload stream) "logit_bias" .null) =
        .ok r.logitBias :=
    optionalOf_field stream (by decide) rfl (fun bias _ => floatDict_dump floats bias) fun _ => rfl
  have user : optionalStr (Json.get (r.requestPayload stream) "user" .null) = .ok r.user := by
    rw [get_requestPayload_null r stream (by decide)]
    exact optionalStr_dump r.user
  have tools : optionalOf toolDefs (Json.get (r.requestPayload stream) "tools" .null) = .ok r.tools :=
    optionalOf_field stream (by decide) rfl (fun tools _ => mapM_dump fun t _ => toolDef_dump t)
      fun _ => rfl
  have toolChoice := optionalOf_toolChoice valid.toolChoice stream
  have format :
      optionalOf responseFormat (Json.get (r.requestPayload stream) "response_format" .null) =
        .ok r.responseFormat :=
    optionalOf_field stream (by decide) rfl (fun f _ => responseFormat_dump f) fun _ => rfl
  have seed : optionalOf (requiredInt lib.toLibraries)
      (Json.get (r.requestPayload stream) "seed" .null) = .ok r.seed :=
    optionalOf_field stream (by decide) rfl (fun n _ => requiredInt_ofInt ints n) fun _ => rfl
  have n := optionalOf_n ints valid.n stream
  simp only [validateRequest, name, items, messages, temperature, topP, n, streaming, stop, maxTokens,
    presence, frequency, logitBias, user, tools, toolChoice, format, seed, bind, Except.bind]
  obtain ⟨model', messages', nonEmpty, temperature', topP', n', stream', stop', maxTokens',
    presence', frequency', logitBias', user', tools', toolChoice', format', seed'⟩ := r
  cases messages' with
  | nil => exact absurd rfl nonEmpty
  | cons first rest =>
      obtain rfl : model' = .str model := named
      rfl

end requests

/-! ### Chains of gateways -/

/-- A request on its way through gateways: each one posts it under the model and with the streaming
flag of its own call, and the next one validates what was posted. -/
def relay (lib : RequestLibraries) (r : ChatCompletionRequest) :
    List (String × Bool) → Except ChunkError ChatCompletionRequest
  | [] => .ok r
  | hop :: rest => do
      let next ← validateRequest lib ((r.withModel (.str hop.1)).requestPayload hop.2)
      relay lib next rest

/-- What a request has become after a hop. -/
def ChatCompletionRequest.after (r : ChatCompletionRequest) (hop : String × Bool) :
    ChatCompletionRequest :=
  { r with model := .str hop.1, stream := hop.2, n := some (r.n.getD 1) }

theorem ChatCompletionRequest.Valid.after {r : ChatCompletionRequest} (valid : r.Valid)
    (hop : String × Bool) : (r.after hop).Valid := by
  refine { valid with n := fun k given => ?_ }
  obtain rfl : r.n.getD 1 = k := Option.some.inj given
  cases answers : r.n with
  | none => decide
  | some k => exact valid.n k answers

section chains
variable (lib : RequestLibraries) (ints : ∀ n, lib.coerceInt (.scalar (.int n)) = some n)
  (floats : ∀ x, lib.coerceFloat (.scalar (.float x)) = some x)
  (bools : ∀ b, lib.coerceBool (.scalar (.bool b)) = some b)
include ints floats bools

theorem relay_valid {r : ChatCompletionRequest} (valid : r.Valid) (hops : List (String × Bool))
    (last : String × Bool) : relay lib r (hops ++ [last]) = .ok (r.after last) := by
  induction hops generalizing r with
  | nil =>
      have posted := validateRequest_requestPayload ints floats bools
        (r := r.withModel (.str last.1)) { valid with } rfl last.2
      rw [List.nil_append, relay, posted]
      rfl
  | cons hop rest ih =>
      have posted := validateRequest_requestPayload ints floats bools
        (r := r.withModel (.str hop.1)) { valid with } rfl hop.2
      rw [List.cons_append, relay, posted]
      exact ih (valid.after hop)

/-- A body that the gateway accepts goes through every chain of gateways: none of them rejects
what the one before it posts, and the last one reads the request of the first one under the last
model and streaming flag, with one answer where the body asked for null. -/
theorem request_round_trip (body : List (String × Json)) (r : ChatCompletionRequest)
    (ok : validateRequest lib body = .ok r) (hops : List (String × Bool)) (last : String × Bool) :
    relay lib r (hops ++ [last]) =
      .ok { r with model := .str last.1, stream := last.2, n := some (r.n.getD 1) } :=
  relay_valid lib ints floats bools (valid_of_validateRequest ok) hops last

end chains

namespace Demo

/-- Numbers and truth values of the type that a field asks for, and integers for floats. -/
def strictNumbers : RequestLibraries where
  toLibraries := strictInts
  coerceFloat
    | .scalar (.float x) => some x
    | .scalar (.int n) => some (.finite n)
    | _ => none
  coerceBool
    | .scalar (.bool b) => some b
    | _ => none

def relayedBody : List (String × Json) :=
  [("model", .str "auto"), ("messages", .arr [.obj [("role", .str "user"), ("content", .str "hi")]]),
    ("n", .null), ("stop", .arr [.str "."]), ("max_tokens", .ofInt 5), ("tool_choice", .str "auto"),
    ("metadata", .null)]

end Demo

theorem request_round_trip_two_gateways :
    ∃ r, validateRequest Demo.strictNumbers Demo.relayedBody = .ok r ∧
      relay Demo.strictNumbers r [("m", true), ("m'", false)] =
        .ok { r with model := .str "m'", stream := false, n := some 1 } := by
  refine ⟨_, rfl, ?_⟩
  exact request_round_trip Demo.strictNumbers (fun _ => rfl) (fun _ => rfl) (fun _ => rfl)
    Demo.relayedBody _ rfl [("m", true)] ("m'", false)

end Noxis
