import Noxis.Schemas
import Noxis.Library.LabelledRun

/-! The response cache: what a request is dumped to, the key built from the dump, the two
cache backends, and the non-streaming endpoint around them. -/
namespace Noxis

namespace Json

def isNull : Json → Bool
  | .scalar .none => true
  | _ => false

mutual

/-- The members of every dictionary in the order of their names. Dictionaries compare equal
whatever the order of their members, and `sort_keys` writes them in this one. -/
def sortKeys : Json → Json
  | .scalar v => .scalar v
  | .arr items => .arr (sortItems items)
  | .obj members => .obj ((sortMembers members).insertionSort fun a b => a.1 ≤ b.1)

def sortItems : List Json → List Json
  | [] => []
  | v :: rest => sortKeys v :: sortItems rest

def sortMembers : List (String × Json) → List (String × Json)
  | [] => []
  | (name, v) :: rest => (name, sortKeys v) :: sortMembers rest

end

/-- `exclude_none=True`. -/
def excludeNone (members : List (String × Json)) : List (String × Json) :=
  members.filter fun m => !m.2.isNull

def ofOption {α : Type} (dump : α → Json) (value : Option α) : Json := (value.map dump).getD .null

def ofRat (q : ℚ) : Json := .scalar (.float (.finite q))
def ofInt (n : ℤ) : Json := .scalar (.int n)

end Json

def MessageRole.value : MessageRole → String
  | .system => "system"
  | .user => "user"
  | .assistant => "assistant"
  | .tool => "tool"
  | .developer => "developer"

def MessageContent.dump : MessageContent → Json
  | .text s => .str s
  | .parts items => .arr items

def ToolCall.dump (t : ToolCall) : Json :=
  .obj [("id", .str t.id), ("type", .str "function"), ("function", .obj t.function)]

def ChatMessage.dump (m : ChatMessage) : Json :=
  .obj (Json.excludeNone [("role", .str m.role.value), ("content", .ofOption MessageContent.dump m.content),
    ("name", .ofOption .str m.name),
    ("tool_calls", .ofOption (fun calls => .arr (calls.map ToolCall.dump)) m.toolCalls),
    ("tool_call_id", .ofOption .str m.toolCallId)])

def FunctionDef.dump (f : FunctionDef) : Json :=
  .obj (Json.excludeNone [("name", .str f.name), ("description", .ofOption .str f.description),
    ("parameters", .ofOption .obj f.parameters)])

def ToolDef.dump (t : ToolDef) : Json :=
  .obj [("type", .str "function"), ("function", t.function.dump)]

def ResponseFormatType.value : ResponseFormatType → String
  | .text => "text"
  | .jsonObject => "json_object"
  | .jsonSchema => "json_schema"

def ResponseFormat.dump (f : ResponseFormat) : Json :=
  .obj (Json.excludeNone [("type", .str f.type.value), ("json_schema", .ofOption .obj f.jsonSchema)])

def stopDump : String ⊕ List String → Json
  | .inl s => .str s
  | .inr texts => .arr (texts.map .str)

namespace ChatCompletionRequest

/-- Every field of the schema, in its order, with null for `None`. -/
def fields (r : ChatCompletionRequest) : List (String × Json) :=
  [("model", .scalar r.model),
    ("messages", .arr (r.messages.map ChatMessage.dump)),
    ("temperature", .ofOption .ofRat r.temperature),
    ("top_p", .ofOption .ofRat r.topP),
    ("n", .ofOption (fun n : ℕ => .ofInt n) r.n),
    ("stream", .scalar (.bool r.stream)),
    ("stop", .ofOption stopDump r.stop),
    ("max_tokens", .ofOption (fun n : ℕ => .ofInt n) r.maxTokens),
    ("presence_penalty", .ofOption .ofRat r.presencePenalty),
    ("frequency_penalty", .ofOption .ofRat r.frequencyPenalty),
    ("logit_bias", .ofOption (fun bias => .obj (bias.map fun m => (m.1, .scalar (.float m.2))))
      r.logitBias),
    ("user", .ofOption .str r.user),
    ("tools", .ofOption (fun tools => .arr (tools.map ToolDef.dump)) r.tools),
    ("tool_choice", .ofOption id r.toolChoice),
    ("response_format", .ofOption ResponseFormat.dump r.responseFormat),
    ("seed", .ofOption .ofInt r.seed)]

/-- `model_dump(exclude_none=True)`. -/
def modelDump (r : ChatCompletionRequest) : List (String × Json) := Json.excludeNone r.fields

/-- `_request_payload`. -/
def requestPayload (r : ChatCompletionRequest) (stream : Bool) : List (String × Json) :=
  r.modelDump.filter (fun m => m.1 ≠ "stream") ++ [("stream", .scalar (.bool stream))]

end ChatCompletionRequest

/-- The writer of `json.dumps`, applied to values whose keys are sorted, the digest, and what
a value becomes when it is written out and read again. -/
structure CacheLibraries where
  write : Json → String
  sha256 : String → String
  reload : Json → Json

def keyFields : List String :=
  ["model", "messages", "temperature", "top_p", "max_tokens", "stop", "presence_penalty",
    "frequency_penalty", "tools", "tool_choice", "response_format", "seed"]

/-- The dictionary that `build_cache_key` writes out. -/
def relevant (payload : List (String × Json)) : Json :=
  .obj (keyFields.map fun name => (name, Json.get payload name .null))

def buildCacheKey (lib : CacheLibraries) (payload : List (String × Json)) : String :=
  lib.sha256 (lib.write (relevant payload).sortKeys)

inductive CacheBackend where
  | memory | redis
  deriving DecidableEq

/-- `producedFor` is a history variable: the request whose response is stored. -/
structure CacheEntry where
  expiresAt : ℚ
  value : Json
  producedFor : ChatCompletionRequest

structure CacheSettings where
  lib : CacheLibraries
  backend : CacheBackend
  ttl : ℚ

/-- The cache and the requests that have missed it and wait for the scheduler. -/
structure CacheState where
  now : ℚ
  store : String → Option CacheEntry := fun _ => none
  pending : List (String × ChatCompletionRequest) := []

inductive CacheAction where
  | elapse (dt : ℚ≥0)
  | arrive (request : ChatCompletionRequest)
  | answered (i : ℕ) (response : Json)
  | failed (i : ℕ)

inductive CacheEvent where
  | served (request : ChatCompletionRequest) (value : Json) (producedFor : ChatCompletionRequest)
  | produced (request : ChatCompletionRequest) (response : Json)

namespace CacheSettings

variable (c : CacheSettings)

/-- The in-memory cache compares with the clock; the server drops a key at its expiry. -/
def expired (now : ℚ) (e : CacheEntry) : Bool :=
  match c.backend with
  | .memory => decide (e.expiresAt < now)
  | .redis => decide (e.expiresAt ≤ now)

/-- The stored value as it comes back: Redis holds its JSON text. -/
def read (value : Json) : Json :=
  match c.backend with
  | .memory => value
  | .redis => c.lib.reload value

def keyOf (r : ChatCompletionRequest) : String := buildCacheKey c.lib r.modelDump

/-- `cache.get`; an expired entry is dropped. -/
def get (s : CacheState) (key : String) : Option CacheEntry × CacheState :=
  match s.store key with
  | none => (none, s)
  | some e =>
      if c.expired s.now e then (none, { s with store := Function.update s.store key none })
      else (some e, s)

/-- `cache.set`. -/
def set (s : CacheState) (key : String) (value : Json) (r : ChatCompletionRequest) : CacheState :=
  { s with store := Function.update s.store key (some ⟨s.now + c.ttl, value, r⟩) }

/-- `_sync_response`, cut at its await of the scheduler. -/
def step (s : CacheState) : CacheAction → Option (CacheState × List CacheEvent)
  | .elapse dt => some ({ s with now := s.now + dt }, [])
  | .arrive r =>
      if r.stream then none
      else
        let (cached, s) := c.get s (c.keyOf r)
        match cached with
        | some e =>
            if (c.read e.value).isNull then some ({ s with pending := s.pending ++ [(c.keyOf r, r)] }, [])
            else some (s, [.served r (c.read e.value) e.producedFor])
        | none => some ({ s with pending := s.pending ++ [(c.keyOf r, r)] }, [])
  | .answered i response =>
      (s.pending[i]?).map fun (key, r) =>
        (c.set { s with pending := s.pending.eraseIdx i } key response r, [.produced r response])
  | .failed i => (s.pending[i]?).map fun _ => ({ s with pending := s.pending.eraseIdx i }, [])

end CacheSettings

abbrev CacheTransition := LabelledRun.Transition CacheState CacheAction CacheEvent

abbrev CacheRun (c : CacheSettings) : CacheState → List CacheTransition → CacheState → Prop :=
  LabelledRun.Run c.step

end Noxis
