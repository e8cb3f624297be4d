import Noxis.ProviderBase

/-! OpenAI-compatible request schemas, as far as the gateway itself reads them, and
the chunk schema of the streaming responses. -/
namespace Noxis

/-- `content: str | list[dict[str, Any]] | None`. -/
inductive MessageContent where
  | text (s : String)
  | parts (items : List Json)

inductive MessageRole where
  | system | user | assistant | tool | developer
  deriving DecidableEq

structure ToolCall where
  id : String
  function : List (String × Json)

structure ChatMessage where
  role : MessageRole
  content : Option MessageContent := none
  name : Option String := none
  toolCalls : Option (List ToolCall) := none
  toolCallId : Option String := none

structure FunctionDef where
  name : String
  description : Option String := none
  parameters : Option (List (String × Json)) := none

/-- `type` is the constant `"function"`. -/
structure ToolDef where
  function : FunctionDef

inductive ResponseFormatType where
  | text | jsonObject | jsonSchema
  deriving DecidableEq

structure ResponseFormat where
  type : ResponseFormatType := .text
  jsonSchema : Option (List (String × Json)) := none

/-- A validated request: the schema refuses an empty message list. -/
structure ChatCompletionRequest where
  model : ModelName
  messages : List ChatMessage
  nonEmptyMessages : messages ≠ []
  temperature : Option ℚ := none
  topP : Option ℚ := none
  n : Option ℕ := some 1
  stream : Bool := false
  stop : Option (String ⊕ List String) := none
  maxTokens : Option ℕ := none
  presencePenalty : Option ℚ := none
  frequencyPenalty : Option ℚ := none
  logitBias : Option (List (String × PyFloat)) := none
  user : Option String := none
  tools : Option (List ToolDef) := none
  toolChoice : Option Json := none
  responseFormat : Option ResponseFormat := none
  seed : Option ℤ := none

/-- `request.model_copy(update={"model": model})`, which validates nothing. -/
def ChatCompletionRequest.withModel (r : ChatCompletionRequest) (model : ModelName) :
    ChatCompletionRequest := { r with model }

structure DeltaMessage where
  role : Option String
  content : Option String
  toolCalls : Option (List (List (String × Json)))

structure ChatCompletionChunkChoice where
  index : ℤ
  delta : DeltaMessage
  finishReason : Option String

/-- Without the constant `object`. -/
structure ChatCompletionChunk where
  id : String
  created : ℤ
  model : String
  choices : List ChatCompletionChunkChoice
  noxisProvider : String

end Noxis
