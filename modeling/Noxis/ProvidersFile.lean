import Noxis.ProviderBase

/-! What `yaml.safe_load` returns, and what Python does with it where the registry looks
into it without asking what it is. -/
namespace Noxis

/-- The hashable values of a YAML document; a timestamp is given by its canonical text. -/
inductive YamlKey where
  | scalar (v : Scalar)
  | timestamp (text : String)
  | binary (bytes : List ℕ)
  deriving DecidableEq

/-- The pairs of `!!omap` and `!!pairs` are sequences. -/
inductive Yaml where
  | key (k : YamlKey)
  | seq (items : List Yaml)
  | map (members : List (YamlKey × Yaml))
  | set (members : List YamlKey)

/-- The exceptions that looking into a value can raise. -/
inductive PyError where
  | keyError (name : String)
  | typeError
  | valueError
  | attributeError
  deriving DecidableEq

namespace YamlKey

abbrev str (s : String) : YamlKey := .scalar (.str s)

/-- `a == b`, under which NaN differs from itself. -/
def pyEq : YamlKey → YamlKey → Bool
  | .scalar a, .scalar b => a.pyEq b
  | a, b => decide (a = b)

def key : YamlKey → YamlKey
  | .scalar v => .scalar v.key
  | k => k

/-- `a is b or a == b`, by which a dictionary finds its keys. A parser has one NaN object. -/
def sameKey (a b : YamlKey) : Bool := decide (a.key = b.key)

def truthy : YamlKey → Bool
  | .scalar v => v.truthy
  | .timestamp _ => true
  | .binary bytes => !bytes.isEmpty

end YamlKey

namespace Yaml

abbrev scalar (v : Scalar) : Yaml := .key (.scalar v)
abbrev str (s : String) : Yaml := .scalar (.str s)
abbrev bool (b : Bool) : Yaml := .scalar (.bool b)
abbrev int (n : ℤ) : Yaml := .scalar (.int n)

/-- `bool(v)`. -/
def truthy : Yaml → Bool
  | .key k => k.truthy
  | .seq items => !items.isEmpty
  | .map members => !members.isEmpty
  | .set members => !members.isEmpty

def str? : Yaml → Option String
  | .key (.scalar (.str s)) => some s
  | _ => none

/-- What `for item in v` goes through: the keys of a mapping, the characters of a text. -/
def iterate : Yaml → Except PyError (List Yaml)
  | .seq items => .ok items
  | .map members => .ok (members.map fun m => .key m.1)
  | .set members => .ok (members.map .key)
  | .key (.scalar (.str s)) => .ok (s.toList.map fun c => .str (String.ofList [c]))
  | .key (.binary bytes) => .ok (bytes.map fun b => .int b)
  | .key _ => .error .typeError

def member? (members : List (YamlKey × Yaml)) (name : String) : Option Yaml :=
  (members.find? fun m => m.1 = .str name).map Prod.snd

/-- `d.get(name, default)`. -/
def get (members : List (YamlKey × Yaml)) (name : String) (default : Yaml) : Yaml :=
  (member? members name).getD default

/-- `d[name]`. -/
def subscript (members : List (YamlKey × Yaml)) (name : String) : Except PyError Yaml :=
  match member? members name with
  | none => .error (.keyError name)
  | some v => .ok v

theorem subscript_eq_ok {members : List (YamlKey × Yaml)} {name : String} {v : Yaml} :
    subscript members name = .ok v ↔ member? members name = some v := by
  unfold subscript
  cases member? members name <;> simp

/-- `hash(v)` raises for lists, mappings and sets. -/
def hashable : Yaml → Except PyError YamlKey
  | .key k => .ok k
  | _ => .error .typeError

theorem hashable_eq_ok {v : Yaml} {k : YamlKey} : v.hashable = .ok k ↔ v = .key k := by
  cases v <;> simp [hashable]

end Yaml

/-- A model as the file gives it: the dataclass takes any value for any field. -/
structure LoadedModel where
  name : Yaml
  contextLength : Yaml := .int 8192
  supportsStreaming : Yaml := .bool true
  supportsTools : Yaml := .bool false
  supportsVision : Yaml := .bool false

def modelFields : List String :=
  ["name", "context_length", "supports_streaming", "supports_tools", "supports_vision"]

/-- `ModelSpec(**m)`: an unknown keyword, one that is no text, or no name is a `TypeError`. -/
def LoadedModel.ofKeywords (members : List (YamlKey × Yaml)) : Except PyError LoadedModel :=
  if members.all fun m => decide (m.1 ∈ modelFields.map YamlKey.str) then
    match Yaml.member? members "name" with
    | none => .error .typeError
    | some name => .ok
        { name
          contextLength := Yaml.get members "context_length" (.int 8192)
          supportsStreaming := Yaml.get members "supports_streaming" (.bool true)
          supportsTools := Yaml.get members "supports_tools" (.bool false)
          supportsVision := Yaml.get members "supports_vision" (.bool false) }
  else .error .typeError

/-- `ModelSpec(name=m) if isinstance(m, str) else ModelSpec(**m)`. -/
def LoadedModel.load : Yaml → Except PyError LoadedModel
  | .key (.scalar (.str s)) => .ok { name := .str s }
  | .map members => LoadedModel.ofKeywords members
  | _ => .error .typeError

def ProviderType.value : ProviderType → String
  | .keyless => "keyless"
  | .apiKey => "api_key"
  | .oauth => "oauth"
  | .custom => "custom"

/-- `ProviderType(v)`. -/
def ProviderType.ofValue (v : Yaml) : Except PyError ProviderType :=
  match [ProviderType.keyless, .apiKey, .oauth, .custom].find? fun t => v.str? = some t.value with
  | some t => .ok t
  | none => .error .valueError

end Noxis
