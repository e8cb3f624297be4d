import Noxis.OpenAICompatible
import Noxis.Library.GreedyPattern

/-! Structured logging: the redaction patterns, `redact`, and the line that
`JsonFormatter` writes. -/
namespace Noxis
open GreedyPattern

/-- `re.IGNORECASE` on texts: besides the other case, U+0130 and U+0131 count as an i,
U+017F as an s and U+212A as a k. -/
def foldCase (c : Char) : Char :=
  if c.toNat = 0x130 ∨ c.toNat = 0x131 then 'i'
  else if c.toNat = 0x17F then 's'
  else if c.toNat = 0x212A then 'k'
  else c.toLower

def letter (c : Char) : Char → Bool := fun x => foldCase x == c

def isTokenChar (c : Char) : Bool :=
  let c := foldCase c
  c.isLower || c.isDigit || c == '-' || c == '_' || c == '.' || c == '='

def isAsciiAlnum (c : Char) : Bool := c.isAlpha || c.isDigit

def isKeySeparator (c : Char) : Bool := c == ':' || c == '='
def isQuote (c : Char) : Bool := c == '\"'

def bearerWord : List Char := ['b', 'e', 'a', 'r', 'e', 'r']

/-- `(Bearer\s+)[A-Za-z0-9\-_\.=]+`, case-insensitive. -/
def bearerPattern : Pattern Char where
  lead := bearerWord.map (fun c => .one (letter c)) ++ [.one isPySpace, .many isPySpace]
  body := isTokenChar
  least := 1
  keepsBody := false
  positive := by decide

/-- `(sk-[A-Za-z0-9]{10,})`. The group holds the whole match. -/
def skPattern : Pattern Char where
  lead := [.one (· == 's'), .one (· == 'k'), .one (· == '-')]
  body := isAsciiAlnum
  least := 10
  keepsBody := true
  positive := by decide

/-- `(api[_-]?key\"?\s*[:=]\s*\"?)[A-Za-z0-9\-_\.=]{8,}`, case-insensitive. -/
def apiKeyPattern : Pattern Char where
  lead := [.one (letter 'a'), .one (letter 'p'), .one (letter 'i'), .opt (fun c => c == '_' || c == '-'),
    .one (letter 'k'), .one (letter 'e'), .one (letter 'y'), .opt isQuote, .many isPySpace,
    .one isKeySeparator, .many isPySpace, .opt isQuote]
  body := isTokenChar
  least := 8
  keepsBody := false
  positive := by decide

def redactPatterns : List (Pattern Char) := [bearerPattern, skPattern, apiKeyPattern]

def redactMark : List Char := "***REDACTED***".toList

/-- Every pattern has a group, so each replacement is the group and the mark. -/
def redactChars (t : List Char) : List Char :=
  redactPatterns.foldl (fun redacted pat => pat.sub redactMark redacted) t

def redactText (s : String) : String := String.ofList (redactChars s.toList)

def sensitiveKeys : List String :=
  ["authorization", "api_key", "apikey", "x-api-key", "noxis_master_key", "password", "secret",
    "token", "key"]

/-- `str(k).lower() in _SENSITIVE_KEYS`: no text with another non-ASCII character than the
Kelvin sign is lowered to an ASCII one. -/
def isSensitiveKey (k : String) : Bool :=
  decide (String.ofList (k.toList.map fun c => if c.toNat = 0x212A then 'k' else c.toLower) ∈
    sensitiveKeys)

mutual

def redact : Json → Json
  | .scalar (.str s) => .str (redactText s)
  | .scalar v => .scalar v
  | .arr items => .arr (redactItems items)
  | .obj members => .obj (redactMembers members)

def redactItems : List Json → List Json
  | [] => []
  | v :: rest => redact v :: redactItems rest

def redactMembers : List (String × Json) → List (String × Json)
  | [] => []
  | (k, v) :: rest =>
      (k, if isSensitiveKey k then .str (String.ofList redactMark) else redact v) ::
        redactMembers rest

end

/-- `d[name] = value`: the place of a member that exists is kept. -/
def Json.setMember (members : List (String × Json)) (name : String) (value : Json) :
    List (String × Json) :=
  if members.any (fun m => m.1 = name) then
    members.map fun m => if m.1 = name then (name, value) else m
  else members ++ [(name, value)]

/-- `d.update(other)`. -/
def Json.update (members other : List (String × Json)) : List (String × Json) :=
  other.foldl (fun d m => Json.setMember d m.1 m.2) members

/-- A record as the formatter reads it: the formatted message, the `extra_fields` where the
record has them, and the text of the exception where there is one. -/
structure LogRecord where
  levelname : String
  name : String
  message : String
  extraFields : Option (List (String × Json)) := none
  excInfo : Option String := none

namespace LogRecord

def payload (r : LogRecord) : List (String × Json) :=
  let payload := [("level", .str r.levelname), ("logger", .str r.name),
    ("message", .str (redactText r.message))]
  let payload := match r.extraFields with
    | none => payload
    | some extra => if extra.isEmpty then payload else Json.update payload (redactMembers extra)
  match r.excInfo with
  | none => payload
  | some error => Json.setMember payload "error" (.str (redactText error))

/-- `JsonFormatter.format`, over `json.dumps`. -/
def format (dumps : Json → String) (r : LogRecord) : String := dumps (.obj r.payload)

end LogRecord

end Noxis
