import Noxis.Errors
import Noxis.OpenAICompatible

/-! Gateway authentication and the gateway's own rate limit. A header is the text that the
framework makes of its bytes, one Latin-1 character for each, so that a key with a character
outside ASCII differs from what was typed; `hash_key`, the hexadecimal SHA-256 digest of a text,
is a parameter. -/
namespace Noxis

/-- The settings that decide who may call, without prefixes of the environment's names. -/
structure AuthSettings where
  masterKey : Option String := none
  gatewayKeysText : String := ""
  allowUnauthenticated : Bool := false

namespace AuthSettings

/-- The master key goes in as it is; only the comma-separated keys are stripped. -/
def gatewayKeys (s : AuthSettings) : List String :=
  ((s.gatewayKeysText.toList.splitOn ',').map strip).filter (fun k => k ≠ "") ++
    match s.masterKey with
    | none => []
    | some key => if key = "" then [] else [key]

end AuthSettings

/-- No character outside ASCII has a letter of `bearer` or a blank in its lower case, so the
ASCII lower case decides the prefix. -/
def hasBearerPrefix (auth : String) : Bool :=
  (auth.toList.take 7).map Char.toLower = "bearer ".toList

def extractBearerToken (authorization : Option String) : Option String :=
  match authorization with
  | none => none
  | some auth =>
      if auth = "" || !hasBearerPrefix auth then none else some (strip (auth.toList.drop 7))

section hashing
variable (hashKey : String → String) (s : AuthSettings)

namespace KeyAuthenticator

def validHashes : List String := s.gatewayKeys.map hashKey

def isValid (rawKey : String) : Bool :=
  (validHashes hashKey s).any fun h => decide (hashKey rawKey = h)

/-- `hash_key(raw_key)[:12]`. -/
def keyId (rawKey : String) : String := firstChars 12 (hashKey rawKey)

end KeyAuthenticator

def requireAuth (authorization : Option String) : Except NoxisError String :=
  match extractBearerToken authorization with
  | none =>
      if s.allowUnauthenticated then .ok "anonymous"
      else .error (authenticationError "Missing Authorization: Bearer <NOXIS key> header.")
  | some token =>
      if !KeyAuthenticator.isValid hashKey s token then
        .error (authenticationError "Invalid NOXIS API key.")
      else .ok (KeyAuthenticator.keyId hashKey token)

end hashing

/-- One deque of admission times per key id; an id seen for the first time has none. -/
structure GatewayRateLimiter where
  rpm : ℤ
  hits : String → List ℚ := fun _ => []

def GatewayRateLimiter.put (l : GatewayRateLimiter) (keyId : String) (dq : List ℚ) :
    GatewayRateLimiter := { l with hits := Function.update l.hits keyId dq }

/-- Hits leave the deque from the left, up to the first that is not older than a minute. -/
def GatewayRateLimiter.allow (l : GatewayRateLimiter) (now : ℚ) (keyId : String) :
    Bool × GatewayRateLimiter :=
  let dq := (l.hits keyId).dropWhile fun t => now - t > 60
  if l.rpm ≤ dq.length then (false, l.put keyId dq) else (true, l.put keyId (dq ++ [now]))

section endpoints
variable (hashKey : String → String) (s : AuthSettings) (limiter : GatewayRateLimiter) (now : ℚ)
  (authorization : Option String)

def authenticate : Except NoxisError String × GatewayRateLimiter :=
  match requireAuth hashKey s authorization with
  | .error e => (.error e, limiter)
  | .ok keyId =>
      let (allowed, limiter) := limiter.allow now keyId
      if !allowed then
        (.error (rateLimitError "NOXIS gateway rate limit exceeded for this key."), limiter)
      else (.ok keyId, limiter)

/-- Runs after `authenticate`, which it depends on. -/
def requireMaster : Except NoxisError String × GatewayRateLimiter :=
  match authenticate hashKey s limiter now authorization with
  | (.error e, limiter) => (.error e, limiter)
  | (.ok keyId, limiter) =>
      let token := (extractBearerToken authorization).getD ""
      let master := s.masterKey.getD ""
      if master = "" || token = "" || hashKey token ≠ hashKey master then
        (.error (permissionDeniedError "Admin endpoints require the NOXIS master key."), limiter)
      else (.ok keyId, limiter)

variable {hashKey s limiter now authorization}

theorem authenticate_eq_ok {keyId : String} :
    (authenticate hashKey s limiter now authorization).1 = .ok keyId ↔
      requireAuth hashKey s authorization = .ok keyId ∧ (limiter.allow now keyId).1 = true := by
  unfold authenticate
  cases requireAuth hashKey s authorization with
  | error e => simp
  | ok id =>
      by_cases same : id = keyId
      · subst same
        cases admits : (limiter.allow now id).1 <;> simp [admits]
      · cases admits : (limiter.allow now id).1 <;> simp [admits, same]

theorem requireMaster_eq_ok {keyId : String} :
    (requireMaster hashKey s limiter now authorization).1 = .ok keyId ↔
      (authenticate hashKey s limiter now authorization).1 = .ok keyId ∧
        s.masterKey.getD "" ≠ "" ∧ (extractBearerToken authorization).getD "" ≠ "" ∧
        hashKey ((extractBearerToken authorization).getD "") = hashKey (s.masterKey.getD "") := by
  unfold requireMaster
  rcases authenticate hashKey s limiter now authorization with ⟨_ | id, after⟩
  · simp
  · dsimp only
    split_ifs with refused
    · simp only [Bool.or_eq_true, decide_eq_true_eq] at refused
      refine iff_of_false (by simp) ?_
      tauto
    · simp only [Bool.or_eq_true, decide_eq_true_eq, not_or, ne_eq, not_not] at refused
      simp [refused]

end endpoints
end Noxis
