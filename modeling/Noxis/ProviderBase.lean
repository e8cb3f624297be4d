import Noxis.PythonData

/-! The universal provider interface: configuration, upstream errors and the mutable
runtime state that the breaker and the health monitor keep on each provider object.
A provider is stored under its name, so the name is not a field here. -/
namespace Noxis

inductive ProviderType where
  | keyless | apiKey | oauth | custom
  deriving DecidableEq

inductive ProviderHealth where
  | unknown | checking | healthy | rateLimited | cooldown | unavailable | circuitOpen
  deriving DecidableEq

inductive CircuitState where
  | closed | opened | halfOpen
  deriving DecidableEq

/-- The dataclass checks nothing: discovery stores whatever scalar an `id` holds. -/
abbrev ModelName := Scalar

structure ModelSpec where
  name : ModelName
  contextLength : ℤ := 8192
  supportsStreaming : Bool := true
  supportsTools : Bool := false
  supportsVision : Bool := false
  deriving DecidableEq

/-- Budgets are counts: none is negative. -/
structure RateLimitConfig where
  requestsPerMinute : Option ℕ := none
  requestsPerDay : Option ℕ := none
  maxConcurrency : ℕ := 10
  deriving DecidableEq

structure ProviderConfig where
  providerType : ProviderType
  baseUrl : String
  apiKey : Option String := none
  enabled : Bool := true
  priority : ℤ := 50
  models : List ModelSpec := []
  requiresApiKey : Bool := false
  supportsStreaming : Bool := true
  supportsTools : Bool := false
  supportsVision : Bool := false
  rateLimit : RateLimitConfig := {}
  chatPath : String := "/chat/completions"
  modelsPath : String := "/models"
  extraHeaders : List (String × String) := []
  deriving DecidableEq

/-- The normalized non-streaming result of a provider call. -/
structure ProviderResult where
  raw : Json
  latencyMs : ℚ
  providerName : String

structure ProviderAPIError where
  statusCode : ℕ
  message : String
  retryable : Bool
  retryAfter : Option PyFloat := none
  deriving DecidableEq

def transientStatusCodes : List ℕ := [429, 500, 502, 503, 504]
def terminalProviderStatusCodes : List ℕ := [401, 402, 403, 404]

/-- A provider object: its configuration and its runtime health and circuit state. -/
structure Provider where
  config : ProviderConfig
  health : ProviderHealth := .unknown
  circuitState : CircuitState := .closed
  consecutiveFailures : ℕ := 0
  cooldownUntil : ℚ := 0
  lastChecked : ℚ := 0
  halfOpenCallsInFlight : ℕ := 0
  deriving DecidableEq

namespace Provider

/-- A provider without configured models is unrestricted. -/
def supportsModel (p : Provider) (model : ModelName) : Bool :=
  p.config.models.isEmpty || p.config.models.any (fun m => m.name.pyEq model)

def modelSpec (p : Provider) (model : ModelName) : Option ModelSpec :=
  p.config.models.find? (fun m => m.name.pyEq model)

def withHealth (p : Provider) (health : ProviderHealth) : Provider := { p with health }

@[simp] theorem withHealth_config (p : Provider) (h : ProviderHealth) :
    (p.withHealth h).config = p.config := rfl

@[simp] theorem withHealth_health (p : Provider) (h : ProviderHealth) :
    (p.withHealth h).health = h := rfl

@[simp] theorem withHealth_circuitState (p : Provider) (h : ProviderHealth) :
    (p.withHealth h).circuitState = p.circuitState := rfl

@[simp] theorem withHealth_halfOpenCallsInFlight (p : Provider) (h : ProviderHealth) :
    (p.withHealth h).halfOpenCallsInFlight = p.halfOpenCallsInFlight := rfl

end Provider

/-- Configuration that exists before any request: every provider starts like this. -/
def Provider.fresh (config : ProviderConfig) : Provider := { config }

end Noxis
