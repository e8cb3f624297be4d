import Noxis.Gateway
import Noxis.ProvidersFile
import Noxis.Library.Tally

/-! The open endpoints that report on the providers. The listing for clients takes a snapshot of
every usage window, and a snapshot trims; the other reports only read. -/
namespace Noxis

def ProviderHealth.value : ProviderHealth → String
  | .unknown => "unknown"
  | .checking => "checking"
  | .healthy => "healthy"
  | .rateLimited => "rate_limited"
  | .cooldown => "cooldown"
  | .unavailable => "unavailable"
  | .circuitOpen => "circuit_open"

def CircuitState.value : CircuitState → String
  | .closed => "closed"
  | .opened => "open"
  | .halfOpen => "half_open"

/-- The body of `/health`. -/
structure HealthReport where
  status : String
  providersTotal : ℕ
  providersHealthy : ℕ
  deriving DecidableEq

/-- One entry of `/v1/providers`. -/
structure ProviderEntry where
  name : String
  freeKeyless : Bool
  type : String
  auth : String
  enabled : Bool
  health : String
  circuitState : String
  priority : ℤ
  models : List ModelName
  supportsStreaming : Bool
  supportsTools : Bool
  supportsVision : Bool
  rateLimit : UsageSnapshot

namespace AppState

variable (s : AppState)

/-- `p.config.enabled and not registry.is_admin_disabled(p.name)`. -/
def reportsEnabled (name : String) : Bool :=
  (s.provider name).config.enabled && !s.registry.isAdminDisabled name

def health : HealthReport :=
  let providers := s.registry.all
  let healthy := providers.filter fun name => (s.provider name).health.value = "healthy"
  { status := if healthy.isEmpty then "degraded" else "ok"
    providersTotal := providers.length
    providersHealthy := healthy.length }

def providerEntry (name : String) (rateLimit : UsageSnapshot) : ProviderEntry :=
  let p := s.provider name
  { name
    freeKeyless := decide (p.config.providerType.value = "keyless") && !p.config.requiresApiKey
    type := p.config.providerType.value
    auth := if p.config.requiresApiKey then "required" else "none"
    enabled := s.reportsEnabled name
    health := p.health.value
    circuitState := p.circuitState.value
    priority := p.config.priority
    models := p.config.models.map ModelSpec.name
    supportsStreaming := p.config.supportsStreaming
    supportsTools := p.config.supportsTools
    supportsVision := p.config.supportsVision
    rateLimit }

/-- The loop of `providers_list`. -/
def providersLoop (s : AppState) : List String → List ProviderEntry × AppState
  | [] => ([], s)
  | name :: rest =>
      let (rateLimit, rateLimiter) := s.rateLimiter.snapshot s.now name
      let (out, s') := providersLoop { s with rateLimiter } rest
      (s.providerEntry name rateLimit :: out, s')

def providersList : List ProviderEntry × AppState := s.providersLoop s.registry.all

/-- `providers_by_health` of `/v1/status`. -/
def providersByHealth : List (String × ℕ) :=
  Tally.tally (s.registry.all.map fun name => (s.provider name).health.value)

end AppState
end Noxis
