import Noxis.RegistryBuild
import Noxis.Discovery
import Noxis.HealthMonitor

/-! The built registry: what startup and the admin switches do to it, and the headers that
are sent to its providers. -/
namespace Noxis

/-- `dict[name] = value` on headers. -/
def setHeader (headers : List (String × String)) (h : String × String) : List (String × String) :=
  if headers.any fun other => other.1 = h.1 then
    headers.map fun other => if other.1 = h.1 then h else other
  else headers ++ [h]

/-- `{**headers, **more}`. -/
def mergeHeaders (headers more : List (String × String)) : List (String × String) :=
  more.foldl setHeader headers

namespace LoadedConfig

/-- `_auth_headers`. -/
def authHeaders (c : LoadedConfig) : List (String × String) :=
  match c.apiKey with
  | none => c.extraHeaders
  | some key =>
      if c.requiresApiKey && decide (key ≠ "") then
        setHeader c.extraHeaders ("Authorization", "Bearer " ++ key)
      else c.extraHeaders

/-- The names that `list_models` returns, as keys of a dictionary; `none` where it raises, as
for a base URL that is no text, or where one of them cannot be hashed. -/
def listedNames (lib : Libraries) (c : LoadedConfig) (answer : Except TransportError HttpAnswer) :
    Option (List YamlKey) :=
  if !c.models.isEmpty then c.models.mapM fun m => m.name.hashable.toOption
  else match c.baseUrl.str? with
    | none => none
    | some baseUrl =>
        (listModels lib { providerType := c.providerType, baseUrl, modelsPath := c.modelsPath }
          answer).mapM fun listed => listed.asKey.map YamlKey.scalar

end LoadedConfig

/-- The calls that reach a provider. -/
inductive UpstreamCall where
  | chat | stream | listModels | healthCheck | embeddings
  deriving DecidableEq

/-- The headers of a call. -/
def LoadedProvider.headers (p : LoadedProvider) : UpstreamCall → List (String × String)
  | .chat => mergeHeaders [("Content-Type", "application/json")] p.config.authHeaders
  | .stream => mergeHeaders [("Content-Type", "application/json"), ("Accept", "text/event-stream")]
      p.config.authHeaders
  | .listModels => p.config.authHeaders
  | .healthCheck => p.config.authHeaders
  | .embeddings => mergeHeaders [("Content-Type", "application/json")] p.config.authHeaders

/-- `dict.fromkeys`: the keys in the order in which they are first inserted. -/
def distinctKeys : List YamlKey → List YamlKey → List YamlKey
  | _, [] => []
  | seen, k :: rest =>
      if seen.any (·.sameKey k) then distinctKeys seen rest else k :: distinctKeys (k :: seen) rest

namespace LoadedProvider

def withHealth (p : LoadedProvider) (health : ProviderHealth) : LoadedProvider := { p with health }

/-- One turn of `verify_keyless_providers`; a base URL that is no text raises in the probe. -/
def verify (p : LoadedProvider) (answer : ProbeAnswer) : LoadedProvider :=
  if p.config.providerType ≠ .keyless then p
  else
    let reachable := p.config.baseUrl.str?.isSome && Noxis.healthCheck answer
    p.withHealth (if reachable then .healthy else .unavailable)

/-- One turn of `discover_keyless_models`. -/
def discover (lib : Libraries) (p : LoadedProvider) (answer : Except TransportError HttpAnswer) :
    LoadedProvider :=
  if p.config.providerType ≠ .keyless ∨ p.health = .unavailable then p
  else match p.config.listedNames lib answer with
    | none | some [] => p
    | some names =>
        let models := ((distinctKeys [] names).filter YamlKey.truthy).map fun k => { name := .key k }
        { p with config := { p.config with models } }

end LoadedProvider

namespace LoadedRegistry

def isAdminDisabled (r : LoadedRegistry) (p : LoadedProvider) : Bool :=
  match p.config.name with
  | .scalar (.str name) => decide (name ∈ r.disabledOverrides)
  | _ => false

def enabled (r : LoadedRegistry) : List LoadedProvider :=
  r.providers.filter fun p => p.config.enabled.truthy && !r.isAdminDisabled p

def verifyKeylessProviders (r : LoadedRegistry) (answers : LoadedProvider → ProbeAnswer) :
    LoadedRegistry := { r with providers := r.providers.map fun p => p.verify (answers p) }

def discoverKeylessModels (r : LoadedRegistry) (lib : Libraries)
    (answers : LoadedProvider → Except TransportError HttpAnswer) : LoadedRegistry :=
  { r with providers := r.providers.map fun p => p.discover lib (answers p) }

def setEnabled (r : LoadedRegistry) (name : String) (enabled : Bool) : Bool × LoadedRegistry :=
  if !registered r.providers (.str name) then (false, r)
  else if enabled then (true, { r with disabledOverrides := r.disabledOverrides.erase name })
  else (true, { r with disabledOverrides := insert name r.disabledOverrides })

end LoadedRegistry

/-- The calls that change the registry after it is built. -/
inductive RegistryCall where
  | verifyKeylessProviders (answers : LoadedProvider → ProbeAnswer)
  | discoverKeylessModels (lib : Libraries)
      (answers : LoadedProvider → Except TransportError HttpAnswer)
  | setEnabled (name : String) (enabled : Bool)

def LoadedRegistry.call (r : LoadedRegistry) : RegistryCall → LoadedRegistry
  | .verifyKeylessProviders answers => r.verifyKeylessProviders answers
  | .discoverKeylessModels lib answers => r.discoverKeylessModels lib answers
  | .setEnabled name enabled => (r.setEnabled name enabled).2

def LoadedRegistry.calls (r : LoadedRegistry) (cs : List RegistryCall) : LoadedRegistry :=
  cs.foldl LoadedRegistry.call r

end Noxis
