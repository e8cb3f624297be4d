import Noxis.ProvidersFile

/-! How the registry is built: the built-in keyless providers that the settings switch on,
and then the entries of the providers file. -/
namespace Noxis

/-- The settings that the registry reads, with their defaults. -/
structure Settings where
  providersConfigPath : String := "providers.yaml"
  pollinationsEnabled : Bool := true
  pollinationsBaseUrl : String := "https://text.pollinations.ai"
  keylessaiEnabled : Bool := true
  keylessaiBaseUrl : String := "https://keylessai.thryx.workers.dev/v1"
  llm7Enabled : Bool := false
  llm7BaseUrl : String := "https://api.llm7.io/v1"
  devtoolboxEnabled : Bool := false
  devtoolboxBaseUrl : String := ""
  inferenceportEnabled : Bool := false
  inferenceportBaseUrl : String := ""

/-- A provider configuration as it is built: what comes from the file has any value. -/
structure LoadedConfig where
  name : YamlKey
  providerType : ProviderType
  baseUrl : Yaml
  apiKey : Option String := none
  enabled : Yaml := .bool true
  priority : Yaml := .int 50
  models : List LoadedModel := []
  requiresApiKey : Bool := false
  supportsStreaming : Yaml := .bool true
  supportsTools : Yaml := .bool false
  supportsVision : Yaml := .bool false
  rateLimit : RateLimitConfig := {}
  chatPath : String := "/chat/completions"
  modelsPath : String := "/models"
  extraHeaders : List (String × String) := []

structure LoadedProvider where
  config : LoadedConfig
  health : ProviderHealth := .unknown

structure BuiltinSpec where
  name : String
  priority : ℤ
  baseUrl : String
  chatPath : String := "/chat/completions"
  modelsPath : String := "/models"
  models : List String := []

def builtinKeylessProviders : List BuiltinSpec :=
  [{ name := "pollinations", priority := 10, baseUrl := "https://text.pollinations.ai",
     chatPath := "/openai" },
    { name := "keylessai", priority := 20, baseUrl := "https://keylessai.thryx.workers.dev/v1" },
    { name := "llm7", priority := 30, baseUrl := "https://api.llm7.io/v1" },
    { name := "devtoolbox", priority := 40, baseUrl := "" },
    { name := "inferenceport", priority := 50, baseUrl := "" }]

namespace Settings

def enabledMap (s : Settings) : List (String × Bool × String) :=
  [("pollinations", s.pollinationsEnabled, s.pollinationsBaseUrl),
    ("keylessai", s.keylessaiEnabled, s.keylessaiBaseUrl),
    ("llm7", s.llm7Enabled, s.llm7BaseUrl),
    ("devtoolbox", s.devtoolboxEnabled, s.devtoolboxBaseUrl),
    ("inferenceport", s.inferenceportEnabled, s.inferenceportBaseUrl)]

/-- One turn of the loop over the built-in table; every name of the table is in the map. -/
def builtinProvider (s : Settings) (spec : BuiltinSpec) : Option LoadedProvider :=
  match s.enabledMap.lookup spec.name with
  | none => none
  | some (enabled, baseUrl) =>
      if !enabled || baseUrl = "" then none
      else some { config :=
        { name := .str spec.name
          providerType := .keyless
          baseUrl := .str baseUrl
          priority := .int spec.priority
          models := spec.models.map fun name => { name := .str name }
          chatPath := spec.chatPath
          modelsPath := spec.modelsPath
          rateLimit := { requestsPerMinute := some 20, maxConcurrency := 5 } } }

/-- The credentialed table is not looked at. -/
def buildApiKeyProviders (_ : Settings) : List LoadedProvider := []

def buildKeylessProviders (s : Settings) : List LoadedProvider :=
  builtinKeylessProviders.filterMap s.builtinProvider

end Settings

/-- The file at the configured path: absent, refused by the parser (which is caught), or read. -/
inductive ConfigFile where
  | missing
  | unparsed
  | parsed (data : Yaml)

/-- `name in self.providers`. -/
def registered (providers : List LoadedProvider) (name : YamlKey) : Bool :=
  providers.any fun p => p.config.name.sameKey name

/-- The configuration of an entry. The key variables are never set, so no entry has a key. -/
def loadConfig (name : YamlKey) (type : ProviderType) (members : List (YamlKey × Yaml)) :
    Except PyError LoadedConfig := do
  let baseUrl ← Yaml.subscript members "base_url"
  let items ← (Yaml.get members "models" (.seq [])).iterate
  let models ← items.mapM LoadedModel.load
  return {
    name, providerType := type, baseUrl, models
    enabled := Yaml.get members "enabled" (.bool true)
    priority := Yaml.get members "priority" (.int 50)
    supportsStreaming := Yaml.get members "supports_streaming" (.bool true)
    supportsTools := Yaml.get members "supports_tools" (.bool false)
    supportsVision := Yaml.get members "supports_vision" (.bool false) }

/-- One turn of the loop over the entries. -/
def loadEntry (providers : List LoadedProvider) : Yaml → Except PyError (List LoadedProvider)
  | .map members => do
      let name ← (← Yaml.subscript members "name").hashable
      -- an earlier provider of the name takes precedence
      if registered providers name then return providers
      let type ← ProviderType.ofValue (Yaml.get members "type" (.str "custom"))
      if type ≠ .keyless then return providers
      let config ← loadConfig name type members
      if !config.enabled.truthy then return providers
      return providers ++ [{ config }]
  | _ => .error .typeError

theorem loadConfig_ok {name : YamlKey} {type : ProviderType} {members : List (YamlKey × Yaml)}
    {config : LoadedConfig} (loaded : loadConfig name type members = .ok config) :
    ∃ baseUrl items models, Yaml.member? members "base_url" = some baseUrl ∧
      (Yaml.get members "models" (.seq [])).iterate = .ok items ∧
      items.mapM LoadedModel.load = .ok models ∧
      config = {
        name, providerType := type, baseUrl, models
        enabled := Yaml.get members "enabled" (.bool true)
        priority := Yaml.get members "priority" (.int 50)
        supportsStreaming := Yaml.get members "supports_streaming" (.bool true)
        supportsTools := Yaml.get members "supports_tools" (.bool false)
        supportsVision := Yaml.get members "supports_vision" (.bool false) } := by
  obtain ⟨baseUrl, found, loaded⟩ := bind_eq_ok.mp loaded
  obtain ⟨items, listed, loaded⟩ := bind_eq_ok.mp loaded
  obtain ⟨models, read, loaded⟩ := bind_eq_ok.mp loaded
  exact ⟨baseUrl, items, models, Yaml.subscript_eq_ok.mp found, listed, read,
    (Except.ok.inj loaded).symm⟩

/-- What a turn of the loop that raises nothing does. -/
theorem loadEntry_ok {providers providers' : List LoadedProvider} {entry : Yaml}
    (loaded : loadEntry providers entry = .ok providers') :
    ∃ members name, entry = .map members ∧ Yaml.member? members "name" = some (.key name) ∧
      ((registered providers name = true ∧ providers' = providers) ∨
        ∃ type, registered providers name = false ∧
          ProviderType.ofValue (Yaml.get members "type" (.str "custom")) = .ok type ∧
          ((type ≠ .keyless ∧ providers' = providers) ∨
            ∃ config, type = .keyless ∧ loadConfig name type members = .ok config ∧
              ((config.enabled.truthy = false ∧ providers' = providers) ∨
                (config.enabled.truthy = true ∧ providers' = providers ++ [⟨config, .unknown⟩])))) := by
  cases entry with
  | key k => cases loaded
  | seq items => cases loaded
  | set ks => cases loaded
  | map members =>
      obtain ⟨v, found, hashes⟩ := bind_eq_ok.mp loaded
      obtain ⟨name, hashed, added⟩ := bind_eq_ok.mp hashes
      obtain rfl := Yaml.hashable_eq_ok.mp hashed
      refine ⟨members, name, rfl, Yaml.subscript_eq_ok.mp found, ?_⟩
      cases taken : registered providers name with
      | true =>
          rw [if_pos taken] at added
          exact .inl ⟨rfl, (Except.ok.inj added).symm⟩
      | false =>
          rw [if_neg (by simp [taken])] at added
          obtain ⟨type, typed, added⟩ := bind_eq_ok.mp added
          refine .inr ⟨type, rfl, typed, ?_⟩
          by_cases keyless : type = .keyless
          · rw [if_neg (not_not.mpr keyless)] at added
            obtain ⟨config, configured, added⟩ := bind_eq_ok.mp added
            refine .inr ⟨config, keyless, configured, ?_⟩
            cases on : config.enabled.truthy with
            | true =>
                rw [on] at added
                exact .inr ⟨rfl, (Except.ok.inj added).symm⟩
            | false =>
                rw [on] at added
                exact .inl ⟨rfl, (Except.ok.inj added).symm⟩
          · rw [if_pos keyless] at added
            exact .inl ⟨keyless, (Except.ok.inj added).symm⟩

def loadEntries : List LoadedProvider → List Yaml → Except PyError (List LoadedProvider)
  | providers, [] => .ok providers
  | providers, entry :: rest => do loadEntries (← loadEntry providers entry) rest

theorem loadEntries_invariant (P : List LoadedProvider → Prop)
    (turn : ∀ providers entry providers', P providers →
      loadEntry providers entry = .ok providers' → P providers')
    {entries : List Yaml} {providers providers' : List LoadedProvider} (base : P providers)
    (loaded : loadEntries providers entries = .ok providers') : P providers' := by
  induction entries generalizing providers with
  | nil =>
      obtain rfl := Except.ok.inj loaded
      exact base
  | cons entry rest ih =>
      obtain ⟨next, first, later⟩ := bind_eq_ok.mp loaded
      exact ih (turn _ _ _ base first) later

/-- The entries that the loop goes through; an empty document counts as an empty mapping. -/
def ConfigFile.entries : ConfigFile → Except PyError (List Yaml)
  | .missing | .unparsed => .ok []
  | .parsed data =>
      if !data.truthy then .ok []
      else match data with
        | .map members => (Yaml.get members "providers" (.seq [])).iterate
        | _ => .error .attributeError

def buildFromYaml (providers : List LoadedProvider) (file : ConfigFile) :
    Except PyError (List LoadedProvider) := do
  loadEntries providers (← file.entries)

structure LoadedRegistry where
  providers : List LoadedProvider
  disabledOverrides : Finset String := ∅

/-- `build`; an exception of the loop over the file leaves it. -/
def build (s : Settings) (files : String → ConfigFile) : Except PyError LoadedRegistry := do
  let providers ← buildFromYaml (s.buildApiKeyProviders ++ s.buildKeylessProviders)
    (files s.providersConfigPath)
  return { providers }

theorem build_ok {s : Settings} {files : String → ConfigFile} {r : LoadedRegistry}
    (built : build s files = .ok r) :
    ∃ entries, (files s.providersConfigPath).entries = .ok entries ∧
      loadEntries s.buildKeylessProviders entries = .ok r.providers ∧ r.disabledOverrides = ∅ := by
  obtain ⟨providers, loaded, wrapped⟩ := bind_eq_ok.mp built
  obtain ⟨entries, listed, gone⟩ := bind_eq_ok.mp loaded
  obtain rfl := Except.ok.inj wrapped
  exact ⟨entries, listed, gone, rfl⟩

/-! Small files, whose providers can be written down. -/
namespace Demo

def noBuiltins : Settings := { pollinationsEnabled := false, keylessaiEnabled := false }

def exampleUrl : String := "https://llm.example.org/v1"

def yamlEntry (name baseUrl : String) (priority : Yaml) : Yaml :=
  .map [(.str "name", .str name), (.str "type", .str "keyless"), (.str "base_url", .str baseUrl),
    (.str "priority", priority), (.str "models", .seq [.str "m"])]

def yamlFile (entries : List Yaml) : String → ConfigFile := fun _ =>
  .parsed (.map [(.str "providers", .seq entries)])

def yamlProvider (name baseUrl : String) (priority : Yaml) (health : ProviderHealth) :
    LoadedProvider :=
  { config := { name := .str name, providerType := .keyless, baseUrl := .str baseUrl, priority,
                models := [{ name := .str "m" }] }
    health }

end Demo

end Noxis
