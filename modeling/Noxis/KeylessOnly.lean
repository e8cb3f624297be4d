import Noxis.LoadedRouter

/-! The gateway is keyless: no configuration, whatever the settings and the file hold,
registers a credentialed provider, and ranking gives the aliases the same providers. -/
namespace Noxis

/-- A configuration without a credential of any kind. -/
structure LoadedConfig.Keyless (c : LoadedConfig) : Prop where
  providerType : c.providerType = .keyless
  apiKey : c.apiKey = none
  requiresApiKey : c.requiresApiKey = false
  extraHeaders : c.extraHeaders = []

def LoadedRegistry.Keyless (r : LoadedRegistry) : Prop := ∀ p ∈ r.providers, p.config.Keyless

section build

theorem builtinProvider_keyless {s : Settings} {spec : BuiltinSpec} {p : LoadedProvider}
    (on : s.builtinProvider spec = some p) : p.config.Keyless := by
  unfold Settings.builtinProvider at on
  split at on
  · cases on
  · split at on
    · cases on
    · obtain rfl := Option.some.inj on
      exact ⟨rfl, rfl, rfl, rfl⟩

theorem loadConfig_keyless {name : YamlKey} {members : List (YamlKey × Yaml)} {c : LoadedConfig}
    (loaded : loadConfig name .keyless members = .ok c) : c.Keyless := by
  obtain ⟨baseUrl, items, models, -, -, -, rfl⟩ := loadConfig_ok loaded
  exact ⟨rfl, rfl, rfl, rfl⟩

/-- An entry adds nothing, or a keyless provider. -/
theorem loadEntry_keyless {providers providers' : List LoadedProvider} {entry : Yaml}
    (before : ∀ p ∈ providers, p.config.Keyless)
    (loaded : loadEntry providers entry = .ok providers') : ∀ p ∈ providers', p.config.Keyless := by
  obtain ⟨members, name, -, -, ⟨-, rfl⟩ | ⟨type, -, -, ⟨-, rfl⟩ | ⟨c, rfl, configured, added⟩⟩⟩ :=
    loadEntry_ok loaded
  · exact before
  · exact before
  · rcases added with ⟨-, rfl⟩ | ⟨-, rfl⟩
    · exact before
    · intro p member
      rcases List.mem_append.mp member with member | member
      · exact before p member
      · obtain rfl := List.mem_singleton.mp member
        exact loadConfig_keyless configured

theorem build_keyless {s : Settings} {files : String → ConfigFile} {r : LoadedRegistry}
    (built : build s files = .ok r) : r.Keyless := by
  obtain ⟨entries, -, loaded, -⟩ := build_ok built
  refine loadEntries_invariant (fun providers => ∀ p ∈ providers, p.config.Keyless)
    (fun _ _ _ before turn => loadEntry_keyless before turn) ?_ loaded
  intro p member
  obtain ⟨spec, -, on⟩ := List.mem_filterMap.mp member
  exact builtinProvider_keyless on

end build

section calls

theorem LoadedProvider.verify_config (p : LoadedProvider) (answer : ProbeAnswer) :
    (p.verify answer).config = p.config := by
  unfold verify
  split <;> rfl

/-- Discovery replaces the models and nothing else. -/
theorem LoadedProvider.discover_config (lib : Libraries) (p : LoadedProvider)
    (answer : Except TransportError HttpAnswer) :
    ∃ models, (p.discover lib answer).config = { p.config with models } := by
  unfold discover
  split
  · exact ⟨p.config.models, rfl⟩
  · split
    · exact ⟨p.config.models, rfl⟩
    · exact ⟨p.config.models, rfl⟩
    · exact ⟨_, rfl⟩

theorem LoadedRegistry.setEnabled_providers (r : LoadedRegistry) (name : String) (enabled : Bool) :
    (r.setEnabled name enabled).2.providers = r.providers := by
  unfold setEnabled
  split_ifs <;> rfl

theorem LoadedRegistry.call_keyless {r : LoadedRegistry} (before : r.Keyless) (c : RegistryCall) :
    (r.call c).Keyless := by
  intro p member
  cases c with
  | verifyKeylessProviders answers =>
      obtain ⟨q, known, rfl⟩ := List.mem_map.mp member
      rw [LoadedProvider.verify_config]
      exact before q known
  | discoverKeylessModels lib answers =>
      obtain ⟨q, known, rfl⟩ := List.mem_map.mp member
      obtain ⟨models, eq⟩ := q.discover_config lib (answers q)
      have keyless := before q known
      rw [eq]
      exact ⟨keyless.providerType, keyless.apiKey, keyless.requiresApiKey, keyless.extraHeaders⟩
  | setEnabled name enabled =>
      have same : (r.call (.setEnabled name enabled)).providers = r.providers :=
        r.setEnabled_providers name enabled
      exact before p (same ▸ member)

theorem LoadedRegistry.calls_keyless {r : LoadedRegistry} (before : r.Keyless)
    (cs : List RegistryCall) : (r.calls cs).Keyless := by
  induction cs generalizing r with
  | nil => exact before
  | cons c rest ih => exact ih (call_keyless before c)

end calls

/-- Header names compare without case. -/
def namesAuthorization (h : String × String) : Bool :=
  h.1.toList.map Char.toLower = "authorization".toList

theorem LoadedConfig.Keyless.authHeaders {c : LoadedConfig} (keyless : c.Keyless) :
    c.authHeaders = [] := by
  rw [LoadedConfig.authHeaders, keyless.apiKey, keyless.extraHeaders]

theorem LoadedProvider.headers_keyless {p : LoadedProvider} (keyless : p.config.Keyless)
    (call : UpstreamCall) : ∀ h ∈ p.headers call, namesAuthorization h = false := by
  cases call <;> rw [headers, keyless.authHeaders] <;> decide

section ranking

variable {ops : Operators} {r : LoadedRegistry} {readings : LoadedProvider → Readings}
  {request : ChatCompletionRequest}

theorem sortedByPriority_mem {l sorted : List LoadedProvider}
    (eq : ops.sortedByPriority l = some sorted) {p : LoadedProvider} (member : p ∈ sorted) : p ∈ l := by
  unfold Operators.sortedByPriority at eq
  split at eq
  · obtain rfl := Option.some.inj eq
    exact (List.mem_insertionSort _).mp member
  · obtain ⟨order, -, rfl⟩ := Option.map_eq_some_iff.mp eq
    obtain ⟨i, -, found⟩ := List.mem_filterMap.mp member
    exact List.mem_of_getElem? found

theorem candidates_mem {model : ModelName} {l : List LoadedProvider}
    (eq : r.candidates ops model = some l) {p : LoadedProvider} (member : p ∈ l) : p ∈ r.enabled := by
  unfold LoadedRegistry.candidates at eq
  dsimp only at eq
  split at eq
  · obtain rfl := Option.some.inj eq
    exact List.mem_of_mem_filter member
  · split at eq
    · obtain rfl := Option.some.inj eq
      exact member
    · split at eq
      · exact sortedByPriority_mem eq member
      · split at eq
        · obtain rfl := Option.some.inj eq
          split at member
          · exact member
          · exact List.mem_of_mem_filter member
        · obtain rfl := Option.some.inj eq
          exact List.mem_of_mem_filter member

theorem decision_provider {eligible : List LoadedProvider} {p : LoadedProvider} {d : LoadedDecision}
    (eq : LoadedRegistry.decision ops readings request eligible p = some d) : d.provider = p := by
  obtain ⟨share, -, eq⟩ := Option.bind_eq_some_iff.mp eq
  obtain ⟨model, -, eq⟩ := Option.bind_eq_some_iff.mp eq
  obtain rfl := Option.some.inj eq
  rfl

/-- Whatever the operators do, a decision is for an enabled provider of the registry. -/
theorem rank_mem {ds : List LoadedDecision} (ranked : r.rank ops readings request = some ds)
    {d : LoadedDecision} (member : d ∈ ds) : d.provider ∈ r.enabled := by
  obtain ⟨candidates, chosen, ranked⟩ := Option.bind_eq_some_iff.mp ranked
  obtain ⟨eligible, kept, ranked⟩ := Option.bind_eq_some_iff.mp ranked
  obtain ⟨decisions, decided, ranked⟩ := Option.bind_eq_some_iff.mp ranked
  obtain rfl := Option.some.inj ranked
  obtain ⟨p, isEligible, eq⟩ :=
    PartialList.mem_of_mapM decided ((List.mem_insertionSort _).mp member)
  rw [decision_provider eq]
  exact candidates_mem chosen (PartialList.mem_of_keepM kept isEligible)

end ranking

/-- The priorities of the enabled providers are numbers, as the field is declared. -/
def NumericPriorities (r : LoadedRegistry) : Prop :=
  ∀ p ∈ r.enabled, p.config.priority.number?.isSome

section aliases

variable {ops : Operators} {r : LoadedRegistry} {readings : LoadedProvider → Readings}

theorem enabled_keyless (keyless : r.Keyless) {p : LoadedProvider} (member : p ∈ r.enabled) :
    p.config.providerType = .keyless :=
  (keyless p (List.mem_of_mem_filter member)).providerType

variable (ops) in
/-- Every alias considers the enabled providers, in some order. -/
theorem candidates_alias (keyless : r.Keyless) (numeric : NumericPriorities r) {model : ModelName}
    (listed : model ∈ noxisAliases) : ∃ l, r.candidates ops model = some l ∧ l.Perm r.enabled := by
  have free : r.enabled.filter (fun p => decide (p.config.providerType = .keyless)) = r.enabled :=
    List.filter_eq_self.mpr fun p member => decide_eq_true (enabled_keyless keyless member)
  have credentialed : r.enabled.filter (fun p => decide (p.config.providerType = .apiKey)) = [] := by
    refine List.filter_eq_nil_iff.mpr fun p member => ?_
    rw [enabled_keyless keyless member]
    decide
  have fast : ops.sortedByPriority r.enabled = some (r.enabled.insertionSort
      fun p q => p.config.priority.value ≤ q.config.priority.value) := by
    rw [Operators.sortedByPriority, if_pos (List.all_eq_true.mpr numeric)]
  simp only [noxisAliases, List.mem_cons, List.not_mem_nil, or_false] at listed
  rcases listed with rfl | rfl | rfl | rfl
  · exact ⟨r.enabled, by simp [LoadedRegistry.candidates], .refl _⟩
  · exact ⟨_, by simpa [LoadedRegistry.candidates] using fast, List.perm_insertionSort _ _⟩
  · exact ⟨r.enabled, by simp [LoadedRegistry.candidates, credentialed], .refl _⟩
  · exact ⟨r.enabled, by simp [LoadedRegistry.candidates, free], .refl _⟩

theorem resolveModel_alias {model : ModelName} (listed : model ∈ noxisAliases) (p : LoadedProvider) :
    p.resolveModel model = p.config.models.head?.map LoadedModel.name := by
  rw [LoadedProvider.resolveModel, isAlias, if_pos (decide_eq_true listed)]

variable (request : ChatCompletionRequest) {a b : ModelName}

theorem passesFilters_alias (first : a ∈ noxisAliases) (second : b ∈ noxisAliases) :
    r.passesFilters ops readings (request.withModel a) =
      r.passesFilters ops readings (request.withModel b) := by
  funext p
  have same : p.resolveModel (request.withModel a).model =
      p.resolveModel (request.withModel b).model := by
    rw [ChatCompletionRequest.withModel, ChatCompletionRequest.withModel, resolveModel_alias first,
      resolveModel_alias second]
  rw [LoadedRegistry.passesFilters, LoadedRegistry.passesFilters, same]
  rfl

variable (ops readings) in
/-- A decision depends on the eligible providers through their priorities, not their order. -/
theorem decision_alias (first : a ∈ noxisAliases) (second : b ∈ noxisAliases)
    {l l' : List LoadedProvider} (perm : l.Perm l')
    (numeric : ∀ q ∈ l, q.config.priority.number?.isSome) {p : LoadedProvider} (member : p ∈ l) :
    LoadedRegistry.decision ops readings (request.withModel a) l p =
      LoadedRegistry.decision ops readings (request.withModel b) l' p := by
  have same : p.resolveModel (request.withModel a).model =
      p.resolveModel (request.withModel b).model := by
    rw [ChatCompletionRequest.withModel, ChatCompletionRequest.withModel, resolveModel_alias first,
      resolveModel_alias second]
  have scores : p.priorityScore ops l = p.priorityScore ops l' := by
    obtain ⟨lo, hi, least, greatest, eq⟩ := p.priorityScore_numbers ops member numeric
    obtain ⟨lo', hi', least', greatest', eq'⟩ := p.priorityScore_numbers ops
      (perm.mem_iff.mp member) fun q known => numeric q (perm.mem_iff.mpr known)
    have values : priorities l = priorities l' := by
      simp only [priorities, perm.mem_iff]
    rw [← values] at least' greatest'
    rw [eq, eq', least.unique least', greatest.unique greatest']
  rw [LoadedRegistry.decision, LoadedRegistry.decision, same, scores]
  rfl

/-- On numeric priorities the aliases get the same decisions, or all raise. -/
theorem rank_alias (keyless : r.Keyless) (numeric : NumericPriorities r)
    (first : a ∈ noxisAliases) (second : b ∈ noxisAliases) :
    PartialList.SameElements (r.rank ops readings (request.withModel a))
      (r.rank ops readings (request.withModel b)) := by
  obtain ⟨l, chosen, perm⟩ := candidates_alias ops keyless numeric first
  obtain ⟨l', chosen', perm'⟩ := candidates_alias ops keyless numeric second
  have candidates : PartialList.SameElements (r.candidates ops (request.withModel a).model)
      (r.candidates ops (request.withModel b).model) := by
    rw [ChatCompletionRequest.withModel, ChatCompletionRequest.withModel, chosen, chosen']
    exact perm.trans perm'.symm
  refine candidates.bind fun cs cs' found _ same => ?_
  have kept := PartialList.keepM_perm same (r.passesFilters ops readings (request.withModel a))
  rw [passesFilters_alias request first second] at kept ⊢
  refine kept.bind fun eligible eligible' isKept _ samePart => ?_
  have numbers : ∀ q ∈ eligible, q.config.priority.number?.isSome := fun q member =>
    numeric q (candidates_mem found (PartialList.mem_of_keepM isKept member))
  have decided := PartialList.mapM_perm samePart
    (LoadedRegistry.decision ops readings (request.withModel b) eligible')
  rw [← PartialList.mapM_congr fun p member =>
    decision_alias ops readings request first second samePart numbers member]
    at decided
  refine decided.bind fun ds ds' _ _ samePerm => ?_
  exact (List.perm_insertionSort _ ds).trans (samePerm.trans (List.perm_insertionSort _ ds').symm)

end aliases

/-- Two requests that differ in their alias get the same decisions, or raise both. -/
def AliasesAgree (r : LoadedRegistry) : Prop :=
  ∀ (ops : Operators) (readings : LoadedProvider → Readings) (request : ChatCompletionRequest)
    (a b : ModelName), a ∈ noxisAliases → b ∈ noxisAliases →
    PartialList.SameElements (r.rank ops readings (request.withModel a))
      (r.rank ops readings (request.withModel b))

/-- No credential is registered, sent or ranked. -/
structure CredentialFree (r : LoadedRegistry) : Prop where
  providers : r.Keyless
  headers : ∀ p ∈ r.providers, ∀ call, ∀ h ∈ p.headers call, namesAuthorization h = false
  decisions : ∀ ops readings request ds, r.rank ops readings request = some ds →
    ∀ d ∈ ds, d.provider ∈ r.providers ∧ d.provider.config.providerType = .keyless

/-- Whatever was configured and whatever happened since, the gateway is keyless, and its
aliases agree as long as the priorities of the enabled providers are numbers. -/
theorem keyless_gateway (s : Settings) (files : String → ConfigFile) (r : LoadedRegistry)
    (built : build s files = .ok r) (cs : List RegistryCall) :
    CredentialFree (r.calls cs) ∧ (NumericPriorities (r.calls cs) → AliasesAgree (r.calls cs)) := by
  have keyless : (r.calls cs).Keyless := LoadedRegistry.calls_keyless (build_keyless built) cs
  refine ⟨⟨keyless, ?_, ?_⟩, ?_⟩
  · intro p member call
    exact p.headers_keyless (keyless p member) call
  · intro ops readings request ds ranked d member
    have enabled := rank_mem ranked member
    exact ⟨List.mem_of_mem_filter enabled, enabled_keyless keyless enabled⟩
  · intro numeric ops readings request a b first second
    exact rank_alias request keyless numeric first second

namespace Demo

/-- The first provider answers the verification, the others do not. -/
def onlyAnswers (name : String) : LoadedProvider → ProbeAnswer := fun p =>
  if p.config.name = .str name then .status 200 else .exception

theorem build_two (priority priority' : Yaml) :
    build noBuiltins (yamlFile [yamlEntry "a" exampleUrl priority, yamlEntry "b" exampleUrl priority']) =
      .ok { providers := [yamlProvider "a" exampleUrl priority .unknown,
        yamlProvider "b" exampleUrl priority' .unknown] } := by
  rfl

/-- A comparison of a text with a number raises, and so does sorting them. -/
def mixedOperators : Operators :=
  { sorted := fun _ => none
    sorted_perm := fun _ _ absurd => by cases absurd
    less := fun _ _ => none
    equal := fun _ _ => false
    share := fun _ _ _ => none }

def idle : LoadedProvider → Readings := fun _ =>
  { servable := true, latency := 1 / 2, reliability := 7 / 10, quota := 1 }

def ping (model : ModelName) : ChatCompletionRequest :=
  { model, messages := [{ role := .user, content := some (.text "ping") }],
    nonEmptyMessages := List.cons_ne_nil _ _ }

end Demo

/-- The two providers after a verification that only the first one answers. -/
theorem keyless_gateway_one_healthy :
    let r : LoadedRegistry := ⟨[Demo.yamlProvider "a" Demo.exampleUrl (.int 10) .unknown,
      Demo.yamlProvider "b" Demo.exampleUrl (.int 20) .unknown], ∅⟩
    let cs := [RegistryCall.verifyKeylessProviders (Demo.onlyAnswers "a"), .setEnabled "b" false]
    CredentialFree (r.calls cs) ∧ AliasesAgree (r.calls cs) := by
  intro r cs
  obtain ⟨free, agree⟩ := keyless_gateway Demo.noBuiltins
    (Demo.yamlFile [Demo.yamlEntry "a" Demo.exampleUrl (.int 10), Demo.yamlEntry "b" Demo.exampleUrl (.int 20)]) r
    (Demo.build_two (.int 10) (.int 20)) cs
  refine ⟨free, agree fun p member => ?_⟩
  have known : p ∈ [Demo.yamlProvider "a" Demo.exampleUrl (.int 10) .healthy,
      Demo.yamlProvider "b" Demo.exampleUrl (.int 20) .unavailable] := List.mem_of_mem_filter member
  rcases List.mem_pair.mp known with rfl | rfl <;> rfl

/-- A priority that is a text: its provider is down, so `noxis-auto` ranks the other one, but
`noxis-fast` sorts the enabled providers by priority and raises. -/
theorem text_priority_breaks_fast :
    ∃ r cs, build Demo.noBuiltins (Demo.yamlFile
        [Demo.yamlEntry "a" Demo.exampleUrl (.int 10), Demo.yamlEntry "b" Demo.exampleUrl (.str "high")]) = .ok r ∧
      ((r.calls cs).rank Demo.mixedOperators Demo.idle (Demo.ping "noxis-auto")).isSome ∧
      (r.calls cs).rank Demo.mixedOperators Demo.idle (Demo.ping "noxis-fast") = none ∧
      ¬ AliasesAgree (r.calls cs) := by
  refine ⟨_, [.verifyKeylessProviders (Demo.onlyAnswers "a")], Demo.build_two _ _, ?_⟩
  set r := LoadedRegistry.calls _ _ with afterStartup
  have auto : (r.rank Demo.mixedOperators Demo.idle (Demo.ping "noxis-auto")).isSome := by
    decide +kernel
  have fast : r.rank Demo.mixedOperators Demo.idle (Demo.ping "noxis-fast") = none := by
    rfl
  refine ⟨auto, fast, fun agree => ?_⟩
  have same := agree Demo.mixedOperators Demo.idle (Demo.ping "m") "noxis-auto" "noxis-fast"
    (by decide) (by decide)
  obtain ⟨ds, ranked⟩ := Option.isSome_iff_exists.mp auto
  have auto' : r.rank Demo.mixedOperators Demo.idle
      ((Demo.ping "m").withModel (Scalar.str "noxis-auto")) = some ds := ranked
  have fast' : r.rank Demo.mixedOperators Demo.idle
      ((Demo.ping "m").withModel (Scalar.str "noxis-fast")) = none := fast
  rw [auto', fast'] at same
  exact same

end Noxis
