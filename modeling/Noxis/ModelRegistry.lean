import Noxis.ProviderRegistry

/-! Aliases and the candidate providers of a requested model. -/
namespace Noxis

def noxisAliases : List ModelName :=
  [.str "noxis-auto", .str "noxis-fast", .str "noxis-smart", .str "noxis-free"]

def isAlias (model : ModelName) : Bool := decide (model ∈ noxisAliases)

/-- Providers that could plausibly serve `model`; Python's sort is stable. -/
def candidateProvidersForModel (r : ProviderRegistry) (model : ModelName) : List String :=
  let providers := r.enabled
  if model = .str "noxis-free" then
    providers.filter (fun name => decide ((r.provider name).config.providerType = .keyless))
  else if model = .str "noxis-auto" then providers
  else if model = .str "noxis-fast" then
    providers.insertionSort
      (fun a b => (r.provider a).config.priority ≤ (r.provider b).config.priority)
  else if model = .str "noxis-smart" then
    let apiKeyFirst :=
      providers.filter (fun name => decide ((r.provider name).config.providerType = .apiKey))
    if apiKeyFirst = [] then providers else apiKeyFirst
  else providers.filter (fun name => (r.provider name).supportsModel model)

theorem candidateProvidersForModel_subset (r : ProviderRegistry) (model : ModelName) :
    candidateProvidersForModel r model ⊆ r.enabled := by
  intro name member
  unfold candidateProvidersForModel at member
  dsimp only at member
  split_ifs at member
  · exact List.mem_of_mem_filter member
  · exact member
  · exact (List.mem_insertionSort _).mp member
  · exact member
  · exact List.mem_of_mem_filter member
  · exact List.mem_of_mem_filter member

theorem candidateProvidersForModel_nodup (r : ProviderRegistry) (model : ModelName) :
    (candidateProvidersForModel r model).Nodup := by
  have distinct := r.enabled_nodup
  unfold candidateProvidersForModel
  dsimp only
  split_ifs
  · exact distinct.filter _
  · exact distinct
  · exact (List.perm_insertionSort _ _).nodup_iff.mpr distinct
  · exact distinct
  · exact distinct.filter _
  · exact distinct.filter _

/-- Candidate selection reads only names, switches and configurations. -/
theorem candidateProvidersForModel_congr {r r' : ProviderRegistry} (model : ModelName)
    (names : r'.names = r.names) (disabled : r'.disabledOverrides = r.disabledOverrides)
    (config : ∀ name, (r'.provider name).config = (r.provider name).config) :
    candidateProvidersForModel r' model = candidateProvidersForModel r model := by
  have enabled : r'.enabled = r.enabled := by
    simp only [ProviderRegistry.enabled, ProviderRegistry.isAdminDisabled, names, disabled, config]
  simp only [candidateProvidersForModel, enabled, config, Provider.supportsModel]

end Noxis
