import Noxis.OutboundGuard
import Noxis.RegistryBuild

/-! Where configured URLs enter the registry. Neither the overrides of the settings nor the
entries of the file pass the guard, so it covers them exactly if all of them are public. -/
namespace Noxis

/-- An enabled keyless entry, with its name and its URL. -/
structure Candidate (entry : Yaml) (name : YamlKey) (baseUrl : Yaml) : Prop where
  fields : ∃ members, entry = .map members ∧ Yaml.member? members "name" = some (.key name) ∧
    Yaml.member? members "base_url" = some baseUrl ∧
    Yaml.get members "type" (.str "custom") = .str "keyless" ∧
    (Yaml.get members "enabled" (.bool true)).truthy = true

theorem ofValue_keyless {v : Yaml} : ProviderType.ofValue v = .ok .keyless ↔ v = .str "keyless" := by
  constructor
  · intro typed
    have isText : v.str? = some "keyless" := by
      unfold ProviderType.ofValue at typed
      split at typed
      · rename_i found
        obtain rfl := Except.ok.inj typed
        have isMatch := List.find?_some found
        exact of_decide_eq_true isMatch
      · cases typed
    unfold Yaml.str? at isText
    split at isText
    · obtain rfl := Option.some.inj isText
      rfl
    · cases isText
  · rintro rfl
    rfl

theorem Candidate.unique {entry : Yaml} {name name' : YamlKey} {baseUrl baseUrl' : Yaml}
    (first : Candidate entry name baseUrl) (second : Candidate entry name' baseUrl') :
    name = name' ∧ baseUrl = baseUrl' := by
  obtain ⟨members, rfl, named, located, -⟩ := first.fields
  obtain ⟨members', eq, named', located', -⟩ := second.fields
  obtain rfl := Yaml.map.inj eq
  rw [named] at named'
  rw [located] at located'
  exact ⟨Yaml.key.inj (Option.some.inj named'), Option.some.inj located'⟩

section turns
variable {providers : List LoadedProvider} {entry : Yaml} {rest : List Yaml} {name : YamlKey}
  {baseUrl : Yaml}

end turns

section coverage
variable {lib : UrlLibrary} {resolve : Resolution} {s : Settings} {r : LoadedRegistry}

end coverage

namespace Demo

/-- Host names of a laboratory, and what they resolve to. -/
def lookup : Resolution := fun host =>
  if host = "llm.example.org" then some [ipv4 93 184 216 34]
  else if host = "169.254.169.254" then some [ipv4 169 254 169 254]
  else none

def asciiUrls : UrlLibrary := { refuses := fun _ => false, lower := List.map Char.toLower }

end Demo

end Noxis
