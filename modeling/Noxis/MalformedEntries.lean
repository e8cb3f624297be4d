import Noxis.Chat
import Noxis.GuardCoverage

/-! What the providers file can do to the start of the gateway: which documents the loop goes
through without raising, and what is registered then. -/
namespace Noxis

/-- A model given by its name, or by known fields one of which is the name. -/
def ModelWellFormed (v : Yaml) : Prop :=
  (∃ name, v = .str name) ∨
    ∃ fields, v = .map fields ∧ (∀ f ∈ fields, f.1 ∈ modelFields.map YamlKey.str) ∧
      (Yaml.member? fields "name").isSome = true

/-- The fields without defaults are there, and the models are a collection of models. -/
structure FieldsWellFormed (members : List (YamlKey × Yaml)) : Prop where
  baseUrl : (Yaml.member? members "base_url").isSome = true
  models : ∃ items, (Yaml.get members "models" (.seq [])).iterate = .ok items ∧
    ∀ v ∈ items, ModelWellFormed v

/-- A well-formed enabled keyless entry. -/
structure WellFormedEntry (entry : Yaml) (name : YamlKey) (baseUrl : Yaml) : Prop
    extends Candidate entry name baseUrl where
  wellFormed : ∀ members, entry = .map members → FieldsWellFormed members

/-- The loop passes an entry: a mapping with a hashable name, and unless that name is taken a
known type, and for keyless entries well-formed fields. -/
def EntryPasses (taken : YamlKey → Prop) (entry : Yaml) : Prop :=
  ∃ members name, entry = .map members ∧ Yaml.member? members "name" = some (.key name) ∧
    (taken name ∨ ∃ type,
      ProviderType.ofValue (Yaml.get members "type" (.str "custom")) = .ok type ∧
        (type = .keyless → FieldsWellFormed members))

/-- A provider, or a well-formed entry before, has the name. -/
def Taken (providers : List LoadedProvider) (before : List Yaml) (name : YamlKey) : Prop :=
  registered providers name = true ∨
    ∃ e ∈ before, ∃ name' baseUrl, WellFormedEntry e name' baseUrl ∧ name'.sameKey name = true

/-! ### Fields and models -/

/-- A keyless entry that passes has a name that is taken, or is well-formed. -/
theorem EntryPasses.wellFormed {taken : YamlKey → Prop} {entry : Yaml}
    (passes : EntryPasses taken entry) {name : YamlKey} {baseUrl : Yaml}
    (candidate : Candidate entry name baseUrl) :
    taken name ∨ WellFormedEntry entry name baseUrl := by
  obtain ⟨members, name', rfl, named, fine⟩ := passes
  obtain ⟨members', eq, named', -, keyless, -⟩ := candidate.fields
  obtain rfl := Yaml.map.inj eq
  obtain rfl := Yaml.key.inj (Option.some.inj (named'.symm.trans named))
  rcases fine with before | ⟨type, typed, fields⟩
  · exact .inl before
  · rw [ofValue_keyless.mpr keyless] at typed
    refine .inr ⟨candidate, fun members' same => ?_⟩
    obtain rfl := Yaml.map.inj same
    exact fields (Except.ok.inj typed).symm

/-! ### One turn of the loop -/

section turn

variable {providers providers' : List LoadedProvider} {entry : Yaml}

end turn

/-! ### The whole loop -/

/-- The entries of a file: none without a document or in an empty one, and else what a mapping
has to go through under `providers`. -/
def ConfigFile.Lists (file : ConfigFile) (entries : List Yaml) : Prop :=
  match file with
  | .missing | .unparsed => entries = []
  | .parsed data => (data.truthy = false ∧ entries = []) ∨
      ∃ members, data = .map members ∧ members ≠ [] ∧
        (Yaml.get members "providers" (.seq [])).iterate = .ok entries

/-- A file that the gateway starts with: one whose entries pass, each after those before it. -/
def ConfigFile.Passes (providers : List LoadedProvider) (file : ConfigFile) : Prop :=
  ∃ entries, file.Lists entries ∧ ∀ before entry after,
    entries = before ++ entry :: after → EntryPasses (Taken providers before) entry

end Noxis
