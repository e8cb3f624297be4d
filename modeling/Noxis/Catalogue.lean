import Noxis.Errors
import Noxis.Gateway
import Noxis.Library.PartialList

/-! The catalogue of `GET /v1/models`, and when it agrees with routing. -/
namespace Noxis

structure ModelInfo where
  id : String
  ownedBy : String := "noxis"
  noxisProviders : List String
  deriving DecidableEq

/-- `seen.setdefault(name, []).append(provider)`. Two NaN objects are two keys, but no NaN is an
`id`, so that it does not matter here. -/
def setdefaultAppend : List (ModelName × List String) → ModelName → String →
    List (ModelName × List String)
  | [], name, provider => [(name, [provider])]
  | (key, providers) :: rest, name, provider =>
      if key.pyEq name then (key, providers ++ [provider]) :: rest
      else (key, providers) :: setdefaultAppend rest name provider

/-- `ModelInfo(id=name, noxis_providers=providers)`, which validates that the `id` is a text. -/
def ModelInfo.ofEntry (e : ModelName × List String) : Option ModelInfo :=
  match e.1 with
  | .str id => some { id, noxisProviders := e.2 }
  | _ => none

namespace ProviderRegistry

variable (r : ProviderRegistry)

def keylessEnabled : List String :=
  r.enabled.filter fun name => decide ((r.provider name).config.providerType = .keyless)

def seen : List (ModelName × List String) :=
  r.keylessEnabled.foldl (fun seen name =>
    (r.provider name).config.models.foldl (fun seen m => setdefaultAppend seen m.name name) seen) []

/-- `none` is an exception: a name that is not a text fails the sort or the validation. -/
def listModels : Option (List ModelInfo) :=
  (r.seen.mapM ModelInfo.ofEntry).map fun data =>
    data.insertionSort (fun a b => a.id ≤ b.id) ++
      [{ id := "noxis-free", ownedBy := "noxis-router", noxisProviders := ["keyless"] }]

end ProviderRegistry

/-- Raised with status 503. -/
def noKeylessModels : NoxisError :=
  { statusCode := 503, message := "No verified keyless models are currently available.",
    errType := "provider_unavailable", errCode := "NOXIS_NO_KEYLESS_MODELS" }

/-- `GET /v1/models`. -/
def getModels (r : ProviderRegistry) : Option (Except NoxisError (List ModelInfo)) :=
  r.listModels.map fun data => if data = [] then .error noKeylessModels else .ok data

/-! ### The dictionary of the declared models -/

section dictionary

variable {seen : List (ModelName × List String)}

/-- The providers stored under a key. -/
def storedUnder (seen : List (ModelName × List String)) (key : ModelName) : List String :=
  ((seen.find? fun e => decide (e.1 = key)).map Prod.snd).getD []

/-- On texts the keys of the dictionary compare as values. -/
def TextKeys (seen : List (ModelName × List String)) : Prop :=
  ∀ key ∈ seen.map Prod.fst, ∃ id, key = .str id

theorem pyEq_text {key : ModelName} (text : ∃ id, key = .str id) (id : String) :
    key.pyEq (.str id) = decide (key = .str id) := by
  obtain ⟨id', rfl⟩ := text
  rw [Scalar.pyEq_str]
  simp

theorem setdefaultAppend_keys (seen : List (ModelName × List String)) (name : ModelName)
    (provider : String) :
    (setdefaultAppend seen name provider).map Prod.fst =
      if ∃ key ∈ seen.map Prod.fst, key.pyEq name = true then seen.map Prod.fst
      else seen.map Prod.fst ++ [name] := by
  induction seen with
  | nil => rfl
  | cons e rest ih =>
      obtain ⟨key, providers⟩ := e
      rw [setdefaultAppend]
      by_cases here : key.pyEq name = true
      · simp [here]
      · simp only [here, Bool.false_eq_true, if_false, List.map_cons, ih, List.mem_cons,
          exists_eq_or_imp, false_or]
        split_ifs <;> rfl

theorem text_of_pyEq {a b : ModelName} {id : String} (text : a = .str id)
    (same : a.pyEq b = true) : b = .str id := by
  subst text
  cases b <;> simp_all [Scalar.pyEq, Scalar.key]

/-- Entering a name keeps all keys texts if and only if it is one. -/
theorem textKeys_setdefaultAppend (seen : List (ModelName × List String)) (name : ModelName)
    (provider : String) :
    TextKeys (setdefaultAppend seen name provider) ↔
      TextKeys seen ∧ ∃ id, name = .str id := by
  unfold TextKeys
  rw [setdefaultAppend_keys]
  split_ifs with known
  · obtain ⟨key, member, same⟩ := known
    refine ⟨fun texts => ⟨texts, ?_⟩, And.left⟩
    obtain ⟨id, text⟩ := texts key member
    exact ⟨id, text_of_pyEq text same⟩
  · simp only [List.mem_append, List.mem_singleton, or_imp, forall_and, forall_eq]

theorem textKeys_foldl (pairs : List (ModelName × String)) :
    TextKeys (pairs.foldl (fun seen e => setdefaultAppend seen e.1 e.2) []) ↔
      ∀ e ∈ pairs, ∃ id, e.1 = .str id := by
  induction pairs using List.reverseRecOn with
  | nil => simp [TextKeys]
  | append_singleton before last ih =>
      rw [List.foldl_append]
      simp only [List.foldl_cons, List.foldl_nil, textKeys_setdefaultAppend, ih, List.mem_append,
        List.mem_singleton, or_imp, forall_and, forall_eq]

theorem setdefaultAppend_textKeys (texts : TextKeys seen) (id provider : String) :
    (setdefaultAppend seen (.str id) provider).map Prod.fst =
      if .str id ∈ seen.map Prod.fst then seen.map Prod.fst else seen.map Prod.fst ++ [.str id] := by
  have known : (∃ key ∈ seen.map Prod.fst, key.pyEq (.str id) = true) ↔
      .str id ∈ seen.map Prod.fst := by
    constructor
    · rintro ⟨key, member, same⟩
      rw [pyEq_text (texts key member), decide_eq_true_eq] at same
      exact same ▸ member
    · exact fun member => ⟨_, member, by simp⟩
  rw [setdefaultAppend_keys]
  simp only [known]

theorem storedUnder_setdefaultAppend (texts : TextKeys seen) (id provider : String)
    (key : ModelName) :
    storedUnder (setdefaultAppend seen (.str id) provider) key =
      if key = .str id then storedUnder seen key ++ [provider] else storedUnder seen key := by
  induction seen with
  | nil =>
      by_cases same : (.str id : ModelName) = key
      · simp [setdefaultAppend, storedUnder, same]
      · simp [setdefaultAppend, storedUnder, same, Ne.symm same]
  | cons e rest ih =>
      obtain ⟨first, providers⟩ := e
      have later := ih fun k member => texts k (List.mem_cons_of_mem _ member)
      rw [setdefaultAppend, pyEq_text (texts first List.mem_cons_self)]
      unfold storedUnder at later ⊢
      by_cases here : first = .str id
      · by_cases same : (.str id : ModelName) = key
        · simp [here, same]
        · simp [here, same, Ne.symm same]
      · by_cases found : first = key
        · have other : key ≠ .str id := found ▸ here
          simp [found, other]
        · simp [here, found, later]

theorem storedUnder_of_mem (distinct : (seen.map Prod.fst).Nodup) {key : ModelName}
    {providers : List String} (member : (key, providers) ∈ seen) :
    storedUnder seen key = providers := by
  induction seen with
  | nil => exact absurd member List.not_mem_nil
  | cons e rest ih =>
      rw [List.map_cons, List.nodup_cons] at distinct
      rcases List.mem_cons.mp member with rfl | later
      · simp [storedUnder]
      · have other : e.1 ≠ key := fun same =>
          distinct.1 (same ▸ List.mem_map.mpr ⟨_, later, rfl⟩)
        have found := ih distinct.2 later
        unfold storedUnder at found ⊢
        simpa [other] using found

/-- What the dictionary holds once these models have been entered. -/
structure Entered (pairs : List (ModelName × String)) (seen : List (ModelName × List String)) :
    Prop where
  distinct : (seen.map Prod.fst).Nodup
  keys : ∀ key, key ∈ seen.map Prod.fst ↔ key ∈ pairs.map Prod.fst
  stored : ∀ key, storedUnder seen key = (pairs.filter fun e => decide (e.1 = key)).map Prod.snd

theorem Entered.append {pairs : List (ModelName × String)} (h : Entered pairs seen)
    (texts : TextKeys seen) (id provider : String) :
    Entered (pairs ++ [(.str id, provider)]) (setdefaultAppend seen (.str id) provider) := by
  have keys := setdefaultAppend_textKeys texts id provider
  constructor
  · rw [keys]
    split_ifs with known
    · exact h.distinct
    · exact h.distinct.append (List.nodup_singleton _) (by simpa using known)
  · intro key
    rw [keys, List.map_append, List.mem_append, ← h.keys key]
    split_ifs with known
    · constructor
      · exact Or.inl
      · rintro (member | new)
        · exact member
        · rw [List.mem_singleton.mp new]
          exact known
    · rw [List.mem_append]
      rfl
  · intro key
    rw [storedUnder_setdefaultAppend texts, h.stored key, List.filter_append, List.map_append]
    by_cases same : key = .str id
    · simp [same]
    · simp [same, Ne.symm same]

/-- Entering models one by one into an empty dictionary. -/
theorem entered_foldl (pairs : List (ModelName × String))
    (texts : ∀ e ∈ pairs, ∃ id, e.1 = .str id) :
    Entered pairs (pairs.foldl (fun seen e => setdefaultAppend seen e.1 e.2) []) := by
  induction pairs using List.reverseRecOn with
  | nil => exact ⟨List.nodup_nil, fun _ => Iff.rfl, fun _ => rfl⟩
  | append_singleton before last ih =>
      have entered := ih fun e member => texts e (List.mem_append_left _ member)
      obtain ⟨name, provider⟩ := last
      obtain ⟨id, rfl : name = .str id⟩ := texts (name, provider) (by simp)
      rw [List.foldl_append]
      refine entered.append (fun key member => ?_) id provider
      obtain ⟨e, known, rfl⟩ := List.mem_map.mp ((entered.keys key).mp member)
      exact texts e (List.mem_append_left _ known)

end dictionary

namespace ProviderRegistry

variable (r : ProviderRegistry)

/-- The models that the enabled keyless providers declare, in the order of the loop. -/
def declared : List (ModelName × String) :=
  r.keylessEnabled.flatMap fun name => (r.provider name).config.models.map fun m => (m.name, name)

theorem mem_declared {key : ModelName} {name : String} :
    (key, name) ∈ r.declared ↔
      name ∈ r.keylessEnabled ∧ ∃ m ∈ (r.provider name).config.models, m.name = key := by
  simp only [declared, List.mem_flatMap, List.mem_map, Prod.mk.injEq]
  constructor
  · rintro ⟨_, keyless, m, known, named, rfl⟩
    exact ⟨keyless, m, known, named⟩
  · rintro ⟨keyless, m, known, named⟩
    exact ⟨name, keyless, m, known, named, rfl⟩

theorem seen_eq : r.seen = r.declared.foldl (fun seen e => setdefaultAppend seen e.1 e.2) [] := by
  rw [seen, declared, List.foldl_flatMap]
  simp only [List.foldl_map]

theorem mem_keylessEnabled {name : String} :
    name ∈ r.keylessEnabled ↔
      name ∈ r.enabled ∧ (r.provider name).config.providerType = .keyless := by
  rw [keylessEnabled, List.mem_filter, decide_eq_true_eq]

/-- All models of the enabled keyless providers have texts for names. -/
def TextNames : Prop :=
  ∀ name ∈ r.keylessEnabled, ∀ m ∈ (r.provider name).config.models, ∃ id, m.name = .str id

variable {r}

theorem textKeys_seen_iff : TextKeys r.seen ↔ r.TextNames := by
  rw [seen_eq, textKeys_foldl]
  constructor
  · intro texts name keyless m known
    exact texts _ (r.mem_declared.mpr ⟨keyless, m, known, rfl⟩)
  · rintro texts ⟨key, name⟩ member
    obtain ⟨keyless, m, known, rfl⟩ := r.mem_declared.mp member
    exact texts name keyless m known

theorem entered_seen (texts : r.TextNames) : Entered r.declared r.seen := by
  rw [seen_eq]
  apply entered_foldl
  rw [← textKeys_foldl, ← seen_eq]
  exact textKeys_seen_iff.mpr texts

/-- The catalogue is listed if and only if all names are texts. -/
theorem listModels_isSome_iff : r.listModels.isSome = true ↔ r.TextNames := by
  have entries : (∀ e ∈ r.seen, (ModelInfo.ofEntry e).isSome) ↔ TextKeys r.seen := by
    unfold TextKeys
    simp only [List.mem_map, forall_exists_index, and_imp, forall_apply_eq_imp_iff₂]
    refine forall₂_congr fun e _ => ?_
    unfold ModelInfo.ofEntry
    split
    · next id text => simp [text]
    · next other => simpa using other
  rw [textKeys_seen_iff] at entries
  rw [listModels, Option.isSome_map, PartialList.mapM_eq, ← entries]
  split_ifs with each
  · exact iff_of_true rfl each
  · exact iff_of_false Bool.false_ne_true each

/-- What the listing holds besides the alias: one entry for each declared name, with the providers
that declare it. -/
structure Concrete (r : ProviderRegistry) (data : List ModelInfo) : Prop where
  distinct : (data.map ModelInfo.id).Nodup
  owner : ∀ info ∈ data, info.ownedBy = "noxis"
  declares : ∀ info ∈ data, ∀ name, name ∈ info.noxisProviders ↔
    (.str info.id, name) ∈ r.declared
  ids : ∀ id, id ∈ data.map ModelInfo.id ↔ ∃ name, (.str id, name) ∈ r.declared

theorem listModels_spec {data : List ModelInfo} (listed : r.listModels = some data) :
    ∃ concrete, Concrete r concrete ∧ data = concrete ++
      [{ id := "noxis-free", ownedBy := "noxis-router", noxisProviders := ["keyless"] }] := by
  have texts : r.TextNames := by
    rw [← listModels_isSome_iff, listed]
    rfl
  have entered := entered_seen texts
  obtain ⟨unsorted, read, rfl⟩ := Option.map_eq_some_iff.mp listed
  have inverse : ∀ e info, ModelInfo.ofEntry e = some info →
      (fun i : ModelInfo => ((.str i.id : ModelName), i.noxisProviders)) info = e := by
    intro e info read
    obtain ⟨key, providers⟩ := e
    cases key <;> simp only [ModelInfo.ofEntry, Option.some.injEq, reduceCtorEq] at read
    subst read
    rfl
  have entries := PartialList.map_of_mapM inverse read
  have perm := List.perm_insertionSort (fun a b : ModelInfo => a.id ≤ b.id) unsorted
  have keys : unsorted.map (fun i => (.str i.id : ModelName)) = r.seen.map Prod.fst := by
    rw [← entries, List.map_map]
    rfl
  refine ⟨unsorted.insertionSort fun a b => a.id ≤ b.id, ?_, rfl⟩
  constructor
  · rw [(perm.map ModelInfo.id).nodup_iff]
    have distinct := entered.distinct
    rw [← keys] at distinct
    exact List.Nodup.of_map (fun id => (.str id : ModelName)) (by rwa [List.map_map])
  · intro info member
    obtain ⟨e, -, made⟩ := PartialList.mem_of_mapM read (perm.mem_iff.mp member)
    unfold ModelInfo.ofEntry at made
    split at made
    · rw [← Option.some.inj made]
    · cases made
  · intro info member name
    have stored : ((.str info.id : ModelName), info.noxisProviders) ∈ r.seen := by
      rw [← entries]
      exact List.mem_map.mpr ⟨info, perm.mem_iff.mp member, rfl⟩
    rw [← storedUnder_of_mem entered.distinct stored, entered.stored]
    simp
  · intro id
    have known := entered.keys (.str id)
    rw [← keys] at known
    rw [(perm.map ModelInfo.id).mem_iff]
    simpa using known

end ProviderRegistry

/-! ### Agreement with routing -/

/-- An enabled keyless provider that the alias or name is offered to and that resolves it. -/
def ServedKeyless (r : ProviderRegistry) (id : String) : Prop :=
  ∃ name ∈ r.keylessEnabled, name ∈ candidateProvidersForModel r (.str id) ∧
    (resolveModelForProvider (r.provider name) (.str id)).isSome = true

structure CatalogueAgrees (r : ProviderRegistry) : Prop where
  /-- The endpoint answers, and with 503 exactly where there is nothing to list. -/
  answers : ∃ answer, getModels r = some answer ∧
    (answer = .error noKeylessModels ↔
      ∀ name ∈ r.keylessEnabled, (r.provider name).config.models = [])
  distinct : ∀ data, getModels r = some (.ok data) → (data.map ModelInfo.id).Nodup
  served : ∀ data, getModels r = some (.ok data) → ∀ info ∈ data, ServedKeyless r info.id
  declares : ∀ data, getModels r = some (.ok data) → ∀ info ∈ data, info.ownedBy = "noxis" →
    ∀ name, name ∈ info.noxisProviders ↔ name ∈ r.keylessEnabled ∧
      ∃ m ∈ (r.provider name).config.models, m.name = .str info.id

/-- A registry whose catalogue can be right: the enabled keyless providers have a model, all of
their models have texts for names, none the name of the listed alias, and none the name of the
alias that credentialed providers are preferred for, if there are such providers. -/
structure Cataloguable (r : ProviderRegistry) : Prop where
  some_model : ∃ name ∈ r.keylessEnabled, (r.provider name).config.models ≠ []
  texts : r.TextNames
  not_free : ∀ name ∈ r.keylessEnabled, ∀ m ∈ (r.provider name).config.models,
    m.name ≠ .str "noxis-free"
  not_smart : (∃ name ∈ r.enabled, (r.provider name).config.providerType = .apiKey) →
    ∀ name ∈ r.keylessEnabled, ∀ m ∈ (r.provider name).config.models,
      m.name ≠ .str "noxis-smart"

section agreement

variable {r : ProviderRegistry}

theorem candidate_declaring {id name : String} (keyless : name ∈ r.keylessEnabled)
    (declares : ∃ m ∈ (r.provider name).config.models, m.name = .str id)
    (smart : id = "noxis-smart" → ∀ other ∈ r.enabled,
      (r.provider other).config.providerType ≠ .apiKey) :
    name ∈ candidateProvidersForModel r (.str id) := by
  obtain ⟨enabled, type⟩ := r.mem_keylessEnabled.mp keyless
  unfold candidateProvidersForModel
  dsimp only
  split_ifs with free auto fast smart' noKey
  · exact keyless
  · exact enabled
  · exact (List.mem_insertionSort _).mpr enabled
  · exact enabled
  · obtain ⟨other, member⟩ := List.exists_mem_of_ne_nil _ noKey
    obtain ⟨known, keyed⟩ := List.mem_filter.mp member
    exact absurd (of_decide_eq_true keyed) (smart (by simpa using smart') other known)
  · obtain ⟨m, known, named⟩ := declares
    refine List.mem_filter.mpr ⟨enabled, ?_⟩
    rw [Provider.supportsModel, Bool.or_eq_true]
    exact .inr (List.any_eq_true.mpr ⟨m, known, by rw [named, Scalar.pyEq_str]; simp⟩)

theorem resolves_of_models {p : Provider} (models : p.config.models ≠ []) (requested : ModelName) :
    (resolveModelForProvider p requested).isSome = true := by
  unfold resolveModelForProvider
  split_ifs
  · cases list : p.config.models with
    | nil => exact absurd list models
    | cons first rest => rfl
  · rfl

/-- A name is served by keyless providers that declare it, unless others are preferred for it. -/
theorem servedKeyless_of_declared {id name : String} (declared : (.str id, name) ∈ r.declared)
    (smart : id = "noxis-smart" → ∀ other ∈ r.enabled,
      (r.provider other).config.providerType ≠ .apiKey) : ServedKeyless r id := by
  obtain ⟨keyless, m, known, named⟩ := r.mem_declared.mp declared
  exact ⟨name, keyless, candidate_declaring keyless ⟨m, known, named⟩ smart,
    resolves_of_models (List.ne_nil_of_mem known) _⟩

theorem servedKeyless_free_iff :
    ServedKeyless r "noxis-free" ↔
      ∃ name ∈ r.keylessEnabled, (r.provider name).config.models ≠ [] := by
  constructor
  · rintro ⟨name, keyless, -, resolved⟩
    refine ⟨name, keyless, fun none_left => ?_⟩
    have aliased : isAlias (.str "noxis-free") = true := by decide
    rw [resolveModelForProvider, if_pos aliased, none_left] at resolved
    cases resolved
  · rintro ⟨name, keyless, models⟩
    refine ⟨name, keyless, ?_, resolves_of_models models _⟩
    rw [candidateProvidersForModel, if_pos rfl]
    exact keyless

/-- The alias is always listed, so the list is never empty. -/
theorem getModels_eq_ok {data : List ModelInfo} :
    getModels r = some (.ok data) ↔ r.listModels = some data := by
  rw [getModels, Option.map_eq_some_iff]
  constructor
  · rintro ⟨data', listed, answer⟩
    split_ifs at answer
    rwa [← Except.ok.inj answer]
  · intro listed
    obtain ⟨concrete, -, rfl⟩ := ProviderRegistry.listModels_spec listed
    exact ⟨_, listed, if_neg (by simp)⟩

theorem getModels_ne_error (e : NoxisError) : getModels r ≠ some (.error e) := by
  intro failed
  obtain ⟨data, listed, answer⟩ := Option.map_eq_some_iff.mp failed
  have fine := getModels_eq_ok.mpr listed
  rw [failed] at fine
  cases fine

/-- With credentialed providers about, the smart alias is offered to no keyless one. -/
theorem not_servedKeyless_smart
    (keyed : ∃ name ∈ r.enabled, (r.provider name).config.providerType = .apiKey) :
    ¬ ServedKeyless r "noxis-smart" := by
  rintro ⟨name, keyless, candidate, -⟩
  obtain ⟨other, enabled, type⟩ := keyed
  have first : r.enabled.filter
      (fun name => decide ((r.provider name).config.providerType = .apiKey)) ≠ [] :=
    List.ne_nil_of_mem (List.mem_filter.mpr ⟨enabled, decide_eq_true type⟩)
  have candidates : candidateProvidersForModel r (.str "noxis-smart") = r.enabled.filter
      fun name => decide ((r.provider name).config.providerType = .apiKey) := by
    rw [candidateProvidersForModel, if_neg (by decide), if_neg (by decide), if_neg (by decide),
      if_pos rfl]
    exact if_neg first
  rw [candidates, List.mem_filter, decide_eq_true_eq, (r.mem_keylessEnabled.mp keyless).2]
    at candidate
  exact absurd candidate.2 (by decide)

theorem Cataloguable.agrees (h : Cataloguable r) : CatalogueAgrees r := by
  obtain ⟨data, listed⟩ := Option.isSome_iff_exists.mp
    (ProviderRegistry.listModels_isSome_iff.mpr h.texts)
  obtain ⟨concrete, spec, rfl⟩ := ProviderRegistry.listModels_spec listed
  have answered := getModels_eq_ok.mpr listed
  have only : ∀ data, getModels r = some (.ok data) → data = concrete ++
      [{ id := "noxis-free", ownedBy := "noxis-router", noxisProviders := ["keyless"] }] := by
    intro data answered'
    exact Except.ok.inj (Option.some.inj (answered'.symm.trans answered))
  obtain ⟨keylessOne, keyless, models⟩ := h.some_model
  constructor
  · refine ⟨_, answered, iff_of_false (fun error => by cases error) fun none_left => ?_⟩
    exact models (none_left keylessOne keyless)
  · intro data answered'
    obtain rfl := only data answered'
    rw [List.map_append, List.nodup_append]
    refine ⟨spec.distinct, List.nodup_singleton _, ?_⟩
    rintro id member _ alias' rfl
    obtain ⟨name, declared⟩ := (spec.ids id).mp member
    obtain ⟨keyless', m, known, named⟩ := r.mem_declared.mp declared
    rw [List.mem_singleton.mp alias'] at named
    exact h.not_free name keyless' m known named
  · intro data answered' info member
    obtain rfl := only data answered'
    rcases List.mem_append.mp member with member | member
    · obtain ⟨name, declared⟩ := (spec.ids info.id).mp (List.mem_map_of_mem member)
      refine servedKeyless_of_declared declared fun smart other enabled keyed => ?_
      obtain ⟨keyless', m, known, named⟩ := r.mem_declared.mp declared
      exact h.not_smart ⟨other, enabled, keyed⟩ name keyless' m known (smart ▸ named)
    · rw [List.mem_singleton.mp member]
      exact servedKeyless_free_iff.mpr h.some_model
  · intro data answered' info member owner name
    obtain rfl := only data answered'
    rcases List.mem_append.mp member with member | member
    · rw [spec.declares info member name, r.mem_declared]
    · rw [List.mem_singleton.mp member] at owner
      exact absurd owner (by decide)

/-- The catalogue agrees with routing on exactly these registries. -/
theorem catalogue_agrees_iff : CatalogueAgrees r ↔ Cataloguable r := by
  refine ⟨fun agrees => ?_, Cataloguable.agrees⟩
  obtain ⟨answer, answered, unavailable⟩ := agrees.answers
  obtain ⟨data, rfl⟩ : ∃ data, answer = .ok data := by
    cases answer with
    | error e => exact absurd answered (getModels_ne_error e)
    | ok data => exact ⟨data, rfl⟩
  have listed := getModels_eq_ok.mp answered
  obtain ⟨concrete, spec, rfl⟩ := ProviderRegistry.listModels_spec listed
  have listedId : ∀ name ∈ r.keylessEnabled, ∀ m ∈ (r.provider name).config.models, ∀ id,
      m.name = .str id → ∃ info ∈ concrete, info.id = id := by
    intro name keyless m known id named
    have declared := r.mem_declared.mpr ⟨keyless, m, known, named⟩
    exact List.mem_map.mp ((spec.ids id).mpr ⟨name, declared⟩)
  constructor
  · by_contra none_left
    push Not at none_left
    cases unavailable.mpr none_left
  · rw [← ProviderRegistry.listModels_isSome_iff, listed]
    rfl
  · intro name keyless m known named
    obtain ⟨info, member, same⟩ := listedId name keyless m known _ named
    have distinct := agrees.distinct _ answered
    rw [List.map_append, List.nodup_append] at distinct
    exact distinct.2.2 info.id (List.mem_map_of_mem member) _ (List.mem_singleton_self _) same
  · intro keyed name keyless m known named
    obtain ⟨info, member, same⟩ := listedId name keyless m known _ named
    have served := agrees.served _ answered info (List.mem_append_left _ member)
    rw [same] at served
    exact not_servedKeyless_smart keyed served

end agreement

/-- No provider has a model, and the endpoint still lists the alias. -/
theorem catalogue_without_models :
    ¬ CatalogueAgrees (Demo.gateway fun _ => Demo.config [] 10).app.registry := by
  intro agrees
  obtain ⟨answer, answered, unavailable⟩ := agrees.answers
  rw [unavailable.mpr fun _ _ => rfl] at answered
  exact getModels_ne_error noKeylessModels answered

end Noxis
