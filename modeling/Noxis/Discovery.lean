import Noxis.Library.PartialList
import Noxis.OpenAICompatible

/-! Model discovery at startup. Every keyless provider is asked for its models, and what it
lists replaces its configured list, also where that list was given by the administrator. -/
namespace Noxis

/-- `dict.fromkeys`: the keys in the order in which they are first inserted. -/
def fromKeys : List Scalar → List Scalar → List Scalar
  | _, [] => []
  | seen, m :: rest =>
      if m.key ∈ seen then fromKeys seen rest else m :: fromKeys (m.key :: seen) rest

/-- Lists and objects cannot be keys: hashing one raises a `TypeError`. -/
def Json.asKey : Json → Option Scalar
  | .scalar v => some v
  | _ => none

/-- The entries of a `/models` document; anything that cannot be gone through raises. -/
def modelItems : Json → Option (List Json)
  | .obj members =>
      match Json.get members "data" (.arr []) with
      | .arr items => some items
      | .obj inner => some (inner.map fun m => .str m.1)
      | .scalar (.str s) => some (s.toList.map fun c => .str (String.ofList [c]))
      | .scalar _ => none
  -- a list or a scalar has no `get`, so the default for lists is never reached
  | _ => none

def itemId (lib : Libraries) : Json → Json
  | .obj members => Json.get members "id" .null
  | item => .str (lib.str item)

/-- `list_models`; every exception gives the empty list. -/
def listModels (lib : Libraries) (config : ProviderConfig)
    (answer : Except TransportError HttpAnswer) : List Json :=
  if config.models ≠ [] then config.models.map fun m => .scalar m.name
  else match answer with
    | .error _ => []
    | .ok answer =>
        if 400 ≤ answer.status then []
        else match answer.json lib with
          | .error _ => []
          | .ok data => match modelItems data with
              | none => []
              | some items => items.map (itemId lib)

/-- `[ModelSpec(name=m) for m in dict.fromkeys(models) if m]`. -/
def specsOf (names : List Scalar) : List ModelSpec :=
  ((fromKeys [] names).filter Scalar.truthy).map fun name => { name }

/-- `if models: provider.config.models = …`; a `TypeError` leaves the provider as it is. -/
def replaceModels (p : Provider) (models : List Json) : Provider :=
  if models.isEmpty then p
  else match models.mapM Json.asKey with
    | none => p
    | some names => { p with config := { p.config with models := specsOf names } }

def discoverModels (lib : Libraries) (p : Provider) (answer : Except TransportError HttpAnswer) :
    Provider :=
  if p.config.providerType ≠ .keyless ∨ p.health = .unavailable then p
  else replaceModels p (listModels lib p.config answer)

/-- `discover_keyless_models`, before any request is served. -/
def discoverKeylessModels (lib : Libraries) (answers : String → Except TransportError HttpAnswer)
    (r : ProviderRegistry) : ProviderRegistry :=
  r.names.foldl (fun r name => r.modify name fun p => discoverModels lib p (answers name)) r

/-- `kept` lists what `listed` names, each once, in the order of its first occurrence. -/
structure DistinctInOrder (listed kept : List Scalar) : Prop where
  sublist : kept.Sublist listed
  distinct : (kept.map Scalar.key).Nodup
  first : ∀ before m after, listed = before ++ m :: after → m.key ∉ before.map Scalar.key →
    m ∈ kept

section fromKeys

theorem fromKeys_sublist (seen l : List Scalar) : (fromKeys seen l).Sublist l := by
  induction l generalizing seen with
  | nil => exact .slnil
  | cons m rest ih =>
      unfold fromKeys
      split_ifs
      · exact (ih _).cons m
      · exact (ih _).cons_cons m

theorem fromKeys_fresh {seen l : List Scalar} {m : Scalar} (member : m ∈ fromKeys seen l) :
    m.key ∉ seen := by
  induction l generalizing seen with
  | nil => simp [fromKeys] at member
  | cons n rest ih =>
      unfold fromKeys at member
      split_ifs at member with old
      · exact ih member
      · rcases List.mem_cons.mp member with rfl | later
        · exact old
        · exact fun h => ih later (List.mem_cons_of_mem _ h)

theorem fromKeys_distinct (seen l : List Scalar) : ((fromKeys seen l).map Scalar.key).Nodup := by
  induction l generalizing seen with
  | nil => simp [fromKeys]
  | cons m rest ih =>
      unfold fromKeys
      split_ifs
      · exact ih _
      · refine List.nodup_cons.mpr ⟨?_, ih _⟩
        intro again
        obtain ⟨n, member, same⟩ := List.mem_map.mp again
        exact fromKeys_fresh member (by simp [same])

theorem fromKeys_first {seen before after : List Scalar} {m : Scalar} (new : m.key ∉ seen)
    (first : m.key ∉ before.map Scalar.key) : m ∈ fromKeys seen (before ++ m :: after) := by
  induction before generalizing seen with
  | nil => simp [fromKeys, new]
  | cons n before ih =>
      simp only [List.map_cons, List.mem_cons, not_or] at first
      simp only [List.cons_append, fromKeys]
      split_ifs
      · exact ih new first.2
      · refine List.mem_cons_of_mem _ (ih ?_ first.2)
        simp [first.1, new]

theorem fromKeys_eq_self {seen l : List Scalar} (distinct : (l.map Scalar.key).Nodup)
    (new : ∀ m ∈ l, m.key ∉ seen) : fromKeys seen l = l := by
  induction l generalizing seen with
  | nil => rfl
  | cons m rest ih =>
      simp only [List.map_cons, List.nodup_cons] at distinct
      simp only [fromKeys, if_neg (new m List.mem_cons_self)]
      refine congrArg _ (ih distinct.2 ?_)
      intro n member
      simp only [List.mem_cons, not_or]
      refine ⟨?_, new n (List.mem_cons_of_mem _ member)⟩
      intro same
      exact distinct.1 (same ▸ List.mem_map_of_mem member)

theorem truthy_of_key {a b : Scalar} (same : a.key = b.key) : a.truthy = b.truthy := by
  have through : ∀ v : Scalar, v.key.truthy = v.truthy := by
    intro v
    cases v with
    | bool b => cases b <;> rfl
    | int n => simp [Scalar.key, Scalar.truthy]
    | none => rfl
    | float x => rfl
    | str s => rfl
  rw [← through a, ← through b, same]

/-- The names of the rebuilt list are the distinct non-empty names in order. -/
theorem distinctInOrder_fromKeys (l : List Scalar) :
    DistinctInOrder (l.filter Scalar.truthy) ((fromKeys [] l).filter Scalar.truthy) := by
  refine ⟨(fromKeys_sublist [] l).filter _, ?_, ?_⟩
  · exact (fromKeys_distinct [] l).sublist (List.filter_sublist.map _)
  · intro before m after split first
    obtain ⟨l₁, l₂, rfl, rfl, tail⟩ := List.filter_eq_append_iff.mp split
    obtain ⟨l₃, l₄, rfl, skipped, passes, rfl⟩ := List.filter_eq_cons_iff.mp tail
    have kept : m ∈ fromKeys [] ((l₁ ++ l₃) ++ m :: l₄) := by
      apply fromKeys_first List.not_mem_nil
      intro again
      obtain ⟨n, member, same⟩ := List.mem_map.mp again
      have nonempty : n.truthy = true := (truthy_of_key same).trans passes
      rcases List.mem_append.mp member with early | late
      · exact first (List.mem_map.mpr ⟨n, List.mem_filter.mpr ⟨early, nonempty⟩, same⟩)
      · exact skipped n late nonempty
    rw [List.append_assoc] at kept
    exact List.mem_filter.mpr ⟨kept, passes⟩

end fromKeys

/-- The names that discovery is told for a provider without a list: none where it does not ask. -/
def discoveredNames (lib : Libraries) (p : Provider) (answer : Except TransportError HttpAnswer) :
    List Scalar :=
  if p.health = .unavailable then []
  else ((listModels lib p.config answer).filterMap Json.asKey).filter Scalar.truthy

/-- What discovery owes one keyless provider: it keeps a configured list, and with it the
decisions of the context filter, and sets an empty one to the discovered names. -/
structure KeepsModels (lib : Libraries) (p : Provider) (answer : Except TransportError HttpAnswer)
    (after : Provider) : Prop where
  configured : p.config.models ≠ [] → after.config.models = p.config.models
  context : p.config.models ≠ [] → ∀ model tokens,
    contextExceeded after model tokens = contextExceeded p model tokens
  discovered : p.config.models = [] →
    DistinctInOrder (discoveredNames lib p answer) (after.config.models.map ModelSpec.name)

/-- Nothing in a configured list is lost when it is rebuilt from its names. -/
def Rebuildable (models : List ModelSpec) : Prop :=
  (∀ spec ∈ models, spec = { name := spec.name } ∧ spec.name.truthy = true) ∧
    ((models.map ModelSpec.name).map Scalar.key).Nodup

def DiscoverySafe (lib : Libraries) (p : Provider) (answer : Except TransportError HttpAnswer) :
    Prop :=
  p.health ≠ .unavailable →
    if p.config.models ≠ [] then Rebuildable p.config.models
    else (∀ id ∈ listModels lib p.config answer, (Json.asKey id).isSome) ∨
      discoveredNames lib p answer = []

section rebuild
variable {p : Provider}

theorem mapM_asKey_names (models : List ModelSpec) :
    (models.map fun m => Json.scalar m.name).mapM Json.asKey = some (models.map ModelSpec.name) := by
  induction models with
  | nil => rfl
  | cons m rest ih => simp [ih, Json.asKey]

theorem specsOf_names (names : List Scalar) :
    (specsOf names).map ModelSpec.name = (fromKeys [] names).filter Scalar.truthy := by
  rw [specsOf, List.map_map]
  exact List.map_id _

variable (p) in
theorem replaceModels_models {models : List Json} (nonempty : models.isEmpty = false) :
    (replaceModels p models).config.models =
      match models.mapM Json.asKey with
      | none => p.config.models
      | some names => specsOf names := by
  unfold replaceModels
  rw [nonempty]
  cases models.mapM Json.asKey <;> rfl

theorem discoverModels_asked {lib : Libraries} {answer : Except TransportError HttpAnswer}
    (keyless : p.config.providerType = .keyless) (asked : p.health ≠ .unavailable) :
    discoverModels lib p answer = replaceModels p (listModels lib p.config answer) := by
  simp [discoverModels, keyless, asked]

theorem specsOf_eq_iff (models : List ModelSpec) :
    specsOf (models.map ModelSpec.name) = models ↔ Rebuildable models := by
  constructor
  · intro same
    refine ⟨?_, ?_⟩
    · intro spec member
      rw [← same] at member
      obtain ⟨name, kept, rfl⟩ := List.mem_map.mp member
      exact ⟨rfl, (List.mem_filter.mp kept).2⟩
    · have names : (fromKeys [] (models.map ModelSpec.name)).filter Scalar.truthy =
          models.map ModelSpec.name := by
        conv_rhs => rw [← same]
        rw [specsOf_names]
      have kept : (models.map ModelSpec.name).Sublist (fromKeys [] (models.map ModelSpec.name)) := by
        conv_lhs => rw [← names]
        exact List.filter_sublist
      exact (fromKeys_distinct [] _).sublist (kept.map _)
  · rintro ⟨plain, distinct⟩
    have kept : fromKeys [] (models.map ModelSpec.name) = models.map ModelSpec.name :=
      fromKeys_eq_self distinct (fun _ _ => List.not_mem_nil)
    have nonempty : (models.map ModelSpec.name).filter Scalar.truthy = models.map ModelSpec.name := by
      rw [List.filter_eq_self]
      intro name member
      obtain ⟨spec, inList, rfl⟩ := List.mem_map.mp member
      exact (plain spec inList).2
    rw [specsOf, kept, nonempty, List.map_map]
    refine (List.map_congr_left fun spec member => ?_).trans (List.map_id _)
    exact (plain spec member).1.symm

end rebuild

variable {lib : Libraries} {p : Provider} {answer : Except TransportError HttpAnswer}

variable (lib answer) in
/-- A provider with a configured list keeps it exactly if the list survives the rebuild. -/
theorem discoverModels_configured (keyless : p.config.providerType = .keyless)
    (asked : p.health ≠ .unavailable) (listed : p.config.models ≠ []) :
    (discoverModels lib p answer).config.models = p.config.models ↔
      Rebuildable p.config.models := by
  have names : listModels lib p.config answer = p.config.models.map fun m => .scalar m.name := by
    unfold listModels
    rw [if_pos listed]
  have nonempty : (p.config.models.map fun m => Json.scalar m.name).isEmpty = false := by
    simpa using listed
  rw [discoverModels_asked keyless asked, names, replaceModels_models p nonempty, mapM_asKey_names]
  exact specsOf_eq_iff _

/-- A provider without a list gets the discovered names exactly if none of the ids breaks
the dictionary, or there is no name to lose. -/
theorem discoverModels_empty (keyless : p.config.providerType = .keyless)
    (asked : p.health ≠ .unavailable) (unlisted : p.config.models = []) :
    DistinctInOrder (discoveredNames lib p answer)
        ((discoverModels lib p answer).config.models.map ModelSpec.name) ↔
      (∀ id ∈ listModels lib p.config answer, (Json.asKey id).isSome) ∨
        discoveredNames lib p answer = [] := by
  have names : discoveredNames lib p answer =
      ((listModels lib p.config answer).filterMap Json.asKey).filter Scalar.truthy := by
    rw [discoveredNames, if_neg asked]
  have nothing : DistinctInOrder [] [] := ⟨.slnil, List.nodup_nil, by simp⟩
  -- an empty result is right only where there is no name
  have lost : DistinctInOrder (discoveredNames lib p answer) [] ↔ discoveredNames lib p answer = [] := by
    constructor
    · intro order
      cases listed : discoveredNames lib p answer with
      | nil => rfl
      | cons m rest => exact absurd (order.first [] m rest listed (by simp)) List.not_mem_nil
    · intro empty
      rw [empty]
      exact nothing
  by_cases empty : (listModels lib p.config answer).isEmpty
  · have none_listed : listModels lib p.config answer = [] := List.isEmpty_iff.mp empty
    have kept : (discoverModels lib p answer).config.models = [] := by
      rw [discoverModels_asked keyless asked, none_listed]
      exact unlisted
    rw [kept, List.map_nil, lost]
    simp [none_listed, names]
  · have models := replaceModels_models p (Bool.eq_false_of_not_eq_true empty)
    -- a list with an entry that cannot be a key is given up as a whole
    rw [PartialList.mapM_eq] at models
    rw [discoverModels_asked keyless asked]
    by_cases all : ∀ id ∈ listModels lib p.config answer, (Json.asKey id).isSome
    · rw [if_pos all] at models
      rw [models, specsOf_names, names]
      exact ⟨fun _ => .inl all, fun _ => distinctInOrder_fromKeys _⟩
    · rw [if_neg all] at models
      rw [models, unlisted, List.map_nil, lost]
      exact ⟨.inr, fun h => h.resolve_left all⟩

theorem keepsModels_iff (keyless : p.config.providerType = .keyless) :
    KeepsModels lib p answer (discoverModels lib p answer) ↔
      DiscoverySafe lib p answer := by
  by_cases asked : p.health = .unavailable
  · have skipped : discoverModels lib p answer = p := by simp [discoverModels, asked]
    have none_asked : discoveredNames lib p answer = [] := by simp [discoveredNames, asked]
    simp only [DiscoverySafe, asked, ne_eq, not_true_eq_false, false_implies, iff_true, skipped]
    refine ⟨fun _ => rfl, fun _ _ _ => rfl, fun unlisted => ?_⟩
    rw [none_asked, unlisted]
    exact ⟨.slnil, List.nodup_nil, by simp⟩
  · by_cases listed : p.config.models = []
    · have condition : DiscoverySafe lib p answer ↔
          (∀ id ∈ listModels lib p.config answer, (Json.asKey id).isSome) ∨
            discoveredNames lib p answer = [] := by
        simp [DiscoverySafe, asked, listed]
      rw [condition, ← discoverModels_empty keyless asked listed]
      constructor
      · intro keeps
        exact keeps.discovered listed
      · intro order
        exact ⟨fun some_listed => absurd listed some_listed,
          fun some_listed => absurd listed some_listed, fun _ => order⟩
    · have condition : DiscoverySafe lib p answer ↔ Rebuildable p.config.models := by
        simp [DiscoverySafe, asked, listed]
      rw [condition, ← discoverModels_configured lib answer keyless asked listed]
      constructor
      · intro keeps
        exact keeps.configured listed
      · intro same
        refine ⟨fun _ => same, fun _ model tokens => ?_, fun unlisted => absurd unlisted listed⟩
        simp only [contextExceeded, Provider.modelSpec, same]

theorem discoverKeylessModels_provider (answers : String → Except TransportError HttpAnswer)
    (r : ProviderRegistry) {name : String} (member : name ∈ r.names) :
    (discoverKeylessModels lib answers r).provider name =
      discoverModels lib (r.provider name) (answers name) := by
  have loop : ∀ (names : List String) (r : ProviderRegistry), names.Nodup →
      (names.foldl (fun r name => r.modify name fun p => discoverModels lib p (answers name)) r).provider
        name = if name ∈ names then discoverModels lib (r.provider name) (answers name)
          else r.provider name := by
    intro names
    induction names with
    | nil => simp
    | cons first rest ih =>
        intro r distinct
        rw [List.nodup_cons] at distinct
        rw [List.foldl_cons, ih _ distinct.2]
        by_cases same : name = first
        · subst same
          rw [if_neg distinct.1, if_pos List.mem_cons_self, ProviderRegistry.modify_provider_self]
        · rw [r.modify_provider_other _ same]
          simp [same]
  rw [discoverKeylessModels, loop r.names r r.nodup, if_pos member]

/-- Discovery keeps every configured list and sets every other one to the discovered names,
if and only if each keyless provider it asks has a list that survives being rebuilt from its
names, or an endpoint whose ids can all be keys. -/
theorem discovery_keeps_models_iff (lib : Libraries)
    (answers : String → Except TransportError HttpAnswer) (r : ProviderRegistry) :
    (∀ name ∈ r.names, (r.provider name).config.providerType = .keyless →
        KeepsModels lib (r.provider name) (answers name)
          ((discoverKeylessModels lib answers r).provider name)) ↔
      ∀ name ∈ r.names, (r.provider name).config.providerType = .keyless →
        DiscoverySafe lib (r.provider name) (answers name) := by
  refine forall_congr' fun name => forall_congr' fun member => forall_congr' fun keyless => ?_
  rw [discoverKeylessModels_provider answers r member]
  exact keepsModels_iff keyless

/-- An administrator's entry with a longer context. -/
def Demo.longContext : ProviderConfig :=
  { Demo.config [] 10 with models := [{ name := .str "m", contextLength := 131072 }] }

theorem discovery_resets_context_length :
    ¬ ∀ name ∈ ["a"], (Provider.fresh Demo.longContext).config.providerType = .keyless →
      KeepsModels Demo.libraries (Provider.fresh Demo.longContext) (.error .other)
        ((discoverKeylessModels Demo.libraries (fun _ => .error .other)
          { names := ["a"], nodup := by decide, provider := fun _ => .fresh Demo.longContext }).provider
            name) := by
  intro all
  have kept := (all "a" (by decide) rfl).configured (by decide)
  have rebuilt : ((discoverKeylessModels Demo.libraries (fun _ => .error .other)
      { names := ["a"], nodup := by decide, provider := fun _ => .fresh Demo.longContext }).provider
        "a").config.models ≠ (Provider.fresh Demo.longContext).config.models := by
    decide +kernel
  exact rebuilt kept

end Noxis
