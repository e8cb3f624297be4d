import Noxis.Discovery

/-! What discovery makes of a model list in either of the two shapes that the adapter is
written for: an object with a `data` array, and a bare array. -/
namespace Noxis

/-- The name of an item that is a string or an object with a string id. -/
def itemName? : Json → Option String
  | .scalar (.str s) => some s
  | .obj members =>
      match Json.member? members "id" with
      | some (.scalar (.str s)) => some s
      | _ => none
  | _ => none

/-- A model list: the document is an object whose `data` member is the array of the items, or
that array itself, and every item has a name. -/
structure ModelList where
  body : Json
  items : List Json
  shape : (∃ members, body = .obj members ∧ Json.member? members "data" = some (.arr items)) ∨
    body = .arr items
  named : ∀ item ∈ items, (itemName? item).isSome

def ModelList.names (l : ModelList) : List String := l.items.filterMap itemName?

/-- An answer with a status of the 200 range that carries the list. -/
structure ListAnswer (lib : Libraries) (l : ModelList) where
  answer : HttpAnswer
  success : 200 ≤ answer.status ∧ answer.status < 300
  loads : answer.json lib = .ok l.body

/-- What the provider should have of the list: its names in order; after discovery, if it is
asked, the distinct non-empty ones; and then an alias resolves to one of them. -/
structure ReadsModelList (lib : Libraries) (p : Provider) (answer : HttpAnswer)
    (names : List String) (after : Provider) : Prop where
  listed : listModels lib p.config (.ok answer) = names.map Json.str
  stored : p.config.providerType = .keyless → p.health ≠ .unavailable →
    DistinctInOrder ((names.filter (fun n => n ≠ "")).map Scalar.str)
      (after.config.models.map ModelSpec.name)
  resolves : p.config.providerType = .keyless → p.health ≠ .unavailable →
    (∃ n ∈ names, n ≠ "") → ∀ requested, isAlias requested = true →
      ∃ n ∈ names, n ≠ "" ∧ resolveModelForProvider after requested = some (.str n)

section reading
variable {lib : Libraries} (str : ∀ s, lib.str (Json.str s) = s)
include str

/-- A named item is listed under its name. -/
theorem itemId_named {item : Json} {name : String} (named : itemName? item = some name) :
    itemId lib item = .str name := by
  cases item with
  | scalar v =>
      cases v with
      | str s =>
          obtain rfl := Option.some.inj named
          exact congrArg Json.str (str s)
      | _ => cases named
  | arr items => cases named
  | obj members =>
      simp only [itemName?] at named
      split at named
      · next found =>
        obtain rfl := Option.some.inj named
        simp [itemId, Json.get, found]
      · cases named

theorem map_itemId {items : List Json} (named : ∀ item ∈ items, (itemName? item).isSome) :
    items.map (itemId lib) = (items.filterMap itemName?).map Json.str := by
  induction items with
  | nil => rfl
  | cons item rest ih =>
      obtain ⟨name, found⟩ := Option.isSome_iff_exists.mp (named item List.mem_cons_self)
      rw [List.filterMap_cons_some found, List.map_cons, List.map_cons, itemId_named str found,
        ih fun other later => named other (List.mem_cons_of_mem item later)]

variable {p : Provider} (unlisted : p.config.models = []) {l : ModelList} (a : ListAnswer lib l)
include unlisted

/-- The names come out exactly where the document is an object, or names nothing. -/
theorem listModels_iff :
    listModels lib p.config (.ok a.answer) = l.names.map Json.str ↔
      (∃ members, l.body = .obj members) ∨ l.items = [] := by
  have accepted : ¬ 400 ≤ a.answer.status := by
    have below := a.success.2
    omega
  have read : listModels lib p.config (.ok a.answer) =
      ((modelItems l.body).map (List.map (itemId lib))).getD [] := by
    simp only [listModels, unlisted, ne_eq, not_true_eq_false, if_false, accepted, a.loads]
    cases modelItems l.body <;> rfl
  have names := map_itemId str l.named
  rw [read, ModelList.names, ← names]
  rcases l.shape with ⟨members, body, data⟩ | body
  · refine iff_of_true ?_ (.inl ⟨members, body⟩)
    have items : modelItems l.body = some l.items := by
      simp [body, modelItems, Json.get, data]
    rw [items]
    rfl
  · rw [body]
    have no_get : modelItems (.arr l.items) = none := rfl
    rw [no_get]
    constructor
    · intro empty
      exact .inr (List.map_eq_nil_iff.mp empty.symm)
    · rintro (⟨members, other⟩ | empty)
      · cases other
      · rw [empty]
        rfl

omit str in
/-- Names that were listed are stored, and an alias resolves to the first of them. -/
theorem stores_listed (listed : listModels lib p.config (.ok a.answer) = l.names.map Json.str) :
    ReadsModelList lib p a.answer l.names (discoverModels lib p (.ok a.answer)) := by
  have stored : p.config.providerType = .keyless → p.health ≠ .unavailable →
      DistinctInOrder ((l.names.filter (fun n => n ≠ "")).map Scalar.str)
        ((discoverModels lib p (.ok a.answer)).config.models.map ModelSpec.name) := by
    intro keyless asked
    have keys : ∀ names : List String,
        ((names.map Json.str).filterMap Json.asKey).filter Scalar.truthy =
          (names.filter (fun n => n ≠ "")).map Scalar.str := by
      intro names
      have scalars : (names.map Json.str).filterMap Json.asKey = names.map Scalar.str := by
        rw [List.filterMap_map, ← List.filterMap_eq_map]
        rfl
      rw [scalars, List.filter_map]
      rfl
    have discovered : discoveredNames lib p (.ok a.answer) =
        (l.names.filter (fun n => n ≠ "")).map Scalar.str := by
      rw [discoveredNames, if_neg asked, listed, keys]
    rw [← discovered]
    apply (discoverModels_empty keyless asked unlisted).mpr
    left
    rw [listed]
    intro id member
    obtain ⟨name, -, rfl⟩ := List.mem_map.mp member
    rfl
  refine ⟨listed, stored, ?_⟩
  intro keyless asked some_name requested isAlias
  have order := stored keyless asked
  generalize discoverModels lib p (.ok a.answer) = after at order ⊢
  cases models : after.config.models with
  | nil =>
      obtain ⟨n, member, nonempty⟩ := some_name
      rw [models] at order
      have kept : n ∈ l.names.filter (fun n => n ≠ "") :=
        List.mem_filter.mpr ⟨member, decide_eq_true nonempty⟩
      cases wanted : (l.names.filter (fun n => n ≠ "")).map Scalar.str with
      | nil =>
          rw [List.map_eq_nil_iff.mp wanted] at kept
          exact absurd kept List.not_mem_nil
      | cons m rest =>
          have found := order.first [] m rest wanted List.not_mem_nil
          exact absurd found List.not_mem_nil
  | cons spec rest =>
      rw [models] at order
      obtain ⟨n, member, same⟩ := List.mem_map.mp
        (order.sublist.subset (List.mem_map_of_mem List.mem_cons_self))
      obtain ⟨listed_name, nonempty⟩ := List.mem_filter.mp member
      refine ⟨n, listed_name, of_decide_eq_true nonempty, ?_⟩
      simp [resolveModelForProvider, isAlias, models, same]

end reading

/-- A provider without configured models gets all that a model list names exactly if the list
is an object with a `data` array, or is empty. -/
theorem model_list_read_iff {lib : Libraries} (str : ∀ s, lib.str (Json.str s) = s)
    (r : ProviderRegistry) {name : String} (member : name ∈ r.names)
    (unlisted : (r.provider name).config.models = []) (l : ModelList) (a : ListAnswer lib l)
    (answers : String → Except TransportError HttpAnswer) (answered : answers name = .ok a.answer) :
    ReadsModelList lib (r.provider name) a.answer l.names
        ((discoverKeylessModels lib answers r).provider name) ↔
      (∃ members, l.body = .obj members) ∨ l.items = [] := by
  rw [discoverKeylessModels_provider answers r member, answered, ← listModels_iff str unlisted a]
  exact ⟨fun reads => reads.listed, stores_listed unlisted a⟩

/-- The reader of two documents that list one model. -/
def Demo.listReader : Libraries :=
  { Demo.libraries with
    loads := fun text =>
      if text = "[\"model-a\"]" then .ok (.arr [.str "model-a"])
      else if text = "\x7b\"data\": [\"model-a\"]\x7d" then
        .ok (.obj [("data", .arr [.str "model-a"])])
      else .error .decode
    str := fun
      | .scalar (.str s) => s
      | _ => "" }

def Demo.unlisted : ProviderRegistry :=
  { names := ["a"], nodup := by decide, provider := fun _ => .fresh (Demo.config [] 6) }

theorem model_list_read_iff_data_member :
    ReadsModelList Demo.listReader (Demo.unlisted.provider "a")
      (Demo.page "\x7b\"data\": [\"model-a\"]\x7d") ["model-a"]
      ((discoverKeylessModels Demo.listReader
        (fun _ => .ok (Demo.page "\x7b\"data\": [\"model-a\"]\x7d"))
        Demo.unlisted).provider "a") := by
  let l : ModelList :=
    { body := .obj [("data", .arr [.str "model-a"])], items := [.str "model-a"],
      shape := .inl ⟨_, rfl, rfl⟩, named := by simp [itemName?] }
  let a : ListAnswer Demo.listReader l :=
    { answer := Demo.page "\x7b\"data\": [\"model-a\"]\x7d"
      success := by decide
      loads := by simp [HttpAnswer.json, Demo.page, Demo.listReader, l] }
  have str : ∀ s, Demo.listReader.str (Json.str s) = s := fun _ => rfl
  have member : "a" ∈ Demo.unlisted.names := by decide
  exact (model_list_read_iff str Demo.unlisted member rfl l a _ rfl).mpr (.inl ⟨_, rfl⟩)

/-- A bare array is not read: nothing is listed, and the provider stays without models. -/
theorem bare_array_not_read :
    let answer := Demo.page "[\"model-a\"]"
    answer.json Demo.listReader = .ok (.arr [.str "model-a"]) ∧
      ¬ ReadsModelList Demo.listReader (Demo.unlisted.provider "a") answer ["model-a"]
        ((discoverKeylessModels Demo.listReader (fun _ => .ok answer) Demo.unlisted).provider "a") := by
  intro answer
  refine ⟨by simp [HttpAnswer.json, Demo.page, Demo.listReader, answer], fun reads => ?_⟩
  have lengths := congrArg List.length reads.listed
  have nothing : (listModels Demo.listReader (Demo.unlisted.provider "a").config (.ok answer)).length =
      0 := by decide
  rw [nothing] at lengths
  exact absurd lengths (by decide)

end Noxis
