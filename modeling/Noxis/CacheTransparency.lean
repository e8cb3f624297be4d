import Noxis.Cache

/-! Transparency of the cache. The key is built from twelve fields, the upstream payload from
all of them, so two requests that differ in `n` or `logit_bias` only share an entry. -/
namespace Noxis

namespace Json

theorem sortMembers_eq_map (members : List (String × Json)) :
    sortMembers members = members.map fun m => (m.1, m.2.sortKeys) := by
  induction members with
  | nil => rfl
  | cons m rest ih => rw [sortMembers, ih, List.map_cons]

@[simp] theorem isNull_sortKeys (v : Json) : v.sortKeys.isNull = v.isNull := by
  cases v <;> rfl

theorem mem_sortKeys {members : List (String × Json)} {sorted : List (String × Json)}
    (eq : sortKeys (.obj members) = .obj sorted) (name : String) (v : Json) :
    (name, v) ∈ sorted ↔ ∃ w, (name, w) ∈ members ∧ w.sortKeys = v := by
  obtain rfl := Json.obj.inj eq
  rw [List.mem_insertionSort, sortMembers_eq_map]
  simp

/-- Dictionaries with the members of two families, as far as these are kept, are equal if and
only if the members are. -/
theorem sortKeys_family_iff {names : List String} {f f' : String → Json} (keep : Json → Bool)
    (sorted : ∀ v, keep v.sortKeys = keep v)
    (absent : ∀ v w : Json, keep v = false → keep w = false → v.sortKeys = w.sortKeys) :
    sortKeys (.obj ((names.map fun name => (name, f name)).filter fun m => keep m.2)) =
        sortKeys (.obj ((names.map fun name => (name, f' name)).filter fun m => keep m.2)) ↔
      ∀ name ∈ names, (f name).sortKeys = (f' name).sortKeys := by
  have member : ∀ (g : String → Json) (name : String) (v : Json),
      (∃ w, (name, w) ∈ (names.map fun name => (name, g name)).filter (fun m => keep m.2) ∧
        w.sortKeys = v) ↔ name ∈ names ∧ keep (g name) = true ∧ (g name).sortKeys = v := by
    intro g name v
    constructor
    · rintro ⟨w, inList, rfl⟩
      obtain ⟨inMap, kept⟩ := List.mem_filter.mp inList
      obtain ⟨other, inNames, eq⟩ := List.mem_map.mp inMap
      obtain ⟨rfl, rfl⟩ := Prod.mk.inj eq
      exact ⟨inNames, kept, rfl⟩
    · rintro ⟨inNames, kept, rfl⟩
      exact ⟨g name, List.mem_filter.mpr ⟨List.mem_map.mpr ⟨name, inNames, rfl⟩, kept⟩, rfl⟩
  constructor
  · intro same name inNames
    have both : ∀ v, (keep (f name) = true ∧ (f name).sortKeys = v) ↔
        (keep (f' name) = true ∧ (f' name).sortKeys = v) := by
      intro v
      have first := mem_sortKeys (rfl : sortKeys (.obj ((names.map fun name => (name, f name)).filter
        fun m => keep m.2)) = .obj _) name v
      have second := mem_sortKeys same.symm name v
      rw [member] at first second
      have := first.symm.trans second
      simpa [inNames] using this
    cases kept : keep (f name) with
    | true => exact (((both _).mp ⟨kept, rfl⟩).2).symm
    | false =>
        cases kept' : keep (f' name) with
        | true => exact ((both _).mpr ⟨kept', rfl⟩).2
        | false => exact absent _ _ kept kept'
  · intro same
    simp only [sortKeys, sortMembers_eq_map]
    congr 2
    rw [List.filter_map, List.filter_map, List.map_map, List.map_map]
    have kept : names.filter ((fun m : String × Json => keep m.2) ∘ fun name => (name, f name)) =
        names.filter ((fun m : String × Json => keep m.2) ∘ fun name => (name, f' name)) := by
      refine List.filter_congr fun name inNames => ?_
      have eq := same name inNames
      simp only [Function.comp_apply]
      rw [← sorted, eq, sorted]
    rw [kept]
    refine List.map_congr_left fun name inKept => ?_
    simp only [Function.comp_apply]
    rw [same name (List.mem_of_mem_filter inKept)]

theorem get_eq_null_of_absent {members : List (String × Json)} {name : String}
    (absent : name ∉ members.map Prod.fst) : Json.get members name .null = .null := by
  have noMember : members.find? (fun m => m.1 = name) = none := by
    rw [List.find?_eq_none]
    intro m inMembers same
    exact absent (List.mem_map.mpr ⟨m, inMembers, of_decide_eq_true same⟩)
  rw [Json.get, member?, noMember]
  rfl

theorem isNull_iff {v : Json} : v.isNull = true ↔ v = .null := by
  constructor
  · intro null
    match v, null with
    | .scalar .none, _ => rfl
  · rintro rfl
    rfl

/-- A dropped null reads as the default null. -/
theorem get_excludeNone {members : List (String × Json)} (distinct : (members.map Prod.fst).Nodup)
    (name : String) : Json.get (excludeNone members) name .null = Json.get members name .null := by
  induction members with
  | nil => rfl
  | cons m rest ih =>
      obtain ⟨fresh, distinct⟩ := List.nodup_cons.mp distinct
      have ih := ih distinct
      by_cases here : m.1 = name
      · subst here
        have inAll : Json.get (m :: rest) m.1 .null = m.2 := by simp [Json.get, member?]
        rw [inAll]
        cases null : m.2.isNull with
        | true =>
            have dropped : excludeNone (m :: rest) = excludeNone rest := by simp [excludeNone, null]
            rw [dropped, ih, get_eq_null_of_absent fresh, isNull_iff.mp null]
        | false => simp [Json.get, member?, excludeNone, null]
      · have later : ∀ tail : List (String × Json),
            Json.get (m :: tail) name .null = Json.get tail name .null := by
          intro tail
          simp [Json.get, member?, here]
        rw [later, ← ih]
        cases null : m.2.isNull with
        | true => simp [excludeNone, null]
        | false =>
            have kept : excludeNone (m :: rest) = m :: excludeNone rest := by
              simp [excludeNone, null]
            rw [kept, later]

end Json

namespace ChatCompletionRequest

/-- A field as the key and the payload write it, null where it is `None`. -/
def param (r : ChatCompletionRequest) (name : String) : Json :=
  (Json.get r.fields name .null).sortKeys

def SameFields (names : List String) (r r' : ChatCompletionRequest) : Prop :=
  ∀ name ∈ names, r.param name = r'.param name

/-- The upstream payload of a non-streaming call, apart from the user field. -/
def upstream (r : ChatCompletionRequest) : List (String × Json) :=
  (r.requestPayload false).filter fun m => m.1 ≠ "user"

/-- Dictionaries compare equal whatever the order of their members. -/
def SamePayload (r r' : ChatCompletionRequest) : Prop :=
  (Json.obj r.upstream).sortKeys = (Json.obj r'.upstream).sortKeys

/-- The generation parameters: every field of the schema but `stream` and `user`. -/
def generationFields : List String :=
  ["model", "messages", "temperature", "top_p", "n", "stop", "max_tokens", "presence_penalty",
    "frequency_penalty", "logit_bias", "tools", "tool_choice", "response_format", "seed"]

theorem fields_names (r : ChatCompletionRequest) :
    r.fields.map Prod.fst = ["model", "messages", "temperature", "top_p", "n", "stream", "stop",
      "max_tokens", "presence_penalty", "frequency_penalty", "logit_bias", "user", "tools",
      "tool_choice", "response_format", "seed"] := rfl

theorem get_modelDump (r : ChatCompletionRequest) (name : String) :
    Json.get r.modelDump name .null = Json.get r.fields name .null :=
  Json.get_excludeNone (by rw [fields_names]; decide) name

theorem relevant_modelDump (r : ChatCompletionRequest) :
    relevant r.modelDump =
      .obj ((keyFields.map fun name => (name, Json.get r.fields name .null)).filter
        fun _ => true) := by
  rw [relevant, List.filter_true]
  simp only [get_modelDump]

/-- The key distinguishes requests by exactly the fields it lists. -/
theorem relevant_eq_iff {r r' : ChatCompletionRequest} :
    (relevant r.modelDump).sortKeys = (relevant r'.modelDump).sortKeys ↔
      SameFields keyFields r r' := by
  rw [relevant_modelDump, relevant_modelDump]
  exact Json.sortKeys_family_iff (fun _ => true) (fun _ => rfl) (by simp)

/-- What `upstream` holds: the request's own parameters, and the constant `stream`. -/
def sent (r : ChatCompletionRequest) (name : String) : Json :=
  if name = "stream" then .scalar (.bool false) else Json.get r.fields name .null

theorem upstream_eq (r : ChatCompletionRequest) :
    r.upstream = ((generationFields ++ ["stream"]).map fun name => (name, r.sent name)).filter
      fun m => !m.2.isNull := by
  have parameters : r.fields.filter (fun m => m.1 ≠ "stream" ∧ m.1 ≠ "user") =
      generationFields.map fun name => (name, r.sent name) := by
    simp [fields, generationFields, sent, Json.get, Json.member?]
  have dumped : (r.modelDump.filter fun m => m.1 ≠ "stream").filter (fun m => m.1 ≠ "user") =
      (generationFields.map fun name => (name, r.sent name)).filter fun m => !m.2.isNull := by
    rw [← parameters, modelDump, Json.excludeNone]
    simp only [List.filter_filter]
    refine List.filter_congr fun m _ => ?_
    by_cases m.1 = "stream" <;> by_cases m.1 = "user" <;> simp_all
  rw [upstream, requestPayload, List.filter_append, dumped, List.map_append, List.filter_append]
  rfl

theorem samePayload_iff {r r' : ChatCompletionRequest} :
    SamePayload r r' ↔ SameFields generationFields r r' := by
  rw [SamePayload, upstream_eq, upstream_eq]
  refine (Json.sortKeys_family_iff (fun v => !v.isNull) (by simp) ?_).trans ?_
  · intro v w dropped dropped'
    obtain rfl := Json.isNull_iff.mp ((Bool.not_eq_false' v.isNull).mp dropped)
    obtain rfl := Json.isNull_iff.mp ((Bool.not_eq_false' w.isNull).mp dropped')
    rfl
  · have own : ∀ (q : ChatCompletionRequest), ∀ name ∈ generationFields,
        (q.sent name).sortKeys = q.param name := by
      intro q name inFields
      have : name ≠ "stream" := by rintro rfl; revert inFields; decide
      rw [sent, if_neg this, param]
    constructor
    · intro same name inFields
      rw [← own r name inFields, ← own r' name inFields]
      exact same name (List.mem_append_left _ inFields)
    · intro same name inNames
      rcases List.mem_append.mp inNames with inFields | inFields
      · rw [own r name inFields, own r' name inFields, same name inFields]
      · obtain rfl := List.mem_singleton.mp inFields
        rfl

theorem n_eq_of_samePayload {r r' : ChatCompletionRequest} (same : r.SamePayload r') :
    r.n = r'.n := by
  have written : ∀ q : ChatCompletionRequest,
      q.param "n" = Json.ofOption (fun n : ℕ => .ofInt n) q.n := by
    intro q
    have found : q.param "n" = (Json.ofOption (fun n : ℕ => .ofInt n) q.n).sortKeys := by
      simp [param, fields, Json.get, Json.member?]
    rw [found]
    cases q.n <;> rfl
  have eq := samePayload_iff.mp same "n" (by decide)
  rw [written, written] at eq
  cases first : r.n <;> cases second : r'.n <;>
    simp_all [Json.ofOption, Json.ofInt]

/-- Equal keyed fields leave only `n` and `logit_bias` open. -/
theorem samePayload_of_keyed {r r' : ChatCompletionRequest} (keyed : SameFields keyFields r r') :
    SamePayload r r' ↔ SameFields ["n", "logit_bias"] r r' := by
  rw [samePayload_iff]
  constructor
  · intro same name unkeyed
    have listed : ∀ other ∈ ["n", "logit_bias"], other ∈ generationFields := by decide
    exact same name (listed name unkeyed)
  · intro unkeyed name inFields
    by_cases unlisted : name ∈ ["n", "logit_bias"]
    · exact unkeyed name unlisted
    · have : ∀ other ∈ generationFields, other ∉ ["n", "logit_bias"] → other ∈ keyFields := by
        decide
      exact keyed name (this name inFields unlisted)

end ChatCompletionRequest

def CacheAction.request? : CacheAction → Option ChatCompletionRequest
  | .arrive r => some r
  | _ => none

def arrivals (ts : List CacheTransition) : List ChatCompletionRequest :=
  ts.filterMap fun t => t.action.request?

theorem arrivals_snoc (ts : List CacheTransition) (t : CacheTransition) :
    arrivals (ts ++ [t]) = arrivals ts ++ arrivals [t] := by
  simp [arrivals, List.filterMap_append]

theorem mem_arrivals_snoc {ts : List CacheTransition} (t : CacheTransition)
    {r : ChatCompletionRequest} (before : r ∈ arrivals ts) : r ∈ arrivals (ts ++ [t]) := by
  rw [arrivals_snoc]
  exact List.mem_append_left _ before

theorem mem_arrivals_of_arrive {ts : List CacheTransition} {t : CacheTransition}
    {r : ChatCompletionRequest} (now : t.action = .arrive r) : r ∈ arrivals (ts ++ [t]) := by
  rw [arrivals_snoc]
  exact List.mem_append_right _ (by simp [arrivals, now, CacheAction.request?])

theorem mem_arrivals_of_prefix {past later : List CacheTransition} {r : ChatCompletionRequest}
    (before : r ∈ arrivals past) : r ∈ arrivals (past ++ later) := by
  rw [arrivals, List.filterMap_append]
  exact List.mem_append_left _ before

namespace CacheLibraries

/-- The writer and the digest confuse no two of these requests' key dictionaries. -/
structure CollisionFree (lib : CacheLibraries) (requests : List ChatCompletionRequest) : Prop where
  write : Set.InjOn lib.write {d | ∃ r ∈ requests, d = (relevant r.modelDump).sortKeys}
  sha256 : Set.InjOn lib.sha256
    {blob | ∃ r ∈ requests, blob = lib.write (relevant r.modelDump).sortKeys}

end CacheLibraries

namespace CacheSettings

variable {c : CacheSettings}

theorem keyOf_eq_iff {requests : List ChatCompletionRequest} (free : c.lib.CollisionFree requests)
    {r r' : ChatCompletionRequest} (known : r ∈ requests) (known' : r' ∈ requests) :
    c.keyOf r = c.keyOf r' ↔ ChatCompletionRequest.SameFields keyFields r r' := by
  rw [← ChatCompletionRequest.relevant_eq_iff]
  constructor
  · intro same
    have blobs := free.sha256 ⟨r, known, rfl⟩ ⟨r', known', rfl⟩ same
    exact free.write ⟨r, known, rfl⟩ ⟨r', known', rfl⟩ blobs
  · intro same
    rw [keyOf, keyOf, buildCacheKey, buildCacheKey, same]

/-- A lookup finds a stored entry or drops entries only. -/
theorem get_cases (s : CacheState) (key : String) :
    (∃ store, (∀ key' e, store key' = some e → s.store key' = some e) ∧
      c.get s key = (none, { s with store })) ∨
    ∃ e, s.store key = some e ∧ c.get s key = (some e, s) := by
  cases found : s.store key with
  | none => exact .inl ⟨s.store, fun _ _ => id, by simp [get, found]⟩
  | some e =>
      cases late : c.expired s.now e with
      | true =>
          refine .inl ⟨Function.update s.store key none, fun key' e' kept => ?_,
            by simp [get, found, late]⟩
          by_cases same : key' = key
          · simp [same] at kept
          · simpa [Function.update_of_ne same] using kept
      | false => exact .inr ⟨e, rfl, by simp [get, found, late]⟩

variable (c) in
/-- What one step of the endpoint can do. -/
inductive Effect (s : CacheState) : CacheAction → CacheState → List CacheEvent → Prop
  | elapse (dt : ℚ≥0) : Effect s (.elapse dt) { s with now := s.now + dt } []
  | hit (r : ChatCompletionRequest) (e : CacheEntry) (stored : s.store (c.keyOf r) = some e) :
      Effect s (.arrive r) s [.served r (c.read e.value) e.producedFor]
  | miss (r : ChatCompletionRequest) (store : String → Option CacheEntry)
      (fewer : ∀ key e, store key = some e → s.store key = some e) :
      Effect s (.arrive r) { s with store, pending := s.pending ++ [(c.keyOf r, r)] } []
  | answered (i : ℕ) (response : Json) (key : String) (r : ChatCompletionRequest)
      (waiting : s.pending[i]? = some (key, r)) :
      Effect s (.answered i response)
        (c.set { s with pending := s.pending.eraseIdx i } key response r) [.produced r response]
  | failed (i : ℕ) : Effect s (.failed i) { s with pending := s.pending.eraseIdx i } []

theorem step_effect {s s' : CacheState} {a : CacheAction} {es : List CacheEvent}
    (stepped : c.step s a = some (s', es)) : Effect c s a s' es := by
  cases a with
  | elapse dt =>
      obtain ⟨rfl, rfl⟩ := Prod.mk.inj (Option.some.inj stepped)
      exact .elapse dt
  | arrive r =>
      simp only [step] at stepped
      split at stepped
      · cases stepped
      · rcases get_cases (c := c) s (c.keyOf r) with ⟨store, fewer, eq⟩ | ⟨e, found, eq⟩ <;>
          rw [eq] at stepped
        · obtain ⟨rfl, rfl⟩ := Prod.mk.inj (Option.some.inj stepped)
          exact .miss r store fewer
        · simp only at stepped
          split at stepped <;> obtain ⟨rfl, rfl⟩ := Prod.mk.inj (Option.some.inj stepped)
          · exact .miss r s.store fun _ _ => id
          · exact .hit r e found
  | answered i response =>
      obtain ⟨⟨key, r⟩, waiting, eq⟩ := Option.map_eq_some_iff.mp stepped
      obtain ⟨rfl, rfl⟩ := Prod.mk.inj eq
      exact .answered i response key r waiting
  | failed i =>
      obtain ⟨p, waiting, eq⟩ := Option.map_eq_some_iff.mp stepped
      obtain ⟨rfl, rfl⟩ := Prod.mk.inj eq
      exact .failed i

variable (c) in
/-- Every stored response was produced for a request of the past, under that request's key. -/
structure Accounted (past : List CacheTransition) (s : CacheState) : Prop where
  stored : ∀ key e, s.store key = some e → key = c.keyOf e.producedFor ∧
    e.producedFor ∈ arrivals past ∧ .produced e.producedFor e.value ∈ LabelledRun.eventsOf past
  pending : ∀ p ∈ s.pending, p.1 = c.keyOf p.2 ∧ p.2 ∈ arrivals past

theorem Accounted.step {past : List CacheTransition} {t : CacheTransition}
    (before : Accounted c past t.before) (valid : t.Valid c.step) :
    Accounted c (past ++ [t]) t.after := by
  have old : ∀ key e, t.before.store key = some e → key = c.keyOf e.producedFor ∧
      e.producedFor ∈ arrivals (past ++ [t]) ∧
      .produced e.producedFor e.value ∈ LabelledRun.eventsOf (past ++ [t]) := by
    intro key e found
    obtain ⟨own, arrived, produced⟩ := before.stored key e found
    rw [LabelledRun.eventsOf_snoc]
    exact ⟨own, mem_arrivals_snoc t arrived, List.mem_append_left _ produced⟩
  have waiting : ∀ p ∈ t.before.pending, p.1 = c.keyOf p.2 ∧ p.2 ∈ arrivals (past ++ [t]) := by
    intro p inPending
    obtain ⟨own, arrived⟩ := before.pending p inPending
    exact ⟨own, mem_arrivals_snoc t arrived⟩
  have fewer : ∀ i, ∀ p ∈ t.before.pending.eraseIdx i,
      p.1 = c.keyOf p.2 ∧ p.2 ∈ arrivals (past ++ [t]) :=
    fun i p inRest => waiting p (List.mem_of_mem_eraseIdx inRest)
  obtain ⟨s, a, es, s'⟩ := t
  have effect : Effect c s a s' es := step_effect valid
  cases effect with
  | elapse dt => exact ⟨old, waiting⟩
  | hit r e found => exact ⟨old, waiting⟩
  | miss r store kept =>
      refine ⟨fun key e found => old key e (kept key e found), fun p inPending => ?_⟩
      rcases List.mem_append.mp inPending with inPending | inPending
      · exact waiting p inPending
      · obtain rfl := List.mem_singleton.mp inPending
        exact ⟨rfl, mem_arrivals_of_arrive rfl⟩
  | answered i response key r found =>
      refine ⟨fun key' e stored => ?_, fewer i⟩
      by_cases same : key' = key
      · subst same
        have eq : some (CacheEntry.mk (s.now + c.ttl) response r) = some e := by
          simpa [set] using stored
        obtain rfl := Option.some.inj eq
        obtain ⟨own, arrived⟩ := waiting (key', r) (List.mem_of_getElem? found)
        refine ⟨own, arrived, ?_⟩
        rw [LabelledRun.eventsOf_snoc]
        exact List.mem_append_right _ (List.mem_singleton_self _)
      · exact old key' e (by simpa [set, Function.update_of_ne same] using stored)
  | failed i => exact ⟨old, fewer i⟩

theorem Accounted.run {t₀ : ℚ} {ts : List CacheTransition} {s : CacheState}
    (run : CacheRun c { now := t₀ } ts s) : Accounted c ts s := by
  refine LabelledRun.Run.invariant (Accounted c) ⟨?_, ?_⟩ ?_ run
  · intro key e found
    cases found
  · intro p inPending
    cases inPending
  · intro past t _ before valid
    exact before.step valid

variable (c) in
/-- Requests with one key have one payload, and a response served from the cache was produced
for a request of the past with that payload. -/
structure Transparent (ts : List CacheTransition) : Prop where
  keys : ∀ r ∈ arrivals ts, ∀ r' ∈ arrivals ts, c.keyOf r = c.keyOf r' → r.SamePayload r'
  hits : ∀ past t later, ts = past ++ t :: later → ∀ r value r',
    CacheEvent.served r value r' ∈ t.events → r' ∈ arrivals past ∧ r.SamePayload r' ∧
      ∃ response, .produced r' response ∈ LabelledRun.eventsOf past ∧ value = c.read response

end CacheSettings

/-- No two of the requests differ in `n` or `logit_bias` only. -/
def Unambiguous (requests : List ChatCompletionRequest) : Prop :=
  ∀ r ∈ requests, ∀ r' ∈ requests, r.SameFields keyFields r' → r.SameFields ["n", "logit_bias"] r'

/-- The cache is transparent in a history exactly if no two of its requests agree on the
keyed fields and differ in `n` or `logit_bias`. -/
theorem cache_transparent_iff (c : CacheSettings) (t₀ : ℚ) (ts : List CacheTransition)
    (s : CacheState) (run : CacheRun c { now := t₀ } ts s)
    (free : c.lib.CollisionFree (arrivals ts)) :
    c.Transparent ts ↔ Unambiguous (arrivals ts) := by
  constructor
  · intro transparent r known r' known' keyed
    have sameKey := (CacheSettings.keyOf_eq_iff free known known').mpr keyed
    exact (ChatCompletionRequest.samePayload_of_keyed keyed).mp
      (transparent.keys r known r' known' sameKey)
  · intro unambiguous
    have keys : ∀ r ∈ arrivals ts, ∀ r' ∈ arrivals ts, c.keyOf r = c.keyOf r' →
        r.SamePayload r' := by
      intro r known r' known' sameKey
      have keyed := (CacheSettings.keyOf_eq_iff free known known').mp sameKey
      exact (ChatCompletionRequest.samePayload_of_keyed keyed).mpr
        (unambiguous r known r' known' keyed)
    refine ⟨keys, fun past t later split r value r' served => ?_⟩
    obtain ⟨before, valid⟩ := run.split split
    have arrived : ∀ q, q ∈ arrivals (past ++ [t]) → q ∈ arrivals ts := by
      intro q known
      rw [split, List.append_cons]
      exact mem_arrivals_of_prefix known
    obtain ⟨s₁, a, es, s₂⟩ := t
    have effect : CacheSettings.Effect c s₁ a s₂ es := CacheSettings.step_effect valid
    cases effect with
    | hit q e found =>
        obtain ⟨rfl, rfl, rfl⟩ := CacheEvent.served.inj (List.mem_singleton.mp served)
        obtain ⟨own, earlier, produced⟩ := (CacheSettings.Accounted.run before).stored _ e found
        have payload := keys r (arrived r (mem_arrivals_of_arrive rfl)) e.producedFor
          (arrived _ (mem_arrivals_snoc _ earlier)) own
        exact ⟨earlier, payload, e.value, produced, rfl⟩
    | elapse => exact absurd served List.not_mem_nil
    | miss => exact absurd served List.not_mem_nil
    | answered => exact CacheEvent.noConfusion (List.mem_singleton.mp served)
    | failed => exact absurd served List.not_mem_nil

namespace Demo

def greeting (n : ℕ) (user : Option String) : ChatCompletionRequest :=
  { model := "m", messages := [{ role := .user, content := some (.text "hi") }],
    nonEmptyMessages := List.cons_ne_nil _ _, n := some n, user }

/-- What the libraries return for every such request. -/
def cacheLibraries : CacheLibraries :=
  { write := fun _ =>
      "\x7b\"frequency_penalty\": null, \"max_tokens\": null, \"messages\": [\x7b\"content\": "
        ++ "\"hi\", \"role\": \"user\"\x7d], \"model\": \"m\", \"presence_penalty\": null, "
        ++ "\"response_format\": null, \"seed\": null, \"stop\": null, \"temperature\": null, "
        ++ "\"tool_choice\": null, \"tools\": null, \"top_p\": null\x7d"
    sha256 := fun _ => "19ef4a2bad1e96a10c4f156018969637f4055a076f7fd68c309e0cc368c020c3",
    reload := id }

def memoryCache : CacheSettings := { lib := cacheLibraries, backend := .memory, ttl := 300 }

def answer : Json := .obj [("object", .str "chat.completion")]

theorem sameKeyed (n n' : ℕ) (user user' : Option String) :
    (relevant (greeting n user).modelDump).sortKeys =
      (relevant (greeting n' user').modelDump).sortKeys := by
  rw [ChatCompletionRequest.relevant_modelDump, ChatCompletionRequest.relevant_modelDump]
  rfl

theorem collisionFree (n n' : ℕ) (user user' : Option String) :
    cacheLibraries.CollisionFree [greeting n user, greeting n' user'] := by
  have alone : ∀ r ∈ [greeting n user, greeting n' user'],
      (relevant r.modelDump).sortKeys = (relevant (greeting 1 none).modelDump).sortKeys := by
    intro r known
    rcases List.mem_pair.mp known with rfl | rfl <;> exact sameKeyed _ _ _ _
  constructor
  · rintro _ ⟨r, known, rfl⟩ _ ⟨r', known', rfl⟩ -
    rw [alone r known, alone r' known']
  · rintro _ ⟨r, known, rfl⟩ _ ⟨r', known', rfl⟩ -
    rw [alone r known, alone r' known']

/-- The cache after the first question and its answer. -/
def answered (r : ChatCompletionRequest) : CacheState :=
  memoryCache.set { now := 0 } (memoryCache.keyOf r) answer r

def asked (r : ChatCompletionRequest) : CacheState :=
  { now := 0, pending := [(memoryCache.keyOf r, r)] }

/-- A question, its answer, and another question, which is answered from the cache. -/
def askedTwice (r r' : ChatCompletionRequest) : List CacheTransition :=
  [⟨{ now := 0 }, .arrive r, [], asked r⟩,
    ⟨asked r, .answered 0 answer, [.produced r answer], answered r⟩,
    ⟨answered r, .arrive r', [.served r' answer r], answered r⟩]

theorem run_askedTwice (n n' : ℕ) (user user' : Option String) :
    CacheRun memoryCache { now := 0 } (askedTwice (greeting n user) (greeting n' user'))
      (answered (greeting n user)) := by
  set r := greeting n user
  set r' := greeting n' user'
  have missed : memoryCache.step { now := 0 } (.arrive r) = some (asked r, []) := rfl
  have stored : memoryCache.step (asked r) (.answered 0 answer) =
      some (answered r, [.produced r answer]) := rfl
  have fresh : memoryCache.expired 0 ⟨0 + memoryCache.ttl, answer, r⟩ = false := by
    simp [CacheSettings.expired, memoryCache]
  have found : memoryCache.get (answered r) (memoryCache.keyOf r') =
      (some ⟨0 + memoryCache.ttl, answer, r⟩, answered r) := by
    have sameKey : memoryCache.keyOf r' = memoryCache.keyOf r := rfl
    have entry : (answered r).store (memoryCache.keyOf r) = some ⟨0 + memoryCache.ttl, answer, r⟩ := by
      simp [answered, CacheSettings.set]
    simp only [CacheSettings.get, sameKey, entry]
    rw [show (answered r).now = 0 from rfl, fresh]
    rfl
  have served : memoryCache.step (answered r) (.arrive r') =
      some (answered r, [.served r' answer r]) := by
    simp only [CacheSettings.step, found]
    rfl
  have executed : LabelledRun.exec memoryCache.step { now := 0 }
      [.arrive r, .answered 0 answer, .arrive r'] = some (answered r, askedTwice r r') := by
    simp [LabelledRun.exec, missed, stored, served, askedTwice]
  exact LabelledRun.run_of_exec executed

end Demo

/-- The same question from two users: the second one gets the first one's response. -/
theorem cache_transparent_iff_two_users :
    let ts := Demo.askedTwice (Demo.greeting 1 (some "a")) (Demo.greeting 1 (some "b"))
    .served (Demo.greeting 1 (some "b")) Demo.answer (Demo.greeting 1 (some "a")) ∈
        LabelledRun.eventsOf ts ∧
      (Demo.memoryCache.Transparent ts ↔ Unambiguous (arrivals ts)) :=
  ⟨by simp [LabelledRun.eventsOf, Demo.askedTwice],
    cache_transparent_iff Demo.memoryCache 0 _ _ (Demo.run_askedTwice 1 1 (some "a") (some "b"))
      (Demo.collisionFree 1 1 (some "a") (some "b"))⟩

/-- The first question asks for one choice and the second one for two. -/
theorem single_choice_served_for_two :
    let r := Demo.greeting 1 none
    let r' := Demo.greeting 2 none
    let ts := Demo.askedTwice r r'
    (∃ s, CacheRun Demo.memoryCache { now := 0 } ts s) ∧
      Demo.memoryCache.lib.CollisionFree (arrivals ts) ∧
      .served r' Demo.answer r ∈ LabelledRun.eventsOf ts ∧
      Demo.memoryCache.keyOf r' = Demo.memoryCache.keyOf r ∧ ¬ r'.SamePayload r ∧
      ¬ Demo.memoryCache.Transparent ts := by
  have differ : ¬ (Demo.greeting 2 none).SamePayload (Demo.greeting 1 none) := by
    intro same
    have choices := ChatCompletionRequest.n_eq_of_samePayload same
    simp [Demo.greeting] at choices
  refine ⟨⟨_, Demo.run_askedTwice 1 2 none none⟩, Demo.collisionFree 1 2 none none,
    by simp [LabelledRun.eventsOf, Demo.askedTwice], rfl, differ, fun transparent => ?_⟩
  have first : Demo.greeting 1 none ∈ [Demo.greeting 1 none, Demo.greeting 2 none] := by simp
  have second : Demo.greeting 2 none ∈ [Demo.greeting 1 none, Demo.greeting 2 none] := by simp
  exact differ (transparent.keys _ second _ first rfl)

end Noxis
