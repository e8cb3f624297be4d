import Noxis.KeylessRegistry
import Noxis.Library.PartialList
import Noxis.Router

/-! Ranking over a registry whose configurations hold whatever the file gave them. On
numbers the operators are those of the typed router; on other values they are parameters. -/
namespace Noxis

/-- A boolean, an integer or a finite float as the number it is. -/
def Yaml.number? : Yaml → Option ℚ
  | .key (.scalar (.bool b)) => some (if b then 1 else 0)
  | .key (.scalar (.int n)) => some n
  | .key (.scalar (.float (.finite q))) => some q
  | _ => none

def Yaml.value (v : Yaml) : ℚ := v.number?.getD 0

/-- What `sorted`, `<`, `==` and `1.0 - (p - lo) / (hi - lo)` give where they are applied to
something other than finite numbers; `none` is an exception. -/
structure Operators where
  sorted : List Yaml → Option (List ℕ)
  sorted_perm : ∀ keys order, sorted keys = some order → order.Perm (List.range keys.length)
  less : Yaml → Yaml → Option Bool
  equal : Yaml → Yaml → Bool
  share : Yaml → Yaml → Yaml → Option PyFloat

namespace Operators

variable (ops : Operators)

/-- `a < b`. -/
def lt (a b : Yaml) : Option Bool :=
  match a.number?, b.number? with
  | some x, some y => some (decide (x < y))
  | _, _ => ops.less a b

/-- `a == b`. -/
def eq : Yaml → Yaml → Bool
  | .key a, .key b => a.pyEq b
  | a, b => ops.equal a b

/-- `1.0 - (p - lo) / (hi - lo)`. -/
def priorityShare (p lo hi : Yaml) : Option PyFloat :=
  match p.number?, lo.number?, hi.number? with
  | some p, some lo, some hi => some (.finite (1 - (p - lo) / (hi - lo)))
  | _, _, _ => ops.share p lo hi

/-- The loop of `min` and `max`, from the first element on. -/
def extreme (better : Yaml → Yaml → Option Bool) : Yaml → List Yaml → Option Yaml
  | best, [] => some best
  | best, v :: rest => do extreme better (if ← better v best then v else best) rest

def smallest : Yaml → List Yaml → Option Yaml := extreme ops.lt
def largest : Yaml → List Yaml → Option Yaml := extreme fun v best => ops.lt best v

def sortedByPriority (providers : List LoadedProvider) : Option (List LoadedProvider) :=
  if providers.all fun p => p.config.priority.number?.isSome then
    some (providers.insertionSort fun p q => p.config.priority.value ≤ q.config.priority.value)
  else (ops.sorted (providers.map fun p => p.config.priority)).map fun order =>
    order.filterMap fun i => providers[i]?

end Operators

/-- `a < b` of floats. -/
def PyFloat.less : PyFloat → PyFloat → Bool
  | .finite a, .finite b => decide (a < b)
  | .negInf, .finite _ | .negInf, .inf | .finite _, .inf => true
  | _, _ => false

/-- A scaling by a positive number and a shift, which keep the special values. -/
def PyFloat.mapFinite (f : ℚ → ℚ) : PyFloat → PyFloat
  | .finite q => .finite (f q)
  | x => x

/-- What the rate limiter and the latency table answer for a provider. -/
structure Readings where
  servable : Bool
  latency : ℚ
  reliability : ℚ
  quota : ℚ

structure LoadedDecision where
  provider : LoadedProvider
  model : Yaml
  score : PyFloat

namespace LoadedProvider

variable (ops : Operators) (p : LoadedProvider)

def supportsModel (model : Yaml) : Bool :=
  p.config.models.isEmpty || p.config.models.any fun m => ops.eq m.name model

def modelSpec (model : Yaml) : Option LoadedModel :=
  p.config.models.find? fun m => ops.eq m.name model

/-- An alias resolves to the first configured model, or to nothing. -/
def resolveModel (requested : ModelName) : Option Yaml :=
  if isAlias requested then p.config.models.head?.map LoadedModel.name
  else some (.scalar requested)

/-- `spec and spec.context_length and est_tokens > spec.context_length`. -/
def contextExceeded (model : Yaml) (estTokens : ℕ) : Option Bool :=
  match p.modelSpec ops model with
  | none => some false
  | some spec =>
      if spec.contextLength.truthy then ops.lt spec.contextLength (.int estTokens) else some false

/-- `_capability_score` is not `None`. -/
def capable (request : ChatCompletionRequest) : Bool :=
  !(request.stream && !p.config.supportsStreaming.truthy) &&
    !(!(request.tools.getD []).isEmpty && !p.config.supportsTools.truthy)

def healthScore : ℚ :=
  match p.health with
  | .healthy => 1
  | .unknown => 4 / 10
  | _ => 0

def priorityScore (candidates : List LoadedProvider) : Option PyFloat :=
  match candidates.map fun q => q.config.priority with
  | [] => none
  | first :: rest => do
      let lo ← ops.smallest first rest
      let hi ← ops.largest first rest
      if ops.eq hi lo then return .finite 1
      ops.priorityShare p.config.priority lo hi

end LoadedProvider

namespace LoadedRegistry

variable (ops : Operators) (r : LoadedRegistry) (readings : LoadedProvider → Readings)
  (request : ChatCompletionRequest)

def candidates (model : ModelName) : Option (List LoadedProvider) :=
  let providers := r.enabled
  if model = .str "noxis-free" then
    some (providers.filter fun p => decide (p.config.providerType = .keyless))
  else if model = .str "noxis-auto" then some providers
  else if model = .str "noxis-fast" then ops.sortedByPriority providers
  else if model = .str "noxis-smart" then
    let apiKeyFirst := providers.filter fun p => decide (p.config.providerType = .apiKey)
    some (if apiKeyFirst.isEmpty then providers else apiKeyFirst)
  else some (providers.filter fun p => p.supportsModel ops (.scalar model))

/-- The hard filters of one provider, in the order in which `rank` applies them. -/
def passesFilters (p : LoadedProvider) : Option Bool :=
  if !eligibleHealth p.health then some false
  else if r.isAdminDisabled p then some false
  else if !(readings p).servable then some false
  else match p.resolveModel request.model with
    | none => some false
    | some model => do
        if ← p.contextExceeded ops model (estimateTokens request) then return false
        return p.capable request

/-- The decision for an eligible provider; `none` is an exception or the failed assertion. -/
def decision (eligible : List LoadedProvider) (p : LoadedProvider) : Option LoadedDecision := do
  let cap : ℚ := if p.capable request then 1 else 0
  let share ← p.priorityScore ops eligible
  let model ← p.resolveModel request.model
  let score := share.mapFinite fun q => wHealth * p.healthScore + wPriority * q
    + wLatency * (readings p).latency + wReliability * (readings p).reliability
    + wQuota * (readings p).quota + wCapability * cap
  return { provider := p, model, score }

/-- `rank`; best score first, and `none` where it raises. -/
def rank : Option (List LoadedDecision) := do
  let candidates ← r.candidates ops request.model
  let eligible ← PartialList.keepM (r.passesFilters ops readings request) candidates
  let decisions ← eligible.mapM (decision ops readings request eligible)
  return decisions.insertionSort fun a b => a.score.less b.score = false

end LoadedRegistry

/-! ### What the operators do on numbers -/

section scores

theorem Yaml.number?_eq {v : Yaml} (numeric : v.number?.isSome) : v.number? = some v.value := by
  obtain ⟨q, eq⟩ := Option.isSome_iff_exists.mp numeric
  rw [value, eq]
  rfl

theorem Operators.lt_numbers (ops : Operators) {v w : Yaml} (first : v.number?.isSome) (second : w.number?.isSome) :
    ops.lt v w = some (decide (v.value < w.value)) := by
  rw [lt, Yaml.number?_eq first, Yaml.number?_eq second]

theorem Yaml.key_of_number {v : Yaml} (numeric : v.number?.isSome) :
    ∃ s : Scalar, v = .scalar s ∧ s.key = .float (.finite v.value) ∧ s ≠ .float .nan := by
  match v, numeric with
  | .key (.scalar (.bool b)), _ => exact ⟨_, rfl, rfl, by simp⟩
  | .key (.scalar (.int n)), _ => exact ⟨_, rfl, rfl, by simp⟩
  | .key (.scalar (.float (.finite q))), _ => exact ⟨_, rfl, rfl, by simp⟩

theorem Operators.eq_numbers (ops : Operators) {v w : Yaml} (first : v.number?.isSome) (second : w.number?.isSome) :
    ops.eq v w = decide (v.value = w.value) := by
  obtain ⟨s, eq, key, notNan⟩ := Yaml.key_of_number first
  obtain ⟨s', eq', key', -⟩ := Yaml.key_of_number second
  have keys : ops.eq v w = s.pyEq s' := by
    rw [eq, eq']
    rfl
  rw [keys, Scalar.pyEq, key, key']
  simp [notNan]

/-- A loop that compares by a rank ends with an element of the best rank. -/
theorem Operators.extreme_spec (better : Yaml → Yaml → Option Bool) (rank : Yaml → ℚ) {best : Yaml}
    {rest : List Yaml} (compares : ∀ v ∈ best :: rest, ∀ w ∈ best :: rest,
      better v w = some (decide (rank v < rank w))) :
    ∃ m ∈ best :: rest, extreme better best rest = some m ∧ ∀ v ∈ best :: rest, rank m ≤ rank v := by
  induction rest generalizing best with
  | nil => exact ⟨best, by simp, rfl, by simp⟩
  | cons v rest ih =>
      set next := if rank v < rank best then v else best with next_eq
      have turn : extreme better best (v :: rest) = extreme better next rest := by
        rw [extreme, compares v (by simp) best (by simp), next_eq]
        simp
      have known : ∀ w ∈ next :: rest, w ∈ best :: v :: rest := by
        intro w member
        rcases List.mem_cons.mp member with rfl | later
        · rw [next_eq]
          split_ifs <;> simp
        · simp [later]
      have notAbove : rank next ≤ rank best ∧ rank next ≤ rank v := by
        rw [next_eq]
        split_ifs with smaller
        · exact ⟨smaller.le, le_rfl⟩
        · exact ⟨le_rfl, not_lt.mp smaller⟩
      obtain ⟨m, member, eq, least⟩ := ih fun u uKnown w wKnown =>
        compares u (known u uKnown) w (known w wKnown)
      have ofNext := least next List.mem_cons_self
      refine ⟨m, known m member, turn.trans eq, fun w wKnown => ?_⟩
      rcases List.mem_cons.mp wKnown with rfl | wKnown
      · exact ofNext.trans notAbove.1
      · rcases List.mem_cons.mp wKnown with rfl | later
        · exact ofNext.trans notAbove.2
        · exact least w (List.mem_cons_of_mem _ later)

/-- The values of the priorities of a list of providers. -/
def priorities (l : List LoadedProvider) : Set ℚ := {x | ∃ q ∈ l, q.config.priority.value = x}

theorem Operators.priorityShare_numbers (ops : Operators) {v lo hi : Yaml}
    (number : v.number?.isSome) (loNumber : lo.number?.isSome) (hiNumber : hi.number?.isSome) :
    ops.priorityShare v lo hi =
      some (.finite (1 - (v.value - lo.value) / (hi.value - lo.value))) := by
  rw [Operators.priorityShare, Yaml.number?_eq number, Yaml.number?_eq loNumber,
    Yaml.number?_eq hiNumber]

/-- On numbers the priority score is what the typed router computes. -/
theorem LoadedProvider.priorityScore_numbers (ops : Operators) {p : LoadedProvider}
    {l : List LoadedProvider}
    (member : p ∈ l) (numeric : ∀ q ∈ l, q.config.priority.number?.isSome) :
    ∃ lo hi, IsLeast (priorities l) lo ∧ IsGreatest (priorities l) hi ∧
      p.priorityScore ops l = some (.finite
        (if hi = lo then 1 else 1 - (p.config.priority.value - lo) / (hi - lo))) := by
  cases l with
  | nil => cases member
  | cons q rest =>
      have values : ∀ v ∈ q.config.priority :: rest.map fun q => q.config.priority,
          ∃ o ∈ q :: rest, o.config.priority = v := by
        intro v known
        exact List.mem_map.mp known
      have numbers : ∀ v ∈ q.config.priority :: rest.map fun q => q.config.priority,
          v.number?.isSome := by
        intro v known
        obtain ⟨o, inList, rfl⟩ := values v known
        exact numeric o inList
      have listed : ∀ o ∈ q :: rest,
          o.config.priority ∈ q.config.priority :: rest.map fun q => q.config.priority :=
        fun o inList => List.mem_map_of_mem (f := fun q : LoadedProvider => q.config.priority) inList
      obtain ⟨lo, loKnown, loEq, least⟩ := Operators.extreme_spec ops.lt Yaml.value
        fun v known w known' => ops.lt_numbers (numbers v known) (numbers w known')
      obtain ⟨hi, hiKnown, hiEq, greatest⟩ := Operators.extreme_spec
        (fun v best => ops.lt best v) (fun v => -v.value)
        fun v known w known' => by
          rw [ops.lt_numbers (numbers w known') (numbers v known)]
          simp
      refine ⟨lo.value, hi.value, ⟨?_, ?_⟩, ⟨?_, ?_⟩, ?_⟩
      · obtain ⟨o, inList, eq⟩ := values lo loKnown
        exact ⟨o, inList, by rw [eq]⟩
      · rintro x ⟨o, inList, rfl⟩
        exact least _ (listed o inList)
      · obtain ⟨o, inList, eq⟩ := values hi hiKnown
        exact ⟨o, inList, by rw [eq]⟩
      · rintro x ⟨o, inList, rfl⟩
        exact neg_le_neg_iff.mp (greatest _ (listed o inList))
      · have compared := ops.eq_numbers (numbers hi hiKnown) (numbers lo loKnown)
        have share := ops.priorityShare_numbers (numeric p member) (numbers lo loKnown)
          (numbers hi hiKnown)
        have unfolded : p.priorityScore ops (q :: rest) =
            if ops.eq hi lo then some (.finite 1)
            else ops.priorityShare p.config.priority lo hi := by
          rw [priorityScore, List.map_cons]
          simp only [Operators.smallest, Operators.largest, loEq, hiEq]
          rfl
        rw [unfolded, compared, share]
        by_cases same : hi.value = lo.value <;> simp [same]

end scores

end Noxis
