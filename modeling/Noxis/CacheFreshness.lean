import Noxis.CacheTransparency
import Noxis.Library.ExpiringStore

/-! How old an answer from the cache can be. A request is served from the cache exactly when the
last response stored under its key is still alive, and then with that response; a hit does not
prolong its life, and requests that are under way do not count. -/
namespace Noxis

open ExpiringStore (Write Deadline Mirrors lastWrite alive)

/-- A response stored, with the request that it was produced for. -/
abbrev Stored := Write String (Json × ChatCompletionRequest)

/-- Whether a deadline is over: the in-memory cache compares with the clock, and the server drops a
key at its expiry. -/
def CacheBackend.past : CacheBackend → ℚ → ℚ → Bool
  | .memory, now, expiresAt => decide (expiresAt < now)
  | .redis, now, expiresAt => decide (expiresAt ≤ now)

theorem CacheBackend.past_later {b : CacheBackend} {now later expiresAt : ℚ} (le : now ≤ later)
    (ended : b.past now expiresAt = true) : b.past later expiresAt = true := by
  cases b with
  | memory => exact decide_eq_true ((of_decide_eq_true ended).trans_le le)
  | redis => exact decide_eq_true ((of_decide_eq_true ended).trans le)

namespace CacheSettings

variable (c : CacheSettings)

def deadline : Deadline := ⟨c.backend.past, CacheBackend.past_later⟩

/-- The entries, as the library has them. -/
def entries (s : CacheState) (key : String) : Option (ℚ × (Json × ChatCompletionRequest)) :=
  (s.store key).map fun e => (e.expiresAt, e.value, e.producedFor)

end CacheSettings

/-- What a transition stores: the response of a request that was waiting. -/
def storedBy (t : CacheTransition) : Option Stored :=
  match t.action with
  | .answered i response =>
      (t.before.pending[i]?).map fun (key, r) => ⟨t.before.now, key, response, r⟩
  | _ => none

def storedAlong (ts : List CacheTransition) : List Stored := ts.filterMap storedBy

theorem storedAlong_snoc (ts : List CacheTransition) (t : CacheTransition) :
    storedAlong (ts ++ [t]) = storedAlong ts ++ (storedBy t).toList := by
  cases stored : storedBy t <;> simp [storedAlong, List.filterMap_append, stored]

namespace CacheSettings

variable {c : CacheSettings} {s s' : CacheState}

theorem expired_eq (now : ℚ) (e : CacheEntry) :
    c.expired now e = c.deadline.past now e.expiresAt := by
  change c.expired now e = c.backend.past now e.expiresAt
  unfold expired CacheBackend.past
  cases c.backend <;> rfl

theorem entries_update_some (s : CacheState) (key : String) (e : CacheEntry) :
    entries { s with store := Function.update s.store key (some e) } =
      Function.update (entries s) key (some (e.expiresAt, e.value, e.producedFor)) := by
  funext k
  by_cases same : k = key
  · subst same
    simp [entries]
  · simp [entries, same]

theorem entries_update_none (s : CacheState) (key : String) :
    entries { s with store := Function.update s.store key none } =
      Function.update (entries s) key none := by
  funext k
  by_cases same : k = key
  · subst same
    simp [entries]
  · simp [entries, same]

variable (c) in
/-- The store against what was stored in the past. -/
def Faithful (ts : List CacheTransition) (s : CacheState) : Prop :=
  Mirrors c.deadline c.ttl s.now (storedAlong ts) (entries s)

/-- A lookup drops nothing that is alive, and finds what is. -/
theorem get_faithful {ts : List CacheTransition} (faithful : c.Faithful ts s) (key : String) :
    c.Faithful ts (c.get s key).2 ∧ (c.get s key).2.now = s.now ∧
      (c.get s key).2.pending = s.pending ∧
      (c.get s key).1.map (fun e => (e.value, e.producedFor)) =
        (alive c.deadline c.ttl s.now (storedAlong ts) key).map Write.value := by
  have looked := faithful.look_eq key
  cases found : s.store key with
  | none =>
      have missed : c.get s key = (none, s) := by simp [get, found]
      rw [missed, ← looked]
      exact ⟨faithful, rfl, rfl, by simp [ExpiringStore.look, entries, found]⟩
  | some e =>
      have here : entries s key = some (e.expiresAt, e.value, e.producedFor) := by
        simp [entries, found]
      cases past : c.deadline.past s.now e.expiresAt with
      | true =>
          have gone : c.get s key = (none, { s with store := Function.update s.store key none }) := by
            simp [get, found, expired_eq, past]
          rw [gone, ← looked]
          have dropped := Mirrors.drop faithful here past
          rw [← entries_update_none] at dropped
          exact ⟨dropped, rfl, rfl, by simp [ExpiringStore.look, here, past, Option.filter_some]⟩
      | false =>
          have kept : c.get s key = (some e, s) := by simp [get, found, expired_eq, past]
          rw [kept, ← looked]
          exact ⟨faithful, rfl, rfl, by simp [ExpiringStore.look, here, past, Option.filter_some]⟩

theorem storedAlong_snoc_none {ts : List CacheTransition} {t : CacheTransition}
    (nothing : storedBy t = none) : storedAlong (ts ++ [t]) = storedAlong ts := by
  simp [storedAlong_snoc, nothing]

theorem step_faithful {ts : List CacheTransition} {t : CacheTransition}
    (faithful : c.Faithful ts t.before) (valid : t.Valid c.step) : c.Faithful (ts ++ [t]) t.after := by
  obtain ⟨s, act, events, s'⟩ := t
  change c.step s act = some (s', events) at valid
  unfold Faithful at faithful ⊢
  cases act with
  | elapse dt =>
      obtain ⟨rfl, rfl⟩ := Prod.mk.inj (Option.some.inj valid)
      rw [storedAlong_snoc_none rfl]
      exact Mirrors.later faithful (le_add_of_nonneg_right dt.2)
  | arrive r =>
      rw [storedAlong_snoc_none rfl]
      obtain ⟨after, now, -⟩ := get_faithful faithful (c.keyOf r)
      have same : entries s' = entries (c.get s (c.keyOf r)).2 ∧ s'.now = (c.get s (c.keyOf r)).2.now := by
        simp only [step] at valid
        split_ifs at valid
        split at valid
        · split_ifs at valid <;> obtain ⟨rfl, rfl⟩ := Prod.mk.inj (Option.some.inj valid) <;> exact ⟨rfl, rfl⟩
        · obtain ⟨rfl, rfl⟩ := Prod.mk.inj (Option.some.inj valid)
          exact ⟨rfl, rfl⟩
      rw [same.1, same.2]
      exact after
  | answered i response =>
      obtain ⟨⟨key, r⟩, waiting, eq⟩ := Option.map_eq_some_iff.mp valid
      obtain ⟨rfl, rfl⟩ := Prod.mk.inj eq
      have stored : storedBy ⟨s, .answered i response, [.produced r response],
          c.set { s with pending := s.pending.eraseIdx i } key response r⟩ =
            some ⟨s.now, key, response, r⟩ := by
        simp [storedBy, waiting]
      rw [storedAlong_snoc, stored]
      have put := Mirrors.put faithful key (response, r)
      rw [show Function.update (entries s) key (some (s.now + c.ttl, response, r)) = _ from
        (entries_update_some s key ⟨s.now + c.ttl, response, r⟩).symm] at put
      exact put
  | failed i =>
      obtain ⟨p, waiting, eq⟩ := Option.map_eq_some_iff.mp valid
      obtain ⟨rfl, rfl⟩ := Prod.mk.inj eq
      rw [storedAlong_snoc_none rfl]
      exact faithful

theorem run_faithful {t₀ : ℚ} {ts : List CacheTransition} (run : CacheRun c { now := t₀ } ts s) :
    c.Faithful ts s := by
  have empty : c.Faithful [] { now := t₀ } := ExpiringStore.mirrors_nil c.deadline c.ttl t₀
  exact run.invariant c.Faithful empty fun _ _ _ before valid => step_faithful before valid

variable (c) in
/-- The response answers the request from the cache: it is the last one stored under its key, its
life is not over, and it is not null. -/
structure Answers (ts : List CacheTransition) (now : ℚ) (r : ChatCompletionRequest) (w : Stored) :
    Prop where
  key : w.key = c.keyOf r
  last : ∃ before after, storedAlong ts = before ++ w :: after ∧ ∀ v ∈ after, v.key ≠ c.keyOf r
  alive : match c.backend with
    | .memory => now ≤ w.time + c.ttl
    | .redis => now < w.time + c.ttl
  value : c.read w.value.1 ≠ .null

theorem alive_iff {ts : List CacheTransition} {now : ℚ} {r : ChatCompletionRequest} {w : Stored} :
    alive c.deadline c.ttl now (storedAlong ts) (c.keyOf r) = some w ∧ c.read w.value.1 ≠ .null ↔
      c.Answers ts now r w := by
  have inTime : c.deadline.past now (w.time + c.ttl) = false ↔ match c.backend with
      | .memory => now ≤ w.time + c.ttl
      | .redis => now < w.time + c.ttl := by
    change c.backend.past now (w.time + c.ttl) = false ↔ _
    cases c.backend <;> simp [CacheBackend.past]
  rw [alive, Option.filter_eq_some_iff, ExpiringStore.lastWrite_eq_some_iff]
  constructor
  · rintro ⟨⟨⟨key, last⟩, living⟩, value⟩
    exact ⟨key, last, inTime.mp (by simpa using living), value⟩
  · intro answers
    refine ⟨⟨⟨answers.key, answers.last⟩, ?_⟩, answers.value⟩
    simpa using inTime.mpr answers.alive

end CacheSettings

/-- In every state of every history, a request that does not stream is served from the cache
exactly if the last response stored under its key is alive, with that response; otherwise it
goes to the scheduler. -/
theorem served_iff_alive (c : CacheSettings) (t₀ : ℚ) (ts : List CacheTransition) (s : CacheState)
    (run : CacheRun c { now := t₀ } ts s) (r : ChatCompletionRequest) (whole : r.stream = false) :
    ∃ s' events, c.step s (.arrive r) = some (s', events) ∧
      (∀ event, event ∈ events ↔
        ∃ w, c.Answers ts s.now r w ∧ event = .served r (c.read w.value.1) w.value.2) ∧
      s'.pending = s.pending ++ if events = [] then [(c.keyOf r, r)] else [] := by
  obtain ⟨-, -, pending, found⟩ :=
    CacheSettings.get_faithful (CacheSettings.run_faithful run) (c.keyOf r)
  have answers : ∀ w, c.Answers ts s.now r w ↔ _ := fun w => CacheSettings.alive_iff.symm
  simp only [answers]
  cases looked : c.get s (c.keyOf r) with
  | mk cached after =>
      rw [looked] at pending found
      change after.pending = s.pending at pending
      cases cached with
      | none =>
          have dead : alive c.deadline c.ttl s.now (storedAlong ts) (c.keyOf r) = none := by
            simpa using found.symm
          refine ⟨{ after with pending := after.pending ++ [(c.keyOf r, r)] }, [], ?_, ?_, ?_⟩
          · simp [CacheSettings.step, whole, looked]
          · simp [dead]
          · simp [pending]
      | some e =>
          obtain ⟨w, living, value⟩ : ∃ w,
              alive c.deadline c.ttl s.now (storedAlong ts) (c.keyOf r) = some w ∧
                w.value = (e.value, e.producedFor) := by
            simpa using found.symm
          by_cases null : (c.read e.value).isNull = true
          · refine ⟨{ after with pending := after.pending ++ [(c.keyOf r, r)] }, [], ?_, ?_, ?_⟩
            · simp [CacheSettings.step, whole, looked, null]
            · simp [living, value, Json.isNull_iff.mp null]
            · simp [pending]
          · refine ⟨after, [.served r (c.read e.value) e.producedFor], ?_, fun event => ?_, ?_⟩
            · simp [CacheSettings.step, whole, looked, null]
            · have present : c.read e.value ≠ .null := fun eq => null (by rw [eq]; rfl)
              simp [living, value, present]
            · simp [pending]

/-- An answer of the in-memory cache at the very end of its life. -/
theorem served_iff_alive_at_expiry :
    ∃ ts s, CacheRun Demo.memoryCache { now := 0 } ts s ∧ s.now = 300 ∧
      ∃ s' events, Demo.memoryCache.step s (.arrive (Demo.greeting 1 none)) = some (s', events) ∧
        (∀ event, event ∈ events ↔
          ∃ w, Demo.memoryCache.Answers ts s.now (Demo.greeting 1 none) w ∧
            event = .served (Demo.greeting 1 none) (Demo.memoryCache.read w.value.1) w.value.2) ∧
        s'.pending = s.pending ++
          if events = [] then [(Demo.memoryCache.keyOf (Demo.greeting 1 none), Demo.greeting 1 none)]
          else [] := by
  have possible : (LabelledRun.exec Demo.memoryCache.step { now := 0 }
      [.arrive (Demo.greeting 1 none), .answered 0 Demo.answer, .elapse 300]).any
      (fun r => decide (r.1.now = 300)) = true := by decide +kernel
  obtain ⟨ts, s, run, time⟩ := LabelledRun.run_of_check _ possible
  exact ⟨ts, s, run, of_decide_eq_true time, served_iff_alive _ _ ts s run _ rfl⟩

end Noxis
