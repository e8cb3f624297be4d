import Noxis.Security
import Noxis.Library.SlidingWindow

/-! The gateway's own limit: what the calls with one key are answered, whatever the calls
between them carry. -/
namespace Noxis

/-- A call of `authenticate`: the reading of the clock and the header. -/
structure AuthCall where
  time : ℚ
  authorization : Option String

section keys
variable (hashKey : String → String) (s : AuthSettings)

/-- Every call with its answer. -/
def authTrace : GatewayRateLimiter → List AuthCall → List (AuthCall × Except NoxisError String)
  | _, [] => []
  | limiter, c :: rest =>
      (c, (authenticate hashKey s limiter c.time c.authorization).1) ::
        authTrace (authenticate hashKey s limiter c.time c.authorization).2 rest

/-- The call carries the key; the gateway tells keys apart by their digests. -/
def usesKey (key : String) (c : AuthCall) : Bool :=
  (extractBearerToken c.authorization).any fun token => decide (hashKey token = hashKey key)

/-- When the key was used, and what each use was answered. -/
def usesOf (key : String) (log : List (AuthCall × Except NoxisError String)) :
    List (ℚ × Except NoxisError String) :=
  (log.filter fun entry => usesKey hashKey key entry.1).map fun entry => (entry.1.time, entry.2)

def timesOf (key : String) (calls : List AuthCall) : List ℚ :=
  (calls.filter (usesKey hashKey key)).map AuthCall.time

def admittedTimes (key : String) (log : List (AuthCall × Except NoxisError String)) : List ℚ :=
  (usesOf hashKey key log).filterMap fun use => if use.2.isOk then some use.1 else none

def tooManyCalls : NoxisError := rateLimitError "NOXIS gateway rate limit exceeded for this key."

/-- What a valid key is answered. -/
def answerOf (key : String) (admitted : Bool) : Except NoxisError String :=
  if admitted then .ok (KeyAuthenticator.keyId hashKey key) else .error tooManyCalls

/-- The identifiers in use are told apart, and a digest is 64 hexadecimal digits long. -/
structure DistinctIds : Prop where
  keys : Set.InjOn (KeyAuthenticator.keyId hashKey) {key | key ∈ s.gatewayKeys}
  length : ∀ text, (hashKey text).length = 64

section step
variable {hashKey s} {limiter : GatewayRateLimiter} {key : String} {c : AuthCall}

theorem usesKey_iff : usesKey hashKey key c = true ↔
    ∃ token, extractBearerToken c.authorization = some token ∧ hashKey token = hashKey key := by
  unfold usesKey
  cases extractBearerToken c.authorization <;> simp

/-- The limiter is the library's queue, one per key id. -/
theorem allow_eq (now : ℚ) (keyId : String) :
    limiter.allow now keyId =
      ((SlidingWindow.decideAt 60 limiter.rpm.toNat (limiter.hits keyId) now).1,
        limiter.put keyId
          (SlidingWindow.decideAt 60 limiter.rpm.toNat (limiter.hits keyId) now).2) := by
  unfold GatewayRateLimiter.allow SlidingWindow.decideAt
  dsimp only
  by_cases full : limiter.rpm ≤
      ((limiter.hits keyId).dropWhile fun t => decide (now - t > 60)).length
  · rw [if_pos full, if_pos (Int.toNat_le.mpr full)]
  · rw [if_neg full, if_neg (mt Int.toNat_le.mp full)]

theorem requireAuth_own (valid : key ∈ s.gatewayKeys) (uses : usesKey hashKey key c = true) :
    requireAuth hashKey s c.authorization = .ok (KeyAuthenticator.keyId hashKey key) := by
  obtain ⟨token, found, same⟩ := usesKey_iff.mp uses
  have known : KeyAuthenticator.isValid hashKey s token = true := by
    rw [KeyAuthenticator.isValid, KeyAuthenticator.validHashes, List.any_map, List.any_eq_true]
    exact ⟨key, valid, decide_eq_true same⟩
  simp [requireAuth, found, known, KeyAuthenticator.keyId, same]

theorem requireAuth_other (ids : DistinctIds hashKey s) (valid : key ∈ s.gatewayKeys)
    (other : usesKey hashKey key c = false) :
    requireAuth hashKey s c.authorization ≠ .ok (KeyAuthenticator.keyId hashKey key) := by
  intro accepted
  cases found : extractBearerToken c.authorization with
  | none =>
      -- the anonymous id has nine characters, a key id twelve
      have twelve : (KeyAuthenticator.keyId hashKey key).length = 12 := by
        rw [KeyAuthenticator.keyId, firstChars, String.length_ofList, List.length_take,
          String.length_toList, ids.length]
        rfl
      rw [requireAuth, found] at accepted
      dsimp only at accepted
      split_ifs at accepted
      rw [← Except.ok.inj accepted] at twelve
      exact absurd twelve (by decide)
  | some token =>
      rw [requireAuth, found] at accepted
      dsimp only at accepted
      split_ifs at accepted with invalid
      simp only [Bool.not_eq_true', Bool.not_eq_false, KeyAuthenticator.isValid,
        KeyAuthenticator.validHashes, List.any_map, List.any_eq_true] at invalid
      obtain ⟨owner, member, same⟩ := invalid
      have same_digest : hashKey token = hashKey owner := of_decide_eq_true same
      have same_id : KeyAuthenticator.keyId hashKey owner = KeyAuthenticator.keyId hashKey key := by
        rw [← Except.ok.inj accepted, KeyAuthenticator.keyId, KeyAuthenticator.keyId, same_digest]
      rw [ids.keys member valid same_id] at same_digest
      have uses := usesKey_iff.mpr ⟨token, found, same_digest⟩
      rw [other] at uses
      cases uses

theorem authenticate_own (valid : key ∈ s.gatewayKeys)
    (uses : usesKey hashKey key c = true) :
    authenticate hashKey s limiter c.time c.authorization =
      (answerOf hashKey key (SlidingWindow.decideAt 60 limiter.rpm.toNat
          (limiter.hits (KeyAuthenticator.keyId hashKey key)) c.time).1,
        limiter.put (KeyAuthenticator.keyId hashKey key) (SlidingWindow.decideAt 60 limiter.rpm.toNat
          (limiter.hits (KeyAuthenticator.keyId hashKey key)) c.time).2) := by
  rw [authenticate, requireAuth_own valid uses]
  dsimp only
  rw [allow_eq]
  dsimp only
  cases (SlidingWindow.decideAt 60 limiter.rpm.toNat
    (limiter.hits (KeyAuthenticator.keyId hashKey key)) c.time).1 <;> rfl

/-- A call without the key leaves the deque of the key as it is. -/
theorem authenticate_other (ids : DistinctIds hashKey s) (valid : key ∈ s.gatewayKeys)
    (other : usesKey hashKey key c = false) :
    (authenticate hashKey s limiter c.time c.authorization).2.rpm = limiter.rpm ∧
      (authenticate hashKey s limiter c.time c.authorization).2.hits
          (KeyAuthenticator.keyId hashKey key) =
        limiter.hits (KeyAuthenticator.keyId hashKey key) := by
  have not_own := requireAuth_other ids valid other
  unfold authenticate
  cases accepted : requireAuth hashKey s c.authorization with
  | error e => exact ⟨rfl, rfl⟩
  | ok keyId =>
      have distinct : KeyAuthenticator.keyId hashKey key ≠ keyId := by
        rintro rfl
        exact not_own accepted
      dsimp only
      rw [allow_eq]
      dsimp only
      split_ifs <;> exact ⟨rfl, Function.update_of_ne distinct _ _⟩

end step

variable {hashKey s}

theorem usesOf_cons (key : String) (c : AuthCall) (answer : Except NoxisError String)
    (log : List (AuthCall × Except NoxisError String)) :
    usesOf hashKey key ((c, answer) :: log) =
      if usesKey hashKey key c then (c.time, answer) :: usesOf hashKey key log
      else usesOf hashKey key log := by
  unfold usesOf
  rw [List.filter_cons]
  split_ifs <;> rfl

theorem usesOf_append (key : String) (log log' : List (AuthCall × Except NoxisError String)) :
    usesOf hashKey key (log ++ log') = usesOf hashKey key log ++ usesOf hashKey key log' := by
  simp only [usesOf, List.filter_append, List.map_append]

theorem timesOf_cons (key : String) (c : AuthCall) (calls : List AuthCall) :
    timesOf hashKey key (c :: calls) =
      if usesKey hashKey key c then c.time :: timesOf hashKey key calls
      else timesOf hashKey key calls := by
  unfold timesOf
  rw [List.filter_cons]
  split_ifs <;> rfl

/-- The uses of a key are what the library's queue answers to their times. -/
theorem usesOf_trace (ids : DistinctIds hashKey s) {key : String} (valid : key ∈ s.gatewayKeys)
    (calls : List AuthCall) (limiter : GatewayRateLimiter) :
    usesOf hashKey key (authTrace hashKey s limiter calls) =
      (SlidingWindow.serve 60 limiter.rpm.toNat
        (limiter.hits (KeyAuthenticator.keyId hashKey key))
        (timesOf hashKey key calls)).map fun use => (use.1, answerOf hashKey key use.2) := by
  induction calls generalizing limiter with
  | nil => rfl
  | cons c rest ih =>
      have tail := ih (authenticate hashKey s limiter c.time c.authorization).2
      rw [authTrace, usesOf_cons, timesOf_cons]
      cases uses : usesKey hashKey key c with
      | true =>
          rw [if_pos rfl, if_pos rfl, tail, authenticate_own valid uses, SlidingWindow.serve,
            List.map_cons]
          simp [GatewayRateLimiter.put]
      | false =>
          rw [if_neg Bool.false_ne_true, if_neg Bool.false_ne_true, tail,
            (authenticate_other ids valid uses).1, (authenticate_other ids valid uses).2]

/-- The admitted times are those of the library's queue. -/
theorem admittedTimes_of_uses {key : String} {log : List (AuthCall × Except NoxisError String)}
    {served : List (ℚ × Bool)}
    (uses : usesOf hashKey key log = served.map fun use => (use.1, answerOf hashKey key use.2)) :
    admittedTimes hashKey key log = SlidingWindow.admitted served := by
  rw [admittedTimes, uses, List.filterMap_map, SlidingWindow.admitted]
  apply List.filterMap_congr
  rintro ⟨t, answer⟩ -
  cases answer <;> rfl

theorem timesOf_sorted (key : String) {calls : List AuthCall}
    (ordered : calls.Pairwise fun c d => c.time ≤ d.time) :
    (timesOf hashKey key calls).Pairwise (· ≤ ·) :=
  List.pairwise_map.mpr (ordered.filter _)

/-- One key's calls: no closed minute holds more than `rpm` admitted ones, a call is refused
exactly when `rpm` admitted ones are at most a minute old, and the answers depend on nothing
but the times of the key's own calls. -/
theorem gateway_limits_each_key (rpm : ℤ) (nonneg : 0 ≤ rpm) (ids : DistinctIds hashKey s)
    (key : String) (valid : key ∈ s.gatewayKeys) (calls : List AuthCall)
    (ordered : calls.Pairwise fun c d => c.time ≤ d.time) :
    (∀ a : ℚ, (((admittedTimes hashKey key (authTrace hashKey s { rpm } calls)).countP
      fun t => a ≤ t ∧ t ≤ a + 60 : ℕ) : ℤ) ≤ rpm) ∧
    (∀ past c answer later, authTrace hashKey s { rpm } calls = past ++ (c, answer) :: later →
      usesKey hashKey key c = true →
        (answer = .error tooManyCalls ↔
          (((admittedTimes hashKey key past).countP fun t => c.time - t ≤ 60 : ℕ) : ℤ) = rpm) ∧
        (answer = .error tooManyCalls ∨ answer = .ok (KeyAuthenticator.keyId hashKey key))) ∧
    (∀ others : List AuthCall, timesOf hashKey key others = timesOf hashKey key calls →
      usesOf hashKey key (authTrace hashKey s { rpm } others) =
        usesOf hashKey key (authTrace hashKey s { rpm } calls)) := by
  have uses : usesOf hashKey key (authTrace hashKey s { rpm } calls) =
      (SlidingWindow.serve 60 rpm.toNat [] (timesOf hashKey key calls)).map
        fun use => (use.1, answerOf hashKey key use.2) := usesOf_trace ids valid calls { rpm }
  have sorted : (timesOf hashKey key calls).Pairwise (· ≤ ·) := timesOf_sorted key ordered
  have served := SlidingWindow.serve_exact 60 rpm.toNat sorted
  refine ⟨fun a => ?_, ?_, ?_⟩
  · rw [admittedTimes_of_uses uses]
    have bound := served.1.window_le a
    omega
  · intro past c answer later split own
    rw [split, usesOf_append, usesOf_cons, if_pos own] at uses
    obtain ⟨before, after, split', uses_past, uses_rest⟩ := List.map_eq_append_iff.mp uses.symm
    obtain ⟨use, later', rfl, same, -⟩ := List.map_eq_cons_iff.mp uses_rest
    obtain ⟨same_time, same_answer⟩ := Prod.mk.inj same
    have exact_count := served.2 before use.1 use.2 later' split'
    have past_times : admittedTimes hashKey key past = SlidingWindow.admitted before :=
      admittedTimes_of_uses uses_past.symm
    rw [past_times, ← same_answer, ← same_time]
    rw [SlidingWindow.recent] at exact_count
    cases admitted : use.2 with
    | false =>
        rw [admitted] at exact_count
        have count := exact_count.mp rfl
        refine ⟨iff_of_true rfl ?_, .inl rfl⟩
        omega
    | true =>
        rw [admitted] at exact_count
        refine ⟨iff_of_false (by simp [answerOf]) ?_, .inr rfl⟩
        intro count
        have impossible := exact_count.mpr (by omega)
        cases impossible
  · intro others same
    rw [uses, usesOf_trace ids valid others { rpm }, same]

end keys

/-- Digests of the three texts that the calls below carry; any other text has another one. -/
def Demo.shortDigest (text : String) : String :=
  if text = "alpha" then "8ed3f6ad685b959ead7022518e1af76cd816f8e8ec7ccdda1ed4018e8f2223f8"
  else if text = "beta" then "f44e64e75f3948e9f73f8dfa94721c4ce8cbb4f265c4790c702b2d41cfbf2753"
  else if text = "guess" then "f1abe1b083d12d181ae136cfc75b8d18a8ecb43ac4e9d1a36d6a9c75b6016b61"
  else "0000000000000000000000000000000000000000000000000000000000000000"

theorem gateway_limits_each_key_alpha :
    let s : AuthSettings := { gatewayKeysText := "alpha,beta" }
    let calls : List AuthCall := [⟨1, some "Bearer alpha"⟩, ⟨2, some "Bearer beta"⟩,
      ⟨3, some "bearer guess"⟩, ⟨61, some "Bearer alpha"⟩, ⟨62, some "Bearer alpha"⟩]
    ∀ past c answer later,
      authTrace Demo.shortDigest s { rpm := 1 } calls = past ++ (c, answer) :: later →
      usesKey Demo.shortDigest "alpha" c = true →
        (answer = .error tooManyCalls ↔
          (((admittedTimes Demo.shortDigest "alpha" past).countP fun t => c.time - t ≤ 60 : ℕ) : ℤ)
            = 1) := by
  intro s calls past c answer later split own
  have ids : DistinctIds Demo.shortDigest s := by
    refine ⟨?_, ?_⟩
    · have keys : s.gatewayKeys = ["alpha", "beta"] := by decide
      intro key member key' member' same
      simp only [Set.mem_ofPred_eq, keys, List.mem_cons, List.not_mem_nil, or_false] at member member'
      rcases member with rfl | rfl <;> rcases member' with rfl | rfl
      · rfl
      · exact absurd same (by decide)
      · exact absurd same (by decide)
      · rfl
    · intro text
      unfold Demo.shortDigest
      split_ifs <;> decide
  exact ((gateway_limits_each_key 1 (by decide) ids "alpha" (by decide) calls
    (by norm_num [calls])).2.1 past c answer later split own).1

end Noxis
