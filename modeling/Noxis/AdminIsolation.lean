import Noxis.AdminSwitches
import Noxis.GatewayLimits
import Noxis.Library.Purge

/-! The administrator is on its own. Whatever the calls with other keys carry, and whenever they
come, the administrator is answered, and the providers are switched, as if they had never come. -/
namespace Noxis

/-- What a call asks for: an endpoint that every key may use, or a switch, whose record the database
takes or refuses. -/
inductive Endpoint where
  | everyKey
  | switch (enabled : Bool) (name : String) (inserted : Bool)

structure ServiceCall extends AuthCall where
  endpoint : Endpoint

inductive ServiceAnswer where
  | refused (e : NoxisError)
  | admitted (keyId : String)
  | admin (answer : AdminAnswer)

/-- The gateway's own limiter, and what the admin endpoints read and write. -/
structure AdminService where
  limiter : GatewayRateLimiter
  admin : AdminState

/-- A switch adds at most one record, of whoever made it. -/
theorem AdminState.call_records (s : AdminState) (c : AdminCall) :
    ∃ records, (s.call c).2.auditLog = s.auditLog ++ records ∧
      ∀ r ∈ records, r.actorKeyId = c.keyId := by
  by_cases known : c.name ∈ s.registry.names
  · cases inserted : c.inserted with
    | true =>
        refine ⟨[c.record], by rw [(s.call_inserted c known inserted).2], fun r member => ?_⟩
        rw [List.mem_singleton.mp member]
        rfl
    | false => exact ⟨[], by rw [(s.call_lost c known inserted).2, List.append_nil], by simp⟩
  · exact ⟨[], by rw [(s.call_unknown c known).2, List.append_nil], by simp⟩

section service
variable (hashKey : String → String) (s : AuthSettings)

def AdminService.handle (v : AdminService) (c : ServiceCall) : ServiceAnswer × AdminService :=
  match c.endpoint with
  | .everyKey =>
      let (keyId, limiter) := authenticate hashKey s v.limiter c.time c.authorization
      (match keyId with
        | .error e => .refused e
        | .ok keyId => .admitted keyId, { v with limiter })
  | .switch enabled name inserted =>
      match requireMaster hashKey s v.limiter c.time c.authorization with
      | (.error e, limiter) => (.refused e, { v with limiter })
      | (.ok keyId, limiter) =>
          let (answer, admin) := v.admin.call { enabled, inserted, keyId, name }
          (.admin answer, { limiter, admin })

/-- States that the holder of the key cannot tell apart: the same switches and trail, and the same
deque of the key. -/
structure AdminService.AlikeFor (key : String) (v v' : AdminService) : Prop where
  admin : v.admin = v'.admin
  rpm : v.limiter.rpm = v'.limiter.rpm
  hits : v.limiter.hits (KeyAuthenticator.keyId hashKey key) =
    v'.limiter.hits (KeyAuthenticator.keyId hashKey key)

variable {hashKey s} {limiter limiter' : GatewayRateLimiter} {key : String} {c : AuthCall}

/-- `require_master` decides on the answer of `authenticate` and on the header. -/
theorem requireMaster_eq : requireMaster hashKey s limiter c.time c.authorization =
    ((authenticate hashKey s limiter c.time c.authorization).1.bind fun keyId =>
        if s.masterKey.getD "" = "" || (extractBearerToken c.authorization).getD "" = "" ||
            hashKey ((extractBearerToken c.authorization).getD "") ≠ hashKey (s.masterKey.getD "")
        then .error (permissionDeniedError "Admin endpoints require the NOXIS master key.")
        else .ok keyId,
      (authenticate hashKey s limiter c.time c.authorization).2) := by
  unfold requireMaster
  rcases authenticate hashKey s limiter c.time c.authorization with ⟨_ | keyId, after⟩
  · rfl
  · dsimp only [Except.bind]
    split_ifs <;> rfl

theorem authenticate_error {e : NoxisError}
    (refused : (authenticate hashKey s limiter c.time c.authorization).1 = .error e) :
    e.statusCode = 401 ∨ e.statusCode = 429 := by
  unfold authenticate at refused
  cases accepted : requireAuth hashKey s c.authorization with
  | error e' =>
      rw [accepted] at refused
      obtain rfl := Except.error.inj refused
      unfold requireAuth at accepted
      split at accepted
      all_goals
        split_ifs at accepted
        rw [← Except.error.inj accepted]
        exact .inl rfl
  | ok keyId =>
      rw [accepted] at refused
      dsimp only at refused
      split_ifs at refused
      rw [← Except.error.inj refused]
      exact .inr rfl

section master
variable (configured : s.masterKey = some key) (given : key ≠ "")
include configured

/-- Without the master key the switches are out of reach. -/
theorem requireMaster_refused (other : usesKey hashKey key c = false) :
    ∃ e, (requireMaster hashKey s limiter c.time c.authorization).1 = .error e ∧
      (e.statusCode = 401 ∨ e.statusCode = 403 ∨ e.statusCode = 429) := by
  cases answer : (requireMaster hashKey s limiter c.time c.authorization).1 with
  | ok keyId =>
      obtain ⟨-, -, sent, same⟩ := requireMaster_eq_ok.mp answer
      rw [configured] at same
      cases token : extractBearerToken c.authorization with
      | none => exact absurd (by rw [token]; rfl) sent
      | some text =>
          rw [token] at same
          have uses : usesKey hashKey key c = true := usesKey_iff.mpr ⟨text, token, same⟩
          rw [other] at uses
          cases uses
  | error e =>
      refine ⟨e, rfl, ?_⟩
      rw [requireMaster_eq] at answer
      cases authenticated : (authenticate hashKey s limiter c.time c.authorization).1 with
      | error e' =>
          rw [authenticated] at answer
          obtain rfl := Except.error.inj answer
          rcases authenticate_error authenticated with status | status
          · exact .inl status
          · exact .inr (.inr status)
      | ok keyId =>
          rw [authenticated] at answer
          dsimp only [Except.bind] at answer
          split_ifs at answer
          rw [← Except.error.inj answer]
          exact .inr (.inl rfl)

include given

theorem master_valid : key ∈ s.gatewayKeys := by
  unfold AuthSettings.gatewayKeys
  simp [configured, given]

/-- Whoever switches a provider is recorded under the master key. -/
theorem requireMaster_keyId (uses : usesKey hashKey key c = true) {keyId : String}
    (accepted : (requireMaster hashKey s limiter c.time c.authorization).1 = .ok keyId) :
    keyId = KeyAuthenticator.keyId hashKey key := by
  obtain ⟨authenticated, -⟩ := requireMaster_eq_ok.mp accepted
  obtain ⟨own, -⟩ := authenticate_eq_ok.mp authenticated
  rw [requireAuth_own (master_valid configured given) uses] at own
  exact (Except.ok.inj own).symm

end master

section unwinding
variable {v v' : AdminService} {call : ServiceCall}

/-- A call that `authenticate` answers alike is handled alike, and leaves the limiter that
`authenticate` leaves. -/
theorem handle_congr (admin : v.admin = v'.admin)
    (same : (authenticate hashKey s v.limiter call.time call.authorization).1 =
      (authenticate hashKey s v'.limiter call.time call.authorization).1) :
    (v.handle hashKey s call).1 = (v'.handle hashKey s call).1 ∧
      (v.handle hashKey s call).2.admin = (v'.handle hashKey s call).2.admin := by
  unfold AdminService.handle
  cases call.endpoint with
  | everyKey =>
      dsimp only
      rw [same]
      exact ⟨rfl, admin⟩
  | switch enabled name inserted =>
      dsimp only
      rw [requireMaster_eq, requireMaster_eq, same]
      rcases (authenticate hashKey s v'.limiter call.time call.authorization).1 with _ | keyId
      · exact ⟨rfl, admin⟩
      · dsimp only [Except.bind]
        split_ifs
        · exact ⟨rfl, admin⟩
        · rw [admin]
          exact ⟨rfl, rfl⟩

theorem handle_limiter : (v.handle hashKey s call).2.limiter =
    (authenticate hashKey s v.limiter call.time call.authorization).2 := by
  unfold AdminService.handle
  cases call.endpoint with
  | everyKey => rfl
  | switch enabled name inserted =>
      dsimp only
      rw [requireMaster_eq]
      rcases (authenticate hashKey s v.limiter call.time call.authorization).1 with _ | keyId
      · rfl
      · dsimp only [Except.bind]
        split_ifs <;> rfl

/-- A call without the master key is refused, or is none of a switch. -/
theorem handle_other (configured : s.masterKey = some key)
    (other : usesKey hashKey key call.toAuthCall = false) :
    (v.handle hashKey s call).2.admin = v.admin ∧
      (call.endpoint ≠ .everyKey → ∃ e, (v.handle hashKey s call).1 = .refused e ∧
        (e.statusCode = 401 ∨ e.statusCode = 403 ∨ e.statusCode = 429)) := by
  obtain ⟨e, refused, status⟩ := requireMaster_refused (c := call.toAuthCall) configured other
  unfold AdminService.handle
  cases call.endpoint with
  | everyKey => exact ⟨rfl, fun distinct => absurd rfl distinct⟩
  | switch enabled name inserted =>
      dsimp only
      rcases found : requireMaster hashKey s v.limiter call.time call.authorization
        with ⟨answer, after⟩
      rw [found] at refused
      dsimp only at refused
      rw [refused]
      exact ⟨rfl, fun _ => ⟨e, rfl, status⟩⟩

variable (configured : s.masterKey = some key) (given : key ≠ "")
include configured given

theorem handle_unwinding (ids : DistinctIds hashKey s) : Purge.Unwinding
    (AdminService.handle hashKey s) (fun call => usesKey hashKey key call.toAuthCall)
    (AdminService.AlikeFor hashKey key) where
  hidden v v' call other alike := by
    have valid := master_valid configured given
    obtain ⟨rpm, hits⟩ := authenticate_other ids valid other
    refine ⟨(handle_other configured other).1.trans alike.admin, ?_, ?_⟩
    · rw [handle_limiter, rpm, alike.rpm]
    · rw [handle_limiter, hits, alike.hits]
  answer v v' call uses alike := by
    have valid := master_valid configured given
    refine (handle_congr alike.admin ?_).1
    rw [authenticate_own valid uses, authenticate_own valid uses, alike.rpm, alike.hits]
  next v v' call uses alike := by
    have valid := master_valid configured given
    have own := @authenticate_own _ _ v.limiter _ _ valid uses
    have own' := @authenticate_own _ _ v'.limiter _ _ valid uses
    refine ⟨(handle_congr alike.admin ?_).2, ?_, ?_⟩
    · rw [own, own', alike.rpm, alike.hits]
    · rw [handle_limiter, handle_limiter, own, own']
      exact alike.rpm
    · rw [handle_limiter, handle_limiter, own, own', alike.rpm, alike.hits]
      simp [GatewayRateLimiter.put]

/-- Every record that a call adds to the trail is the administrator's. -/
theorem handle_records (v : AdminService) (call : ServiceCall) :
    ∃ records, (v.handle hashKey s call).2.admin.auditLog = v.admin.auditLog ++ records ∧
      ∀ r ∈ records, r.actorKeyId = KeyAuthenticator.keyId hashKey key := by
  have kept : v.admin.auditLog = v.admin.auditLog ++ [] := (List.append_nil _).symm
  cases uses : usesKey hashKey key call.toAuthCall with
  | false => exact ⟨[], by rw [(handle_other configured uses).1, List.append_nil], by simp⟩
  | true =>
      unfold AdminService.handle
      cases call.endpoint with
      | everyKey => exact ⟨[], kept, by simp⟩
      | switch enabled name inserted =>
          dsimp only
          rcases found : requireMaster hashKey s v.limiter call.time call.authorization
            with ⟨_ | keyId, after⟩
          · exact ⟨[], kept, by simp⟩
          · have own : keyId = KeyAuthenticator.keyId hashKey key :=
              requireMaster_keyId configured given uses (congrArg Prod.fst found)
            rw [← own]
            exact v.admin.call_records { enabled, inserted, keyId, name }

end unwinding

/-- In every history of calls, with any keys: a switch asked for without the master key is refused;
the administrator is answered, and the providers and the trail are left, as if only the
administrator had called; and all that is added to the trail is the administrator's. -/
theorem admin_isolated (configured : s.masterKey = some key) (given : key ≠ "")
    (ids : DistinctIds hashKey s) (start : AdminService) (calls : List ServiceCall) :
    (∀ entry ∈ Purge.answers (AdminService.handle hashKey s) start calls,
      usesKey hashKey key entry.1.toAuthCall = false → entry.1.endpoint ≠ .everyKey →
        ∃ e, entry.2 = .refused e ∧
          (e.statusCode = 401 ∨ e.statusCode = 403 ∨ e.statusCode = 429)) ∧
    (Purge.answers (AdminService.handle hashKey s) start calls).filter
        (fun entry => usesKey hashKey key entry.1.toAuthCall) =
      Purge.answers (AdminService.handle hashKey s) start
        (calls.filter fun call => usesKey hashKey key call.toAuthCall) ∧
    (Purge.final (AdminService.handle hashKey s) start calls).admin =
      (Purge.final (AdminService.handle hashKey s) start
        (calls.filter fun call => usesKey hashKey key call.toAuthCall)).admin ∧
    ∃ records, (Purge.final (AdminService.handle hashKey s) start calls).admin.auditLog =
        start.admin.auditLog ++ records ∧
      ∀ r ∈ records, r.actorKeyId = KeyAuthenticator.keyId hashKey key := by
  have unwinding := handle_unwinding configured given ids
  have alike : AdminService.AlikeFor hashKey key start start := ⟨rfl, rfl, rfl⟩
  have each := @Purge.answers_forall _ _ _ (AdminService.handle hashKey s)
    (fun v => ∃ records, v.admin.auditLog = start.admin.auditLog ++ records ∧
      ∀ r ∈ records, r.actorKeyId = KeyAuthenticator.keyId hashKey key)
    (fun call answer => usesKey hashKey key call.toAuthCall = false → call.endpoint ≠ .everyKey →
      ∃ e, answer = .refused e ∧
        (e.statusCode = 401 ∨ e.statusCode = 403 ∨ e.statusCode = 429))
    (by
      rintro v call ⟨records, trail, owned⟩
      obtain ⟨more, longer, owned'⟩ := handle_records configured given v call
      refine ⟨records ++ more, by rw [longer, trail, List.append_assoc], fun r member => ?_⟩
      rcases List.mem_append.mp member with old | new
      · exact owned r old
      · exact owned' r new)
    (fun v call _ other => (handle_other configured other).2) calls start
    ⟨[], (List.append_nil _).symm, by simp⟩
  exact ⟨each.1, Purge.answers_purged unwinding calls alike,
    (Purge.final_purged unwinding calls alike).admin, each.2⟩

end service
namespace Demo

/-- `alpha` is the master key; one call a minute is allowed for each key. -/
def keys : AuthSettings := { masterKey := some "alpha", gatewayKeysText := "beta" }

def service : AdminService :=
  { limiter := { rpm := 1 }
    admin := .start (gateway fun _ => config [] 10).app.registry }

/-- `beta` asks for a switch, and then for too much; `alpha` switches `b` off. -/
def mixedCalls : List ServiceCall :=
  [⟨⟨1, some "Bearer beta"⟩, .switch false "a" true⟩,
    ⟨⟨2, some "Bearer alpha"⟩, .switch false "b" true⟩,
    ⟨⟨3, some "Bearer beta"⟩, .everyKey⟩,
    ⟨⟨4, some "Bearer guess"⟩, .switch true "b" true⟩]

theorem keys_distinct : DistinctIds shortDigest keys where
  keys key member key' member' same := by
    have listed : keys.gatewayKeys = ["beta", "alpha"] := by decide
    simp only [Set.mem_ofPred_eq, listed, List.mem_cons, List.not_mem_nil, or_false]
      at member member'
    rcases member with rfl | rfl <;> rcases member' with rfl | rfl
    · rfl
    · exact absurd same (by decide)
    · exact absurd same (by decide)
    · rfl
  length text := by
    unfold shortDigest
    split_ifs <;> decide

end Demo

theorem admin_isolated_mixed_calls :
    (Purge.answers (AdminService.handle Demo.shortDigest Demo.keys) Demo.service
        Demo.mixedCalls).filter
          (fun entry => usesKey Demo.shortDigest "alpha" entry.1.toAuthCall) =
      Purge.answers (AdminService.handle Demo.shortDigest Demo.keys) Demo.service
        (Demo.mixedCalls.filter fun call => usesKey Demo.shortDigest "alpha" call.toAuthCall) ∧
    (Purge.final (AdminService.handle Demo.shortDigest Demo.keys) Demo.service
        Demo.mixedCalls).admin =
      (Purge.final (AdminService.handle Demo.shortDigest Demo.keys) Demo.service
        (Demo.mixedCalls.filter
          fun call => usesKey Demo.shortDigest "alpha" call.toAuthCall)).admin :=
  have isolated := admin_isolated (s := Demo.keys) rfl (by decide) Demo.keys_distinct Demo.service
    Demo.mixedCalls
  ⟨isolated.2.1, isolated.2.2.1⟩

end Noxis
