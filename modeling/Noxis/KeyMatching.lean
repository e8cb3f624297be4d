import Noxis.Security

/-! Which tokens the gateway accepts. Tokens are trimmed on their way in; the keys of the
comma-separated list are trimmed as well, the master key is not. -/
namespace Noxis

/-- Trimming leaves nothing to trim. -/
theorem strip_strip (cs : List Char) : strip (strip cs).toList = strip cs := by
  have inner : (strip cs).toList = (cs.dropWhile isPySpace).rdropWhile isPySpace := by
    simp [strip, List.rdropWhile]
  have starts : ((cs.dropWhile isPySpace).rdropWhile isPySpace).dropWhile isPySpace =
      (cs.dropWhile isPySpace).rdropWhile isPySpace := by
    obtain ⟨rest, split⟩ := List.rdropWhile_prefix isPySpace (cs.dropWhile isPySpace)
    have head := List.head?_dropWhile_not isPySpace cs
    cases kept : (cs.dropWhile isPySpace).rdropWhile isPySpace with
    | nil => rfl
    | cons c tail =>
        rw [kept] at split
        rw [← split] at head
        simp only [List.cons_append, List.head?_cons] at head
        rw [List.dropWhile_cons, if_neg (by simpa using head)]
  have again : strip (strip cs).toList =
      String.ofList (((strip cs).toList.dropWhile isPySpace).rdropWhile isPySpace) := rfl
  rw [again, inner, starts, List.rdropWhile_idempotent]
  rfl

theorem extractBearerToken_bearer {scheme : String} (raw : String)
    (bearer : scheme.toList.map Char.toLower = "bearer ".toList) :
    extractBearerToken (some (scheme ++ raw)) = some (strip raw.toList) := by
  have seven : scheme.toList.length = 7 := by simpa using congrArg List.length bearer
  have whole : (scheme ++ raw).toList = scheme.toList ++ raw.toList := String.toList_append
  have nonempty : scheme ++ raw ≠ "" := by
    intro empty
    have lengths := congrArg (fun t => t.toList.length) empty
    simp only [whole, List.length_append, seven] at lengths
    simp at lengths
  have starts : hasBearerPrefix (scheme ++ raw) = true := by
    rw [hasBearerPrefix, whole, ← seven, List.take_left, bearer]
    exact decide_eq_true rfl
  have rest : (scheme ++ raw).toList.drop 7 = raw.toList := by
    rw [whole, ← seven, List.drop_left]
  dsimp only [extractBearerToken]
  rw [if_neg (by simp [nonempty, starts]), rest]

section hashing
variable {hashKey : String → String} (s : AuthSettings)

theorem isValid_iff (injective : Function.Injective hashKey) (token : String) :
    KeyAuthenticator.isValid hashKey s token = true ↔ token ∈ s.gatewayKeys := by
  rw [KeyAuthenticator.isValid, KeyAuthenticator.validHashes, List.any_map, List.any_eq_true]
  constructor
  · rintro ⟨key, member, same⟩
    rw [injective (of_decide_eq_true same)]
    exact member
  · intro member
    exact ⟨token, member, decide_eq_true rfl⟩

/-- Whether a bearer token is accepted. -/
theorem requireAuth_bearer (injective : Function.Injective hashKey) {scheme : String}
    (raw : String) (bearer : scheme.toList.map Char.toLower = "bearer ".toList) :
    (∃ keyId, requireAuth hashKey s (some (scheme ++ raw)) = .ok keyId) ↔
      strip raw.toList ∈ s.gatewayKeys := by
  rw [← isValid_iff s injective, requireAuth, extractBearerToken_bearer raw bearer]
  cases valid : KeyAuthenticator.isValid hashKey s (strip raw.toList) <;> simp [valid]

/-- Whether the admin endpoints let a caller in, whom the limiter has to admit as well. -/
theorem requireMaster_iff (injective : Function.Injective hashKey) (limiter : GatewayRateLimiter)
    (now : ℚ) (authorization : Option String) :
    (∃ keyId, (requireMaster hashKey s limiter now authorization).1 = .ok keyId) ↔
      ∃ master, s.masterKey = some master ∧ master ≠ "" ∧
        extractBearerToken authorization = some master ∧
        (limiter.allow now (KeyAuthenticator.keyId hashKey master)).1 = true := by
  simp only [requireMaster_eq_ok, authenticate_eq_ok]
  constructor
  · rintro ⟨keyId, ⟨accepted, admits⟩, some_master, some_token, same⟩
    cases configured : s.masterKey with
    | none => simp [configured] at some_master
    | some master =>
        cases found : extractBearerToken authorization with
        | none => simp [found] at some_token
        | some token =>
            simp only [configured, found, Option.getD_some] at some_master same
            obtain rfl := injective same
            have id : keyId = KeyAuthenticator.keyId hashKey token := by
              rw [requireAuth, found] at accepted
              dsimp only at accepted
              split_ifs at accepted
              exact (Except.ok.inj accepted).symm
            rw [id] at admits
            exact ⟨token, rfl, some_master, rfl, admits⟩
  · rintro ⟨master, configured, some_master, found, admits⟩
    have known : KeyAuthenticator.isValid hashKey s master = true := by
      apply (isValid_iff s injective master).mpr
      simp [AuthSettings.gatewayKeys, configured, some_master]
    have accepted : requireAuth hashKey s authorization =
        .ok (KeyAuthenticator.keyId hashKey master) := by
      simp [requireAuth, found, known]
    refine ⟨KeyAuthenticator.keyId hashKey master, ⟨accepted, admits⟩, ?_⟩
    simp [configured, found, some_master]

end hashing

/-- What a configuration should give: a bearer token is accepted exactly where its
trimmed text is a key, every key is accepted as the client would send it, and only the
master key opens the admin endpoints. -/
structure AcceptsItsKeys (hashKey : String → String) (s : AuthSettings) : Prop where
  bearer : ∀ scheme raw : String, scheme.toList.map Char.toLower = "bearer ".toList →
    ((∃ keyId, requireAuth hashKey s (some (scheme ++ raw)) = .ok keyId) ↔
      strip raw.toList ∈ s.gatewayKeys)
  configured : ∀ key ∈ s.gatewayKeys, ∃ keyId,
    requireAuth hashKey s (some ("Bearer " ++ key)) = .ok keyId
  admin : ∀ limiter now authorization,
    (∃ keyId, (requireMaster hashKey s limiter now authorization).1 = .ok keyId) ↔
      ∃ master, s.masterKey = some master ∧ master ≠ "" ∧
        extractBearerToken authorization = some master ∧
        (limiter.allow now (KeyAuthenticator.keyId hashKey master)).1 = true

/-- The comma-separated keys are trimmed already. -/
theorem strip_listed_key {s : AuthSettings} {key : String} (member : key ∈ s.gatewayKeys) :
    strip key.toList = key ∨ s.masterKey = some key ∧ key ≠ "" := by
  rcases List.mem_append.mp member with listed | master
  · left
    obtain ⟨piece, -, rfl⟩ := List.mem_map.mp (List.mem_of_mem_filter listed)
    exact strip_strip piece
  · right
    cases configured : s.masterKey with
    | none => simp [configured] at master
    | some text =>
        by_cases empty : text = ""
        · simp [configured, empty] at master
        · have same : key = text := by simpa [configured, empty] using master
          rw [same]
          exact ⟨rfl, empty⟩

theorem gateway_accepts_iff {hashKey : String → String} (injective : Function.Injective hashKey)
    (s : AuthSettings) :
    AcceptsItsKeys hashKey s ↔
      ∀ master, s.masterKey = some master → master ≠ "" →
        strip master.toList ∈ s.gatewayKeys := by
  have bearer : "Bearer ".toList.map Char.toLower = "bearer ".toList := by decide
  constructor
  · intro accepts master configured some_master
    have member : master ∈ s.gatewayKeys := by
      simp [AuthSettings.gatewayKeys, configured, some_master]
    exact (requireAuth_bearer s injective master bearer).mp (accepts.configured master member)
  · intro trimmed
    refine ⟨fun scheme raw => requireAuth_bearer s injective raw, ?_,
      requireMaster_iff s injective⟩
    intro key member
    apply (requireAuth_bearer s injective key bearer).mpr
    rcases strip_listed_key member with same | ⟨configured, some_master⟩
    · rw [same]
      exact member
    · exact trimmed key configured some_master

/-- The digests of two keys, as an injective function. -/
def Demo.digest (text : String) : String :=
  Equiv.swap "secret" "2bb80d537b1da3e38bd30361aa855686bde0eacd7162fef6a25fe97bf527a25b"
    (Equiv.swap "secret " "c34f63ae5db1f9d5eff9f174617fd21cfdd8450d22432eac0db334c80c355370" text)

theorem Demo.digest_injective : Function.Injective Demo.digest :=
  (Equiv.injective _).comp (Equiv.injective _)

theorem gateway_accepts_iff_plain_master_key :
    AcceptsItsKeys Demo.digest { masterKey := some "secret", gatewayKeysText := " secret ,, " } := by
  apply (gateway_accepts_iff Demo.digest_injective _).mpr
  intro master configured _
  obtain rfl := Option.some.inj configured
  decide

/-- A blank behind the master key: the key is configured, and no header carries it. -/
theorem padded_master_key_refused :
    let s : AuthSettings := { masterKey := some "secret " }
    "secret " ∈ s.gatewayKeys ∧
      requireAuth Demo.digest s (some "Bearer secret ") =
        .error (authenticationError "Invalid NOXIS API key.") ∧
      ¬ AcceptsItsKeys Demo.digest s := by
  intro s
  have member : "secret " ∈ s.gatewayKeys := by decide
  have refused : requireAuth Demo.digest s (some ("Bearer " ++ "secret ")) =
      .error (authenticationError "Invalid NOXIS API key.") := by decide
  refine ⟨member, refused, fun accepts => ?_⟩
  obtain ⟨keyId, accepted⟩ := accepts.configured "secret " member
  rw [refused] at accepted
  cases accepted

end Noxis
