import Noxis.Errors
import Noxis.Gateway

/-! The admin switches and their audit trail. A switch changes the registry in memory and then
writes a record to the database, and the write may fail. -/
namespace Noxis

structure AuditLogRecord where
  actorKeyId : String
  action : String
  details : List (String × String)
  deriving DecidableEq

structure AdminState where
  registry : ProviderRegistry
  auditLog : List AuditLogRecord := []

inductive AdminAnswer where
  | switched (provider : String) (enabled : Bool)
  | failed (e : NoxisError)
  | databaseError
  deriving DecidableEq

def AdminAnswer.isError : AdminAnswer → Bool
  | .switched _ _ => false
  | _ => true

/-- `usage.audit`: whether the insert is committed is up to the database. -/
def audit (s : AdminState) (inserted : Bool) (actorKeyId action : String)
    (details : List (String × String)) : Bool × AdminState :=
  if inserted then (true, { s with auditLog := s.auditLog ++ [{ actorKeyId, action, details }] })
  else (false, s)

/-- The two endpoints differ in the switch and in the action they record. -/
def adminSwitch (s : AdminState) (enabled : Bool) (action : String) (inserted : Bool)
    (keyId name : String) : AdminAnswer × AdminState :=
  let (known, registry) := s.registry.setEnabled name enabled
  if !known then (.failed (notFoundError s!"Unknown provider '{name}'."), s)
  else
    let (written, s) := audit { s with registry } inserted keyId action [("provider", name)]
    if written then (.switched name enabled, s) else (.databaseError, s)

def adminEnable (s : AdminState) (inserted : Bool) (keyId name : String) :
    AdminAnswer × AdminState :=
  adminSwitch s true "provider_enable" inserted keyId name

def adminDisable (s : AdminState) (inserted : Bool) (keyId name : String) :
    AdminAnswer × AdminState :=
  adminSwitch s false "provider_disable" inserted keyId name

/-- A call, and whether the database takes its record. -/
structure AdminCall where
  enabled : Bool
  inserted : Bool
  keyId : String
  name : String

/-- The record that a call is to leave. -/
def AdminCall.record (c : AdminCall) : AuditLogRecord :=
  { actorKeyId := c.keyId, action := if c.enabled then "provider_enable" else "provider_disable",
    details := [("provider", c.name)] }

namespace AdminState

/-- A registry without a trail. -/
def start (registry : ProviderRegistry) : AdminState := { registry }

def call (s : AdminState) (c : AdminCall) : AdminAnswer × AdminState :=
  if c.enabled then adminEnable s c.inserted c.keyId c.name
  else adminDisable s c.inserted c.keyId c.name

def calls (s : AdminState) (cs : List AdminCall) : AdminState :=
  cs.foldl (fun s c => (s.call c).2) s

theorem calls_append_singleton (s : AdminState) (before : List AdminCall) (c : AdminCall) :
    s.calls (before ++ [c]) = ((s.calls before).call c).2 := by
  rw [calls, calls, List.foldl_append]
  rfl

/-! ### What one call does -/

section call

variable (s : AdminState) (c : AdminCall)

theorem call_eq : s.call c = adminSwitch s c.enabled c.record.action c.inserted c.keyId c.name := by
  unfold call AdminCall.record
  cases c.enabled <;> rfl

theorem call_unknown (unknown : c.name ∉ s.registry.names) :
    (s.call c).1.isError = true ∧ (s.call c).2 = s := by
  rw [call_eq, adminSwitch, ProviderRegistry.setEnabled, if_pos unknown]
  exact ⟨rfl, rfl⟩

variable (known : c.name ∈ s.registry.names)
include known

theorem setEnabled_known (enabled : Bool) : (s.registry.setEnabled c.name enabled).1 = true := by
  unfold ProviderRegistry.setEnabled
  rw [if_neg (not_not.mpr known)]
  split_ifs <;> rfl

theorem call_inserted (inserted : c.inserted = true) :
    (s.call c).1.isError = false ∧ (s.call c).2 =
      { registry := (s.registry.setEnabled c.name c.enabled).2,
        auditLog := s.auditLog ++ [c.record] } := by
  have found := s.setEnabled_known c known c.enabled
  rw [call_eq]
  simp only [adminSwitch, audit, found, inserted, Bool.not_true, Bool.false_eq_true, if_false,
    if_true]
  exact ⟨rfl, rfl⟩

/-- The switch is already made when the insert fails. -/
theorem call_lost (lost : c.inserted = false) :
    (s.call c).1.isError = true ∧ (s.call c).2 =
      { s with registry := (s.registry.setEnabled c.name c.enabled).2 } := by
  have found := s.setEnabled_known c known c.enabled
  rw [call_eq]
  simp only [adminSwitch, audit, found, lost, Bool.not_true, Bool.false_eq_true, if_false]
  exact ⟨rfl, trivial⟩

/-- A switch to the state in force changes nothing. -/
theorem setEnabled_eq_iff (enabled : Bool) :
    (s.registry.setEnabled c.name enabled).2.disabledOverrides = s.registry.disabledOverrides ↔
      s.registry.isAdminDisabled c.name = !enabled := by
  unfold ProviderRegistry.setEnabled ProviderRegistry.isAdminDisabled
  rw [if_neg (not_not.mpr known)]
  cases enabled <;> simp

theorem setEnabled_eq_self {enabled : Bool}
    (idle : s.registry.isAdminDisabled c.name = !enabled) :
    (s.registry.setEnabled c.name enabled).2 = s.registry := by
  have same := (s.setEnabled_eq_iff c known enabled).mpr idle
  unfold ProviderRegistry.setEnabled at same ⊢
  split_ifs at same ⊢
  · dsimp only at same
    rw [same]
  · dsimp only at same
    rw [same]

end call

end AdminState

/-- One record applied to the registry: its action on the provider it names. -/
def AuditLogRecord.replay (record : AuditLogRecord) (r : ProviderRegistry) : ProviderRegistry :=
  match record.details.lookup "provider" with
  | none => r
  | some name =>
      if record.action = "provider_enable" then (r.setEnabled name true).2
      else if record.action = "provider_disable" then (r.setEnabled name false).2
      else r

/-- The records of an audit trail applied in order. -/
def replayLog (r : ProviderRegistry) (records : List AuditLogRecord) : ProviderRegistry :=
  records.foldl (fun r record => record.replay r) r

theorem replayLog_append_singleton (r : ProviderRegistry) (records : List AuditLogRecord)
    (record : AuditLogRecord) :
    replayLog r (records ++ [record]) = record.replay (replayLog r records) := by
  rw [replayLog, List.foldl_append]
  rfl

theorem AdminCall.record_replay (c : AdminCall) (r : ProviderRegistry) :
    c.record.replay r = (r.setEnabled c.name c.enabled).2 := by
  unfold AuditLogRecord.replay AdminCall.record
  cases c.enabled <;> rfl

/-- Over a sequence of calls from a registry on, with an empty trail: a call that ends in an error
leaves the overrides alone, and after each call a provider is enabled as the trail says. -/
structure SwitchesAudited (r : ProviderRegistry) (cs : List AdminCall) : Prop where
  failed : ∀ before c after, cs = before ++ c :: after →
    (((AdminState.start r).calls before).call c).1.isError = true →
      (((AdminState.start r).calls before).call c).2.registry.disabledOverrides =
        ((AdminState.start r).calls before).registry.disabledOverrides
  replayed : ∀ before after, cs = before ++ after → ∀ name,
    name ∈ ((AdminState.start r).calls before).registry.enabled ↔
      name ∈ (replayLog r ((AdminState.start r).calls before).auditLog).enabled

/-- Where the insert fails, the switch is one to the state in force. -/
def LostSwitchesIdle (r : ProviderRegistry) (cs : List AdminCall) : Prop :=
  ∀ before c after, cs = before ++ c :: after → c.inserted = false →
    c.name ∈ ((AdminState.start r).calls before).registry.names →
      ((AdminState.start r).calls before).registry.isAdminDisabled c.name = !c.enabled

section run

variable {r : ProviderRegistry} {cs : List AdminCall}

/-- Between idle failures the registry is the replay of its trail. -/
theorem calls_replay (idle : LostSwitchesIdle r cs) {before after : List AdminCall}
    (split : cs = before ++ after) :
    ((AdminState.start r).calls before).registry =
      replayLog r ((AdminState.start r).calls before).auditLog := by
  induction before using List.reverseRecOn generalizing after with
  | nil => rfl
  | append_singleton before c ih =>
      have here : cs = before ++ c :: after := by simpa using split
      have same := ih here
      rw [AdminState.calls_append_singleton]
      set s := (AdminState.start r).calls before with state
      by_cases known : c.name ∈ s.registry.names
      · cases inserted : c.inserted with
        | true =>
            rw [(s.call_inserted c known inserted).2]
            dsimp only
            rw [replayLog_append_singleton, ← same, c.record_replay]
        | false =>
            rw [(s.call_lost c known inserted).2]
            dsimp only
            rw [s.setEnabled_eq_self c known (idle before c after here inserted known)]
            exact same
      · rw [(s.call_unknown c known).2]
        exact same

/-- The switches agree with their trail if and only if no insert fails after a change. -/
theorem switches_audited_iff : SwitchesAudited r cs ↔ LostSwitchesIdle r cs := by
  constructor
  · intro audited before c after split lost known
    have call := ((AdminState.start r).calls before).call_lost c known lost
    have same := audited.failed before c after split call.1
    rw [call.2] at same
    exact (AdminState.setEnabled_eq_iff _ c known c.enabled).mp same
  · intro idle
    constructor
    · intro before c after split error
      set s := (AdminState.start r).calls before
      by_cases known : c.name ∈ s.registry.names
      · have lost : c.inserted = false := by
          by_contra inserted
          rw [(s.call_inserted c known (by simpa using inserted)).1] at error
          cases error
        rw [(s.call_lost c known lost).2]
        exact (s.setEnabled_eq_iff c known c.enabled).mpr (idle before c after split lost known)
      · rw [(s.call_unknown c known).2]
    · intro before after split name
      rw [calls_replay idle split]

end run

/-- One switch whose record is lost: the provider is off, and the trail is empty. -/
theorem lost_record : ¬ SwitchesAudited (Demo.gateway fun _ => Demo.config [] 10).app.registry
    [{ enabled := false, inserted := false, keyId := "master", name := "a" }] := by
  intro audited
  exact absurd (audited.failed [] _ [] rfl (by decide)) (by decide)

end Noxis
