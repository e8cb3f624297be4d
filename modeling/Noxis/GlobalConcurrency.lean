import Noxis.UsageBookkeeping
import Noxis.Library.Tally
import Noxis.Library.Tasks
import Noxis.ActiveRequests

/-! The chat endpoint over the scheduler, and what the semaphore of the endpoint bounds. A slot
is held around the whole `execute`, and by the generator of a streaming response; the scheduler's
own generator is closed only after that one, so a stream whose client left at a chunk gives its
slot back before its provider. -/
namespace Noxis

/-- The request has a slot of the semaphore. -/
def ChatStage.holds (st : ChatStage) : Bool := st = .serving ∨ st = .streaming

/-- The path of the scheduler that is called while the slot is held. -/
def ChatStage.path : ChatStage → Option Path
  | .serving => some .execute
  | .streaming => some .executeStream
  | _ => none

namespace ChatService

section slots
variable (g : ChatService) (i : ℕ) (st : ChatStage)

@[simp] theorem freeSlots_inc : g.inc.freeSlots = g.freeSlots := rfl
@[simp] theorem freeSlots_dec : g.dec.freeSlots = g.freeSlots := rfl
@[simp] theorem freeSlots_take : g.take.freeSlots = g.freeSlots - 1 := rfl
@[simp] theorem freeSlots_giveBack : g.giveBack.freeSlots = g.freeSlots + 1 := rfl
@[simp] theorem freeSlots_add : (g.add st).freeSlots = g.freeSlots := rfl
@[simp] theorem freeSlots_put : (g.put i st).freeSlots = g.freeSlots := rfl

end slots

variable {limits : ChatLimits} {g g' : ChatService} {errors : List NoxisError}

theorem step_receive {payload : ChatCompletionRequest}
    (moved : step limits g (.receive payload) = some (g', errors)) :
    ∃ st, g'.requests = g.requests ++ [st] := by
  cases step_moves moved with
  | rejected | begin | queue => exact ⟨_, rfl⟩

theorem step_enter {i : ℕ} (moved : step limits g (.enter i) = some (g', errors)) :
    ∃ st, st.holds = true ∧ g'.requests = g.requests.set i st := by
  cases step_moves moved with
  | serve | stream => exact ⟨_, rfl, rfl⟩

theorem step_answer {i : ℕ} (moved : step limits g (.answer i) = some (g', errors)) :
    g'.requests = g.requests.set i .sending := by
  cases step_moves moved with
  | answer => rfl

theorem step_finish {i : ℕ} (moved : step limits g (.finish i) = some (g', errors)) :
    g'.requests = g.requests.set i .finished := by
  cases step_moves moved with
  | giveUp | abort | refuse | close | streamed => rfl

/-- Slots are moved between the semaphore and the requests. -/
theorem step_slots {act : ChatAction} (moved : step limits g act = some (g', errors)) :
    g'.freeSlots + g'.count ChatStage.holds = g.freeSlots + g.count ChatStage.holds := by
  have room : ∀ i, act = .enter i → 1 ≤ g.freeSlots := by
    rintro i rfl
    simp only [step] at moved
    split_ifs at moved with empty
    exact Nat.one_le_iff_ne_zero.mpr empty
  cases step_moves moved with
  | rejected | begin | queue => simp [ChatStage.holds]
  | @serve i found =>
      have counted : (g.take.put i .serving).count _ + _ = _ :=
        count_put ChatStage.holds found .serving
      have := room i rfl
      simp only [ChatStage.holds, freeSlots_put, freeSlots_take] at counted ⊢
      simp at counted
      omega
  | @stream i found =>
      have counted : (g.take.put i .streaming).count _ + _ = _ :=
        count_put ChatStage.holds found .streaming
      have := room i rfl
      simp only [ChatStage.holds, freeSlots_put, freeSlots_take] at counted ⊢
      simp at counted
      omega
  | @giveUp i found =>
      exact congrArg (g.freeSlots + ·) (count_put_same ChatStage.holds found .finished rfl)
  | @refuse i found =>
      exact congrArg (g.freeSlots + ·) (count_put_same ChatStage.holds found .finished rfl)
  | @close i st found ended =>
      refine congrArg (g.freeSlots + ·) (count_put_same ChatStage.holds found .finished ?_)
      rcases ended with rfl | rfl <;> rfl
  | @answer i found =>
      have gone : (g.giveBack.dec.put i .sending).count _ + 1 = _ :=
        count_put_gone ChatStage.holds found .sending rfl rfl
      simp only [freeSlots_put, freeSlots_dec, freeSlots_giveBack]
      omega
  | @abort i found =>
      have gone : (g.giveBack.dec.put i .finished).count _ + 1 = _ :=
        count_put_gone ChatStage.holds found .finished rfl rfl
      simp only [freeSlots_put, freeSlots_dec, freeSlots_giveBack]
      omega
  | @streamed i found =>
      have gone : (g.giveBack.put i .finished).count _ + 1 = _ :=
        count_put_gone ChatStage.holds found .finished rfl rfl
      simp only [freeSlots_put, freeSlots_giveBack]
      omega

end ChatService

/-- The endpoint, the scheduler behind it, the payload of every request received, and for every
run of the scheduler the request it serves. -/
structure ChatGateway where
  service : ChatService
  gateway : Gateway
  payloads : List ChatCompletionRequest := []
  owners : List ℕ := []

inductive ServedAction where
  | receive (payload : ChatCompletionRequest)
  | enter (i : ℕ)
  -- the request calls the scheduler, unless its answer comes from the cache
  | call (i : ℕ)
  | run (j : ℕ) (a : RunAction)
  -- the handler returns or raises; its run, if it has one, is over
  | answer (i : ℕ)
  | finish (i : ℕ)
  -- the scheduler's generator is closed after the generator that read it
  | close (j : ℕ)
  | background (a : Action)

def RunAction.isCancel : RunAction → Bool
  | .cancel => true
  | _ => false

/-- The run waits for the provider, or for its backoff, so that only a cancellation of the
request can end it. -/
def RunState.suspended : RunState → Bool
  | .calling _ | .sleeping _ _ => true
  | .yielding _ | .finished _ => false

/-- The action is not about a run of the scheduler. -/
def Action.isBackground : Action → Bool
  | .begin _ _ | .run _ _ => false
  | _ => true

namespace ChatGateway

def boot (capacity : ℕ) (now : ℚ) (names : List String) (nodup : names.Nodup)
    (config : String → ProviderConfig) : ChatGateway :=
  { service := { activeRequests := 0, freeSlots := capacity }
    gateway := .boot now names nodup config }

/-- Where the request of the `j`-th run stands. -/
def stageOf (g : ChatGateway) (j : ℕ) : Option ChatStage :=
  (g.owners[j]?).bind fun i => g.service.requests[i]?

variable (limits : ChatLimits) (sch : Scheduler)

def step (g : ChatGateway) : ServedAction → Option (ChatGateway × List Event)
  | .receive payload =>
      (ChatService.step limits g.service (.receive payload)).map fun (service, _) =>
        ({ g with service, payloads := g.payloads ++ [payload] }, [])
  | .enter i =>
      (ChatService.step limits g.service (.enter i)).map fun (service, _) => ({ g with service }, [])
  | .call i =>
      if i ∈ g.owners then none
      else (g.payloads[i]?).bind fun payload =>
        ((g.service.requests[i]?).bind ChatStage.path).bind fun path =>
          (Gateway.step sch g.gateway (.begin path payload)).map fun (gateway, events) =>
            ({ g with gateway, owners := g.owners ++ [i] }, events)
  | .run j a =>
      if (g.stageOf j).any ChatStage.holds && !a.isCancel then
        (Gateway.step sch g.gateway (.run j a)).map fun (gateway, events) => ({ g with gateway }, events)
      else none
  | .answer i =>
      if (g.gateway.runs[g.owners.idxOf i]?).any fun st => st.attempt.isSome then none
      else (ChatService.step limits g.service (.answer i)).map fun (service, _) =>
        ({ g with service }, [])
  | .finish i =>
      (ChatService.step limits g.service (.finish i)).bind fun (service, _) =>
        let j := g.owners.idxOf i
        if (g.gateway.runs[j]?).any RunState.suspended then
          (Gateway.step sch g.gateway (.run j .cancel)).map fun (gateway, events) =>
            ({ g with service, gateway }, events)
        else some ({ g with service }, [])
  | .close j =>
      if g.stageOf j = some .finished then
        (Gateway.step sch g.gateway (.run j .cancel)).map fun (gateway, events) =>
          ({ g with gateway }, events)
      else none
  | .background a =>
      if a.isBackground then
        (Gateway.step sch g.gateway a).map fun (gateway, events) => ({ g with gateway }, events)
      else none

/-- Everything a step can do. -/
inductive Moves (g : ChatGateway) : ServedAction → ChatGateway → List Event → Prop
  | receive {payload : ChatCompletionRequest} {service : ChatService} {errors : List NoxisError}
      (served : ChatService.step limits g.service (.receive payload) = some (service, errors)) :
      Moves g (.receive payload) { g with service, payloads := g.payloads ++ [payload] } []
  | enter {i : ℕ} {service : ChatService} {errors : List NoxisError}
      (served : ChatService.step limits g.service (.enter i) = some (service, errors)) :
      Moves g (.enter i) { g with service } []
  | call {i : ℕ} {payload : ChatCompletionRequest} {stage : ChatStage} {path : Path}
      {gateway : Gateway} {events : List Event} (fresh : i ∉ g.owners)
      (found : g.service.requests[i]? = some stage) (behind : stage.path = some path)
      (moved : Gateway.step sch g.gateway (.begin path payload) = some (gateway, events)) :
      Moves g (.call i) { g with gateway, owners := g.owners ++ [i] } events
  | run {j i : ℕ} {stage : ChatStage} {a : RunAction} {gateway : Gateway} {events : List Event}
      (owned : g.owners[j]? = some i) (found : g.service.requests[i]? = some stage)
      (holds : stage.holds = true)
      (moved : Gateway.step sch g.gateway (.run j a) = some (gateway, events)) :
      Moves g (.run j a) { g with gateway } events
  | answer {i : ℕ} {service : ChatService} {errors : List NoxisError}
      (served : ChatService.step limits g.service (.answer i) = some (service, errors))
      (ended : ∀ st, g.gateway.runs[g.owners.idxOf i]? = some st → st.attempt = none) :
      Moves g (.answer i) { g with service } []
  | finish {i : ℕ} {service : ChatService} {errors : List NoxisError}
      (served : ChatService.step limits g.service (.finish i) = some (service, errors))
      (settled : ∀ st, g.gateway.runs[g.owners.idxOf i]? = some st → st.suspended = false) :
      Moves g (.finish i) { g with service } []
  | cancel {i : ℕ} {service : ChatService} {errors : List NoxisError} {gateway : Gateway}
      {events : List Event}
      (served : ChatService.step limits g.service (.finish i) = some (service, errors))
      (moved : Gateway.step sch g.gateway (.run (g.owners.idxOf i) .cancel) = some (gateway, events)) :
      Moves g (.finish i) { g with service, gateway } events
  | close {j : ℕ} {gateway : Gateway} {events : List Event}
      (moved : Gateway.step sch g.gateway (.run j .cancel) = some (gateway, events)) :
      Moves g (.close j) { g with gateway } events
  | background {a : Action} {gateway : Gateway} {events : List Event} (other : a.isBackground = true)
      (moved : Gateway.step sch g.gateway a = some (gateway, events)) :
      Moves g (.background a) { g with gateway } events

variable {limits sch}

theorem step_moves {g g' : ChatGateway} {act : ServedAction} {events : List Event}
    (moved : step limits sch g act = some (g', events)) : Moves limits sch g act g' events := by
  cases act with
  | receive payload =>
      simp only [step, Option.map_eq_some_iff] at moved
      obtain ⟨⟨service, errors⟩, served, eq⟩ := moved
      obtain ⟨rfl, rfl⟩ := Prod.mk.inj eq
      exact .receive served
  | enter i =>
      simp only [step, Option.map_eq_some_iff] at moved
      obtain ⟨⟨service, errors⟩, served, eq⟩ := moved
      obtain ⟨rfl, rfl⟩ := Prod.mk.inj eq
      exact .enter served
  | call i =>
      simp only [step] at moved
      split_ifs at moved with taken
      simp only [Option.bind_eq_some_iff, Option.map_eq_some_iff] at moved
      obtain ⟨payload, -, path, ⟨stage, found, behind⟩, ⟨gateway, evs⟩, moved, eq⟩ := moved
      obtain ⟨rfl, rfl⟩ := Prod.mk.inj eq
      exact .call taken found behind moved
  | run j a =>
      simp only [step] at moved
      split_ifs at moved with may
      simp only [Bool.and_eq_true, Option.any_eq_true, stageOf, Option.bind_eq_some_iff] at may
      obtain ⟨⟨stage, ⟨i, owned, found⟩, holds⟩, -⟩ := may
      simp only [Option.map_eq_some_iff] at moved
      obtain ⟨⟨gateway, evs⟩, moved, eq⟩ := moved
      obtain ⟨rfl, rfl⟩ := Prod.mk.inj eq
      exact .run owned found holds moved
  | answer i =>
      simp only [step] at moved
      split_ifs at moved with live
      simp only [Option.map_eq_some_iff] at moved
      obtain ⟨⟨service, errors⟩, served, eq⟩ := moved
      obtain ⟨rfl, rfl⟩ := Prod.mk.inj eq
      refine .answer served fun st found => ?_
      simpa [found] using live
  | finish i =>
      simp only [step, Option.bind_eq_some_iff] at moved
      obtain ⟨⟨service, errors⟩, served, moved⟩ := moved
      split_ifs at moved with waits
      · simp only [Option.map_eq_some_iff] at moved
        obtain ⟨⟨gateway, evs⟩, moved, eq⟩ := moved
        obtain ⟨rfl, rfl⟩ := Prod.mk.inj eq
        exact .cancel served moved
      · obtain ⟨rfl, rfl⟩ := Prod.mk.inj (Option.some.inj moved)
        refine .finish served fun st found => ?_
        simpa [found] using waits
  | close j =>
      simp only [step] at moved
      split_ifs at moved with left
      simp only [Option.map_eq_some_iff] at moved
      obtain ⟨⟨gateway, evs⟩, moved, eq⟩ := moved
      obtain ⟨rfl, rfl⟩ := Prod.mk.inj eq
      exact .close moved
  | background a =>
      simp only [step] at moved
      split_ifs at moved with other
      simp only [Option.map_eq_some_iff] at moved
      obtain ⟨⟨gateway, evs⟩, moved, eq⟩ := moved
      obtain ⟨rfl, rfl⟩ := Prod.mk.inj eq
      exact .background other moved

/-- The runs of the scheduler, each with the request it serves. -/
def tasks (g : ChatGateway) : List (ℕ × RunState) := g.owners.zip g.gateway.runs

/-- The run of a request that has ended, whose generator has not been closed. -/
def Abandoned (g : ChatGateway) (p : ℕ × RunState) : Prop :=
  p.2.attempt.isSome ∧ g.service.requests[p.1]? = some .finished

instance (g : ChatGateway) : DecidablePred g.Abandoned := fun _ => inferInstanceAs (Decidable (_ ∧ _))

def abandoned (g : ChatGateway) : ℕ := g.tasks.countP fun p => g.Abandoned p

/-- Requests that hold a slot of the semaphore. -/
def holding (g : ChatGateway) : ℕ := g.service.count ChatStage.holds

/-- Where the request of a live run stands: it holds its slot, or has left the run at a chunk. -/
def Attended (requests : List ChatStage) (i : ℕ) (st : RunState) : Prop :=
  st.attempt.isSome → ∃ stage, requests[i]? = some stage ∧
    (stage.holds = true ∨ stage = .finished ∧ ∃ a, st = .yielding a)

/-- Every request has at most one run, and every live run is attended. -/
structure Matched (g : ChatGateway) : Prop where
  numbered : g.owners.length = g.gateway.runs.length
  once : g.owners.Nodup
  attended : ∀ (j i : ℕ) st, g.owners[j]? = some i → g.gateway.runs[j]? = some st →
    Attended g.service.requests i st

end ChatGateway

namespace Gateway

variable {sch : Scheduler} {g g' : Gateway} {events : List Event}

theorem step_begin_runs {path : Path} {request : ChatCompletionRequest}
    (moved : step sch g (.begin path request) = some (g', events)) :
    ∃ st, g'.runs = g.runs ++ [st] := by
  cases step_steps moved with
  | begin => exact ⟨_, rfl⟩

theorem step_run_runs {j : ℕ} {a : RunAction} (moved : step sch g (.run j a) = some (g', events)) :
    ∃ st', g'.runs = g.runs.set j st' ∧ (a = .cancel → st'.attempt = none) := by
  cases step_steps moved with
  | @run pre post st st' a app events runs resumed =>
      refine ⟨st', by simp [runs], ?_⟩
      rintro rfl
      cases resumed with
      | cancel => rfl

theorem step_background_runs {a : Action} (other : a.isBackground = true)
    (moved : step sch g a = some (g', events)) : g'.runs = g.runs := by
  cases step_steps moved with
  | begin => cases other
  | run => cases other
  | _ => rfl

end Gateway

namespace ChatGateway

section attended
variable {requests : List ChatStage} {i : ℕ} {st : RunState}

theorem Attended.append (attended : Attended requests i st) (stage : ChatStage) :
    Attended (requests ++ [stage]) i st := by
  intro live
  obtain ⟨old, found, stands⟩ := attended live
  have inside := (List.getElem?_eq_some_iff.mp found).1
  exact ⟨old, by rw [List.getElem?_append_left inside, found], stands⟩

theorem Attended.set_holds (attended : Attended requests i st) (k : ℕ) {stage : ChatStage}
    (holds : stage.holds = true) : Attended (requests.set k stage) i st := by
  intro live
  obtain ⟨old, found, stands⟩ := attended live
  have inside := (List.getElem?_eq_some_iff.mp found).1
  by_cases same : k = i
  · subst same
    exact ⟨stage, List.getElem?_set_self inside, .inl holds⟩
  · exact ⟨old, by rw [List.getElem?_set_ne same, found], stands⟩

theorem Attended.set_other (attended : Attended requests i st) {k : ℕ} (other : k ≠ i)
    (stage : ChatStage) : Attended (requests.set k stage) i st := by
  intro live
  obtain ⟨old, found, stands⟩ := attended live
  exact ⟨old, by rw [List.getElem?_set_ne other, found], stands⟩

/-- A request that ends leaves its run at a chunk, if it leaves it at all. -/
theorem Attended.finish (attended : Attended requests i st) (settled : st.suspended = false) :
    Attended (requests.set i .finished) i st := by
  intro live
  obtain ⟨old, found, stands⟩ := attended live
  have inside := (List.getElem?_eq_some_iff.mp found).1
  refine ⟨.finished, List.getElem?_set_self inside, .inr ⟨rfl, ?_⟩⟩
  cases st with
  | yielding a => exact ⟨a, rfl⟩
  | finished e => cases live
  | _ => cases settled

theorem attended_of_ended (ended : st.attempt = none) : Attended requests i st := by
  intro live
  rw [ended] at live
  cases live

end attended

variable {limits : ChatLimits} {sch : Scheduler} {g g' : ChatGateway} {act : ServedAction}
  {events : List Event}

/-- A request has one run, so its number tells which. -/
theorem Matched.idxOf (matched : g.Matched) {j i : ℕ} (owned : g.owners[j]? = some i) :
    g.owners.idxOf i = j := by
  obtain ⟨inside, rfl⟩ := List.getElem?_eq_some_iff.mp owned
  exact matched.once.idxOf_getElem j inside

theorem step_matched (matched : g.Matched) (moved : step limits sch g act = some (g', events)) :
    g'.Matched := by
  have attended := matched.attended
  cases step_moves moved with
  | receive served =>
      obtain ⟨stage, requests⟩ := ChatService.step_receive served
      refine ⟨matched.numbered, matched.once, fun j i st owned found => ?_⟩
      rw [requests]
      exact (attended j i st owned found).append stage
  | @enter k service errors served =>
      obtain ⟨stage, holds, requests⟩ := ChatService.step_enter served
      refine ⟨matched.numbered, matched.once, fun j i st owned found => ?_⟩
      rw [requests]
      exact (attended j i st owned found).set_holds k holds
  | @call k payload stage path gateway events fresh found behind moved =>
      obtain ⟨new, runs⟩ := Gateway.step_begin_runs moved
      refine ⟨?_, ?_, fun j i st owned here => ?_⟩
      · simp [runs, matched.numbered]
      · exact List.nodup_append.mpr ⟨matched.once, List.nodup_singleton k, by
          intro a member b single
          rw [List.mem_singleton.mp single]
          exact fun same => fresh (same ▸ member)⟩
      · rw [runs] at here
        rcases LabelledRun.found_snoc owned with old | ⟨-, rfl⟩
        · have inside := (List.getElem?_eq_some_iff.mp old).1
          rw [List.getElem?_append_left (matched.numbered ▸ inside)] at here
          exact attended j i st old here
        · refine fun _ => ⟨stage, found, .inl ?_⟩
          cases stage with
          | serving | streaming => rfl
          | _ => cases behind
  | @run k owner stage a gateway events owned found holds moved =>
      obtain ⟨st', runs, -⟩ := Gateway.step_run_runs moved
      refine ⟨by simp [runs, matched.numbered], matched.once, fun j i st own here => ?_⟩
      rw [runs] at here
      rcases LabelledRun.found_set here with ⟨rfl, -⟩ | ⟨-, here⟩
      · obtain rfl : owner = i := Option.some.inj (owned.symm.trans own)
        exact fun _ => ⟨stage, found, .inl holds⟩
      · exact attended j i st own here
  | @answer k service errors served ended =>
      refine ⟨matched.numbered, matched.once, fun j i st owned found => ?_⟩
      rw [ChatService.step_answer served]
      by_cases same : k = i
      · subst same
        rw [matched.idxOf owned] at ended
        exact attended_of_ended (ended st found)
      · exact (attended j i st owned found).set_other same _
  | @finish k service errors served settled =>
      refine ⟨matched.numbered, matched.once, fun j i st owned found => ?_⟩
      rw [ChatService.step_finish served]
      by_cases same : k = i
      · subst same
        rw [matched.idxOf owned] at settled
        exact (attended j k st owned found).finish (settled st found)
      · exact (attended j i st owned found).set_other same _
  | @cancel k service errors gateway events served moved =>
      obtain ⟨st', runs, ended⟩ := Gateway.step_run_runs moved
      refine ⟨by simp [runs, matched.numbered], matched.once, fun j i st owned here => ?_⟩
      rw [runs] at here
      rw [ChatService.step_finish served]
      rcases LabelledRun.found_set here with ⟨-, rfl⟩ | ⟨apart, here⟩
      · exact attended_of_ended (ended rfl)
      · have other : k ≠ i := by
          rintro rfl
          exact apart (matched.idxOf owned).symm
        exact (attended j i st owned here).set_other other _
  | @close k gateway events moved =>
      obtain ⟨st', runs, ended⟩ := Gateway.step_run_runs moved
      refine ⟨by simp [runs, matched.numbered], matched.once, fun j i st owned here => ?_⟩
      rw [runs] at here
      rcases LabelledRun.found_set here with ⟨-, rfl⟩ | ⟨-, here⟩
      · exact attended_of_ended (ended rfl)
      · exact attended j i st owned here
  | background other moved =>
      have runs := Gateway.step_background_runs other moved
      exact ⟨by simp [runs, matched.numbered], matched.once, fun j i st owned here =>
        attended j i st owned (runs ▸ here)⟩

/-- Behind every step stands a step of the gateway, or none. -/
theorem step_counted {name : String}
    (counted : (g.gateway.app.rateLimiter name).concurrent = g.gateway.slotsUsed name)
    (moved : step limits sch g act = some (g', events)) :
    (g'.gateway.app.rateLimiter name).concurrent = g'.gateway.slotsUsed name := by
  cases step_moves moved with
  | receive | enter | answer | finish => exact counted
  | call fresh found behind moved => exact Gateway.step_slotsUsed counted moved
  | run owned found holds moved => exact Gateway.step_slotsUsed counted moved
  | cancel served moved => exact Gateway.step_slotsUsed counted moved
  | close moved => exact Gateway.step_slotsUsed counted moved
  | background other moved => exact Gateway.step_slotsUsed counted moved

theorem step_slots (moved : step limits sch g act = some (g', events)) :
    g'.service.freeSlots + g'.holding = g.service.freeSlots + g.holding := by
  cases step_moves moved with
  | receive served => exact ChatService.step_slots served
  | enter served => exact ChatService.step_slots served
  | answer served ended => exact ChatService.step_slots served
  | finish served settled => exact ChatService.step_slots served
  | cancel served moved => exact ChatService.step_slots served
  | _ => rfl

/-- The live runs are those of the requests that hold a slot, and the abandoned ones. -/
theorem Matched.live_le (matched : g.Matched) :
    (g.gateway.runs.countP fun st => st.attempt.isSome) ≤ g.holding + g.abandoned := by
  have left : g.tasks.map Prod.fst = g.owners := List.map_fst_zip matched.numbered.le
  have right : g.tasks.map Prod.snd = g.gateway.runs := List.map_snd_zip matched.numbered.ge
  let attended := (g.tasks.filter fun p => !decide (g.Abandoned p)).filter fun p => p.2.attempt.isSome
  have once : (attended.map Prod.fst).Nodup := by
    refine List.Nodup.sublist ?_ (left ▸ matched.once)
    exact (List.filter_sublist.trans List.filter_sublist).map _
  have holds : ∀ i ∈ attended.map Prod.fst, ∃ stage, g.service.requests[i]? = some stage ∧
      stage.holds = true := by
    intro i member
    obtain ⟨⟨i, st⟩, here, rfl⟩ := List.mem_map.mp member
    simp only [attended, List.mem_filter, Bool.not_eq_true', decide_eq_false_iff_not] at here
    obtain ⟨⟨task, kept⟩, live⟩ := here
    obtain ⟨j, position⟩ := List.mem_iff_getElem?.mp task
    obtain ⟨owned, found⟩ := List.getElem?_zip_eq_some.mp position
    obtain ⟨stage, stands, holds | ⟨rfl, -⟩⟩ := matched.attended j i st owned found live
    · exact ⟨stage, stands, holds⟩
    · exact absurd ⟨live, stands⟩ kept
  have bounded : attended.length ≤ g.holding := by
    have counted := Tally.length_le_countP once holds
    rwa [List.length_map] at counted
  have gone : (g.tasks.filter fun p => g.Abandoned p).countP (fun p => p.2.attempt.isSome) ≤
      g.abandoned := by
    rw [abandoned, List.countP_eq_length_filter (p := fun p => decide (g.Abandoned p))]
    exact List.countP_le_length
  have split := List.countP_eq_countP_filter_add g.tasks
    (fun p : ℕ × RunState => p.2.attempt.isSome) fun p => g.Abandoned p
  have others : (g.tasks.filter fun p => !decide (g.Abandoned p)).countP
      (fun p => p.2.attempt.isSome) = attended.length := List.countP_eq_length_filter
  calc (g.gateway.runs.countP fun st => st.attempt.isSome)
      = g.tasks.countP fun p => p.2.attempt.isSome := by rw [← right, List.countP_map]; rfl
    _ ≤ g.abandoned + attended.length := by
        rw [split, others]
        exact Nat.add_le_add_right gone _
    _ ≤ g.holding + g.abandoned := by
        rw [add_comm]
        exact Nat.add_le_add_right bounded _

end ChatGateway

abbrev ChatGatewayTransition := LabelledRun.Transition ChatGateway ServedAction Event

abbrev ChatGatewayRun (limits : ChatLimits) (sch : Scheduler) :
    ChatGateway → List ChatGatewayTransition → ChatGateway → Prop :=
  LabelledRun.Run (ChatGateway.step limits sch)

namespace ChatGateway

/-- What the semaphore of the endpoint bounds. -/
structure Bounded (capacity : ℕ) (names : List String) (g : ChatGateway) : Prop where
  slots : g.service.freeSlots + g.holding = capacity
  calls : (names.map fun name => (g.gateway.app.rateLimiter name).concurrent).sum ≤
    g.holding + g.abandoned
  atChunk : ∀ p ∈ g.tasks, g.Abandoned p → ∃ a, p.2 = .yielding a
  drained : g.service.inProgress = 0 → g.abandoned = 0 →
    g.service.freeSlots = capacity ∧ ∀ name, (g.gateway.app.rateLimiter name).concurrent = 0

/-- A slot is free or held by a request, and the concurrency counters of all providers together
are at most the slots held and the streams left at a chunk. With nothing in progress and every
generator closed, all slots are free and all counters are back at zero. -/
theorem semaphore_bounds_providers (limits : ChatLimits) (sch : Scheduler) (capacity : ℕ) (now : ℚ)
    (names : List String) (nodup : names.Nodup) (config : String → ProviderConfig)
    (ts : List ChatGatewayTransition) (g : ChatGateway)
    (run : ChatGatewayRun limits sch (.boot capacity now names nodup config) ts g) :
    g.Bounded capacity names := by
  have matched : g.Matched := run.invariant (fun _ g => g.Matched)
    ⟨rfl, List.nodup_nil, fun _ _ _ owned => by cases owned⟩
    fun _ _ _ before valid => step_matched before valid
  have slots : g.service.freeSlots + g.holding = capacity :=
    run.invariant (fun _ g => g.service.freeSlots + g.holding = capacity) rfl
      fun _ _ _ before valid => (step_slots valid).trans before
  have counted : ∀ name, (g.gateway.app.rateLimiter name).concurrent = g.gateway.slotsUsed name := by
    intro name
    exact run.invariant
      (fun _ g => (g.gateway.app.rateLimiter name).concurrent = g.gateway.slotsUsed name) rfl
      fun _ _ _ before valid => step_counted before valid
  have uses : ∀ name, g.gateway.slotsUsed name =
      g.gateway.runs.countP fun st => st.attempt.map (·.decision.provider) = some name := by
    intro name
    simp [Gateway.slotsUsed, RunState.Uses]
  have live := matched.live_le
  refine ⟨slots, ?_, ?_, fun nothing closed => ?_⟩
  · have shared := Tally.sum_countP_le (fun st : RunState => st.attempt.map (·.decision.provider))
      g.gateway.runs nodup
    simp only [counted, uses]
    simp only [Option.isSome_map] at shared
    exact shared.trans live
  · rintro ⟨i, st⟩ task ⟨going, ended⟩
    obtain ⟨j, position⟩ := List.mem_iff_getElem?.mp task
    obtain ⟨owned, found⟩ := List.getElem?_zip_eq_some.mp position
    obtain ⟨stage, stands, holds | ⟨-, chunk⟩⟩ := matched.attended j i st owned found going
    · obtain rfl : ChatStage.finished = stage := Option.some.inj (ended.symm.trans stands)
      cases holds
    · exact chunk
  · have none_holds : g.holding = 0 := by
      rw [ChatService.inProgress, ChatService.count, List.countP_eq_zero] at nothing
      rw [holding, ChatService.count, List.countP_eq_zero]
      intro stage member holds
      have ended : stage = .finished := by simpa using nothing stage member
      rw [ended] at holds
      cases holds
    rw [none_holds] at slots live
    refine ⟨slots, fun name => ?_⟩
    rw [closed, Nat.le_zero, List.countP_eq_zero] at live
    rw [counted, Gateway.slotsUsed, List.countP_eq_zero]
    intro st member uses
    have here : st.attempt.isSome = true := by
      obtain ⟨a, going, -⟩ : st.Uses name := of_decide_eq_true uses
      exact Option.isSome_of_mem going
    exact live st member here

/-- One slot, and two calls: the client of the stream has left at its first chunk, whose
generator is not closed yet, and the next request is served. -/
def leavesAtChunk : List ServedAction :=
  [.receive (ChatService.Demo.hello true none), .enter 0, .call 0, .run 0 (.emit .null), .finish 0,
    .receive (ChatService.Demo.hello false none), .enter 1, .call 1]

theorem semaphore_bounds_providers_leaves_at_chunk :
    ∃ ts g, ChatGatewayRun ChatService.Demo.limits Demo.scheduler
        (.boot 1 1000 ["a", "b"] (by decide) fun _ => Demo.config [] 10) ts g ∧
      g.holding = 1 ∧ g.abandoned = 1 ∧ (g.gateway.app.rateLimiter "a").concurrent = 2 ∧
      g.Bounded 1 ["a", "b"] := by
  have evaluated : (LabelledRun.exec (step ChatService.Demo.limits Demo.scheduler)
      (.boot 1 1000 ["a", "b"] (by decide) fun _ => Demo.config [] 10) leavesAtChunk).any
      (fun r => decide (r.1.holding = 1 ∧ r.1.abandoned = 1 ∧
        (r.1.gateway.app.rateLimiter "a").concurrent = 2)) = true := by decide +kernel
  obtain ⟨ts, g, run, found⟩ := LabelledRun.run_of_check _ evaluated
  obtain ⟨held, left, used⟩ := of_decide_eq_true found
  exact ⟨ts, g, run, held, left, used, semaphore_bounds_providers _ _ _ _ _ _ _ ts g run⟩

end ChatGateway
end Noxis
