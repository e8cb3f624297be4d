import Noxis.Errors
import Noxis.Schemas
import Noxis.Library.LabelledRun

/-! The chat endpoint and its gauge of requests in flight. The gauge goes up on entry and
down in a `finally` that begins behind the two size checks, and which a request leaves as soon as
its response object exists: what is sent afterwards, a body or a stream, is not counted. -/
namespace Noxis

/-- Limits of one request, and the length of its payload as JSON text. -/
structure ChatLimits where
  maxRequestBytes : ℤ
  maxTokensCeiling : ℤ
  bodySize : ChatCompletionRequest → ℕ

/-- The checks between the entry of the handler and its `try`. -/
def ChatLimits.check (limits : ChatLimits) (payload : ChatCompletionRequest) :
    Except NoxisError Unit :=
  if limits.maxRequestBytes < limits.bodySize payload then .error payloadTooLargeError
  else match payload.maxTokens with
    | none => .ok ()
    | some n =>
        if n ≠ 0 ∧ limits.maxTokensCeiling < n then
          .error (invalidRequestError
            ("max_tokens exceeds the configured ceiling of " ++ toString limits.maxTokensCeiling ++ ".")
            (some "max_tokens"))
        else .ok ()

/-- Where a chat request stands between two awaits. A response that has been sent, or whose
client is gone, is finished. -/
inductive ChatStage where
  -- the handler has raised before its `try`, and the error is sent
  | rejected
  -- the handler waits for a slot of the semaphore
  | queued
  | serving
  -- the handler has returned or raised, and its answer is sent
  | sending
  -- the handler has returned its streaming response, whose generator waits for a slot
  | opened
  | streaming
  | finished
  deriving DecidableEq

/-- The request is inside the `try` of the handler. -/
def ChatStage.inTry (st : ChatStage) : Bool := st = .queued ∨ st = .serving

/-- The handler is through with the request, whose response is not. -/
def ChatStage.handedOver (st : ChatStage) : Bool :=
  st = .sending ∨ st = .opened ∨ st = .streaming

/-- The gauge, the free slots of the semaphore, and every request received so far. -/
structure ChatService where
  activeRequests : ℤ
  freeSlots : ℕ
  requests : List ChatStage := []

/-- The handler ends with an answer, from the cache or not, or with an exception. A request is
finished when its response is, or where it is cancelled. -/
inductive ChatAction where
  | receive (payload : ChatCompletionRequest)
  | enter (i : ℕ)
  | answer (i : ℕ)
  | finish (i : ℕ)

namespace ChatService

def inc (g : ChatService) : ChatService := { g with activeRequests := g.activeRequests + 1 }
def dec (g : ChatService) : ChatService := { g with activeRequests := g.activeRequests - 1 }
def take (g : ChatService) : ChatService := { g with freeSlots := g.freeSlots - 1 }
def giveBack (g : ChatService) : ChatService := { g with freeSlots := g.freeSlots + 1 }
def add (g : ChatService) (st : ChatStage) : ChatService := { g with requests := g.requests ++ [st] }

def put (g : ChatService) (i : ℕ) (st : ChatStage) : ChatService :=
  { g with requests := g.requests.set i st }

section fields
variable (g : ChatService) (i : ℕ) (st : ChatStage)

@[simp] theorem activeRequests_inc : g.inc.activeRequests = g.activeRequests + 1 := rfl
@[simp] theorem activeRequests_dec : g.dec.activeRequests = g.activeRequests - 1 := rfl
@[simp] theorem activeRequests_take : g.take.activeRequests = g.activeRequests := rfl
@[simp] theorem activeRequests_giveBack : g.giveBack.activeRequests = g.activeRequests := rfl
@[simp] theorem activeRequests_add : (g.add st).activeRequests = g.activeRequests := rfl
@[simp] theorem activeRequests_put : (g.put i st).activeRequests = g.activeRequests := rfl

end fields

/-- One step of the endpoint, with the error it raises before the `try`. -/
def step (limits : ChatLimits) (g : ChatService) : ChatAction → Option (ChatService × List NoxisError)
  | .receive payload =>
      match limits.check payload with
      | .error e => some (g.inc.add .rejected, [e])
      | .ok () =>
          if payload.stream then some (g.inc.dec.add .opened, [])
          else some (g.inc.add .queued, [])
  | .enter i =>
      if g.freeSlots = 0 then none
      else match g.requests[i]? with
        | some .queued => some (g.take.put i .serving, [])
        | some .opened => some (g.take.put i .streaming, [])
        | _ => none
  | .answer i =>
      match g.requests[i]? with
      | some .serving => some (g.giveBack.dec.put i .sending, [])
      | _ => none
  | .finish i =>
      match g.requests[i]? with
      | some .queued => some (g.dec.put i .finished, [])
      | some .serving => some (g.giveBack.dec.put i .finished, [])
      | some .rejected => some (g.put i .finished, [])
      | some .sending => some (g.put i .finished, [])
      | some .opened => some (g.put i .finished, [])
      | some .streaming => some (g.giveBack.put i .finished, [])
      | _ => none

/-- How many requests stand at a stage that passes the test. -/
def count (p : ChatStage → Bool) (g : ChatService) : ℕ := g.requests.countP p

/-- Requests whose handler has started and whose response has not finished. -/
def inProgress (g : ChatService) : ℕ := g.count fun st => st ≠ .finished

def handled (g : ChatService) : ℕ := g.count ChatStage.inTry
def handedOver (g : ChatService) : ℕ := g.count ChatStage.handedOver
def rejected (g : ChatService) : ℕ := g.count fun st => st = .rejected

end ChatService

abbrev ChatTransition := LabelledRun.Transition ChatService ChatAction NoxisError

abbrev ChatRun (limits : ChatLimits) : ChatService → List ChatTransition → ChatService → Prop :=
  LabelledRun.Run (ChatService.step limits)

namespace ChatService

/-- The step hands no response over, and ends none of a request that was rejected. -/
def KeepsCount (limits : ChatLimits) (g : ChatService) : ChatAction → Prop
  | .receive payload => limits.check payload = .ok () → payload.stream = false
  | .enter _ => True
  | .answer _ => False
  | .finish i => g.requests[i]? ≠ some .rejected

/-- Everything a step can do. -/
inductive Moves (limits : ChatLimits) (g : ChatService) :
    ChatAction → ChatService → List NoxisError → Prop
  | rejected {payload : ChatCompletionRequest} {e : NoxisError}
      (refused : limits.check payload = .error e) :
      Moves limits g (.receive payload) (g.inc.add .rejected) [e]
  | begin {payload : ChatCompletionRequest} (accepted : limits.check payload = .ok ())
      (stream : payload.stream = true) :
      Moves limits g (.receive payload) (g.inc.dec.add .opened) []
  | queue {payload : ChatCompletionRequest} (accepted : limits.check payload = .ok ())
      (whole : payload.stream = false) : Moves limits g (.receive payload) (g.inc.add .queued) []
  | serve {i : ℕ} (found : g.requests[i]? = some .queued) :
      Moves limits g (.enter i) (g.take.put i .serving) []
  | stream {i : ℕ} (found : g.requests[i]? = some .opened) :
      Moves limits g (.enter i) (g.take.put i .streaming) []
  | answer {i : ℕ} (found : g.requests[i]? = some .serving) :
      Moves limits g (.answer i) (g.giveBack.dec.put i .sending) []
  | giveUp {i : ℕ} (found : g.requests[i]? = some .queued) :
      Moves limits g (.finish i) (g.dec.put i .finished) []
  | abort {i : ℕ} (found : g.requests[i]? = some .serving) :
      Moves limits g (.finish i) (g.giveBack.dec.put i .finished) []
  | refuse {i : ℕ} (found : g.requests[i]? = some .rejected) :
      Moves limits g (.finish i) (g.put i .finished) []
  | close {i : ℕ} {st : ChatStage} (found : g.requests[i]? = some st)
      (ended : st = .sending ∨ st = .opened) :
      Moves limits g (.finish i) (g.put i .finished) []
  | streamed {i : ℕ} (found : g.requests[i]? = some .streaming) :
      Moves limits g (.finish i) (g.giveBack.put i .finished) []

theorem step_moves {limits : ChatLimits} {g g' : ChatService} {act : ChatAction}
    {errors : List NoxisError} (moved : step limits g act = some (g', errors)) :
    Moves limits g act g' errors := by
  cases act with
  | receive payload =>
      cases checked : limits.check payload with
      | error e =>
          simp only [step, checked, Option.some.injEq, Prod.mk.injEq] at moved
          obtain ⟨rfl, rfl⟩ := moved
          exact .rejected checked
      | ok accepted =>
          cases stream : payload.stream with
          | true =>
              simp only [step, checked, stream, if_true, Option.some.injEq, Prod.mk.injEq] at moved
              obtain ⟨rfl, rfl⟩ := moved
              exact .begin checked stream
          | false =>
              simp only [step, checked, stream, Bool.false_eq_true, if_false, Option.some.injEq,
                Prod.mk.injEq] at moved
              obtain ⟨rfl, rfl⟩ := moved
              exact .queue checked stream
  | enter i =>
      simp only [step] at moved
      split_ifs at moved
      split at moved
      · next found =>
        obtain ⟨rfl, rfl⟩ := Prod.mk.inj (Option.some.inj moved)
        exact .serve found
      · next found =>
        obtain ⟨rfl, rfl⟩ := Prod.mk.inj (Option.some.inj moved)
        exact .stream found
      · cases moved
  | answer i =>
      simp only [step] at moved
      split at moved
      · next found =>
        obtain ⟨rfl, rfl⟩ := Prod.mk.inj (Option.some.inj moved)
        exact .answer found
      · cases moved
  | finish i =>
      simp only [step] at moved
      split at moved
      · next found =>
        obtain ⟨rfl, rfl⟩ := Prod.mk.inj (Option.some.inj moved)
        exact .giveUp found
      · next found =>
        obtain ⟨rfl, rfl⟩ := Prod.mk.inj (Option.some.inj moved)
        exact .abort found
      · next found =>
        obtain ⟨rfl, rfl⟩ := Prod.mk.inj (Option.some.inj moved)
        exact .refuse found
      · next found =>
        obtain ⟨rfl, rfl⟩ := Prod.mk.inj (Option.some.inj moved)
        exact .close found (.inl rfl)
      · next found =>
        obtain ⟨rfl, rfl⟩ := Prod.mk.inj (Option.some.inj moved)
        exact .close found (.inr rfl)
      · next found =>
        obtain ⟨rfl, rfl⟩ := Prod.mk.inj (Option.some.inj moved)
        exact .streamed found
      · cases moved

section counting
variable (p : ChatStage → Bool) (g : ChatService)

@[simp] theorem count_inc : g.inc.count p = g.count p := rfl
@[simp] theorem count_dec : g.dec.count p = g.count p := rfl

@[simp] theorem count_add (st : ChatStage) :
    (g.add st).count p = g.count p + if p st then 1 else 0 := by
  rw [count, add, List.countP_append, List.countP_singleton]
  rfl

variable {g} in
/-- Moving one request changes a count by what it counted for before and after. -/
theorem count_put {i : ℕ} {old : ChatStage} (found : g.requests[i]? = some old) (new : ChatStage) :
    (g.put i new).count p + (if p old then 1 else 0) = g.count p + if p new then 1 else 0 := by
  obtain ⟨inside, here⟩ := List.getElem?_eq_some_iff.mp found
  have counted : p old = true → 0 < g.requests.countP p := fun passes =>
    List.countP_pos_iff.mpr ⟨old, List.mem_of_getElem? found, passes⟩
  rw [count, put, List.countP_set inside, here, count]
  by_cases passes : p old = true
  · have := counted passes
    simp only [if_pos passes]
    omega
  · simp only [if_neg passes]
    omega

variable {g} in
theorem count_put_same {i : ℕ} {old : ChatStage} (found : g.requests[i]? = some old)
    (new : ChatStage) (same : p new = p old) : (g.put i new).count p = g.count p := by
  have counted := count_put p found new
  rw [same] at counted
  exact Nat.add_right_cancel counted

variable {g} in
theorem count_put_gone {i : ℕ} {old : ChatStage} (found : g.requests[i]? = some old)
    (new : ChatStage) (before : p old = true) (after : p new = false) :
    (g.put i new).count p + 1 = g.count p := by
  simpa [before, after] using count_put p found new

theorem inProgress_eq : g.inProgress = g.handled + g.handedOver + g.rejected := by
  unfold inProgress handled handedOver rejected count
  induction g.requests with
  | nil => rfl
  | cons st rest ih =>
      simp only [List.countP_cons, ih]
      cases st <;> simp [ChatStage.inTry, ChatStage.handedOver] <;> omega

end counting

/-- A step changes the gauge as it changes the requests inside a `try`, and a rejection
leaves one count behind. -/
theorem moves_gauge {limits : ChatLimits} {g g' : ChatService} {act : ChatAction}
    {errors : List NoxisError} (moved : Moves limits g act g' errors) :
    g'.activeRequests + g.handled = g.activeRequests + g'.handled + errors.length := by
  unfold handled
  cases moved with
  | rejected refused =>
      simp [ChatStage.inTry]
      omega
  | begin accepted stream => simp [ChatStage.inTry]
  | queue accepted whole =>
      simp [ChatStage.inTry]
      omega
  | @serve i found =>
      have kept : (g.take.put i .serving).count ChatStage.inTry = _ :=
        count_put_same _ found _ rfl
      simp [kept]
  | @stream i found =>
      have kept : (g.take.put i .streaming).count ChatStage.inTry = _ :=
        count_put_same _ found _ rfl
      simp [kept]
  | @giveUp i found =>
      have gone : (g.dec.put i .finished).count ChatStage.inTry + 1 = _ :=
        count_put_gone _ found _ rfl rfl
      simp only [activeRequests_put, activeRequests_dec, List.length_nil] at gone ⊢
      omega
  | @answer i found =>
      have gone : (g.giveBack.dec.put i .sending).count ChatStage.inTry + 1 = _ :=
        count_put_gone _ found _ rfl rfl
      simp only [activeRequests_put, activeRequests_dec, activeRequests_giveBack,
        List.length_nil] at gone ⊢
      omega
  | @abort i found =>
      have gone : (g.giveBack.dec.put i .finished).count ChatStage.inTry + 1 = _ :=
        count_put_gone _ found _ rfl rfl
      simp only [activeRequests_put, activeRequests_dec, activeRequests_giveBack,
        List.length_nil] at gone ⊢
      omega
  | @refuse i found =>
      have kept : (g.put i .finished).count ChatStage.inTry = _ := count_put_same _ found _ rfl
      simp [kept]
  | @close i st found ended =>
      have kept : (g.put i .finished).count ChatStage.inTry = _ :=
        count_put_same _ found _ (by rcases ended with rfl | rfl <;> rfl)
      simp [kept]
  | @streamed i found =>
      have kept : (g.giveBack.put i .finished).count ChatStage.inTry = _ :=
        count_put_same _ found _ rfl
      simp [kept]

/-- Such a step adds nothing to what was handed over, and leaves every rejection pending. -/
theorem moves_keeps {limits : ChatLimits} {g g' : ChatService} {act : ChatAction}
    {errors : List NoxisError} (moved : Moves limits g act g' errors)
    (keeps : g.KeepsCount limits act) :
    g'.handedOver ≤ g.handedOver ∧ g'.rejected = g.rejected + errors.length := by
  unfold handedOver rejected
  cases moved with
  | rejected refused => simp [ChatStage.handedOver]
  | begin accepted stream =>
      rw [keeps accepted] at stream
      cases stream
  | queue accepted whole => simp [ChatStage.handedOver]
  | serve found =>
      exact ⟨(count_put_same ChatStage.handedOver found .serving rfl).le, count_put_same _ found _ rfl⟩
  | stream found =>
      exact ⟨(count_put_same ChatStage.handedOver found .streaming rfl).le,
        count_put_same _ found _ rfl⟩
  | answer found => exact keeps.elim
  | giveUp found =>
      exact ⟨(count_put_same ChatStage.handedOver found .finished rfl).le, count_put_same _ found _ rfl⟩
  | abort found =>
      exact ⟨(count_put_same ChatStage.handedOver found .finished rfl).le, count_put_same _ found _ rfl⟩
  | refuse found => exact absurd found keeps
  | @close i st found ended =>
      have gone := count_put_gone ChatStage.handedOver found .finished
        (by rcases ended with rfl | rfl <;> rfl) rfl
      refine ⟨by omega, count_put_same _ found _ ?_⟩
      rcases ended with rfl | rfl <;> rfl
  | @streamed i found =>
      have gone : (g.giveBack.put i .finished).count ChatStage.handedOver + 1 = _ :=
        count_put_gone _ found _ rfl rfl
      exact ⟨by omega, count_put_same _ found _ rfl⟩

/-- Any other step hands one response over, or ends that of a rejected request. -/
theorem moves_not_keeps {limits : ChatLimits} {g g' : ChatService} {act : ChatAction}
    {errors : List NoxisError} (moved : Moves limits g act g' errors)
    (other : ¬ g.KeepsCount limits act) :
    errors.length = 0 ∧ (g'.handedOver + g'.rejected = g.handedOver + g.rejected + 1 ∨
      g'.handedOver + g'.rejected + 1 = g.handedOver + g.rejected) := by
  unfold handedOver rejected
  cases moved with
  | rejected refused =>
      refine absurd (fun accepted => ?_) other
      rw [refused] at accepted
      cases accepted
  | begin accepted stream =>
      simp only [count_add, count_dec, count_inc]
      simp [ChatStage.handedOver]
      omega
  | queue accepted whole => exact absurd (fun _ => whole) other
  | serve found => exact absurd trivial other
  | stream found => exact absurd trivial other
  | @answer i found =>
      have more : (g.giveBack.dec.put i .sending).count ChatStage.handedOver + 0 = _ :=
        count_put ChatStage.handedOver found .sending
      have same : (g.giveBack.dec.put i .sending).count (fun st => st = .rejected) = _ :=
        count_put_same _ found _ rfl
      refine ⟨rfl, .inl ?_⟩
      rw [same]
      simp only [ChatStage.handedOver] at more ⊢
      simp at more
      omega
  | @refuse i found =>
      have same := count_put_same ChatStage.handedOver found .finished rfl
      have gone := count_put_gone (fun st => st = .rejected) found .finished rfl rfl
      exact ⟨rfl, .inr (by omega)⟩
  | giveUp found => exact absurd (by simp [KeepsCount, found]) other
  | abort found => exact absurd (by simp [KeepsCount, found]) other
  | close found ended =>
      exact absurd (by rcases ended with rfl | rfl <;> simp [KeepsCount, found]) other
  | streamed found => exact absurd (by simp [KeepsCount, found]) other

/-- The gauge counts the requests in progress, from its value at the start. -/
def Exact (start g : ChatService) : Prop := g.activeRequests = start.activeRequests + g.inProgress

/-- How far the gauge is off: a count for every rejection, none for what was handed over. -/
theorem run_balance {limits : ChatLimits} {start g : ChatService} (idle : start.requests = [])
    {ts : List ChatTransition} (run : ChatRun limits start ts g) :
    g.activeRequests + (g.handedOver + g.rejected) =
      start.activeRequests + g.inProgress + (LabelledRun.eventsOf ts).length := by
  have base : start.handled = 0 := by simp [handled, count, idle]
  have gauge : g.activeRequests =
      start.activeRequests + g.handled + (LabelledRun.eventsOf ts).length := by
    refine run.invariant (fun past v => v.activeRequests =
      start.activeRequests + v.handled + (LabelledRun.eventsOf past).length) ?_ ?_
    · simp [base]
    · intro past t _ before valid
      have moved := moves_gauge (step_moves valid)
      rw [LabelledRun.eventsOf_snoc, List.length_append]
      push_cast
      omega
  rw [gauge, inProgress_eq]
  push_cast
  ring

theorem exact_iff {limits : ChatLimits} {start g : ChatService} (idle : start.requests = [])
    {ts : List ChatTransition} (run : ChatRun limits start ts g) :
    Exact start g ↔ g.handedOver + g.rejected = (LabelledRun.eventsOf ts).length := by
  have balance := run_balance idle run
  unfold Exact
  omega

/-- The gauge is exact in every state of a run, and back at its first value whenever nothing
is in progress, if and only if no step of the run hands a response over, or ends that of a
request that was rejected for its size. -/
theorem gauge_exact_iff (limits : ChatLimits) (start : ChatService) (idle : start.requests = [])
    (ts : List ChatTransition) (g : ChatService) (run : ChatRun limits start ts g) :
    (∀ v, LabelledRun.Visits start ts v →
        Exact start v ∧ (v.inProgress = 0 → v.activeRequests = start.activeRequests)) ↔
      ∀ t ∈ ts, t.before.KeepsCount limits t.action := by
  constructor
  · intro all t member
    by_contra other
    obtain ⟨past, later, eq⟩ := List.append_of_mem member
    obtain ⟨before, valid⟩ := run.split eq
    have early := (exact_iff idle before).mp (all _ (before.visits_of_prefix eq)).1
    have late := (exact_iff idle (.snoc before valid)).mp (all t.after (.inr ⟨t, member, rfl⟩)).1
    rw [LabelledRun.eventsOf_snoc, List.length_append] at late
    obtain ⟨none_raised, moved⟩ := moves_not_keeps (step_moves valid) other
    omega
  · intro keeps v visited
    obtain ⟨past, later, eq, before⟩ := run.prefix_of_visits visited
    have clean := before.invariant_under (fun _ t => t.before.KeepsCount limits t.action)
      (fun past v => v.handedOver = 0 ∧ v.rejected = (LabelledRun.eventsOf past).length)
      ⟨by simp [handedOver, count, idle], by simp [rejected, count, idle]⟩
      (by
        intro past t _ ih valid kept
        obtain ⟨fewer, pending⟩ := moves_keeps (step_moves valid) kept
        rw [LabelledRun.eventsOf_snoc, List.length_append]
        exact ⟨by omega, by omega⟩)
      fun earlier t between split => keeps t (by simp [eq, split])
    have exact : Exact start v := by
      rw [exact_iff idle before, clean.1, clean.2, Nat.zero_add]
    refine ⟨exact, fun none_left => ?_⟩
    rw [Exact, none_left] at exact
    simpa using exact

namespace Demo

def limits : ChatLimits := ⟨1000, 50, fun _ => 120⟩

def idle : ChatService := { activeRequests := 0, freeSlots := 2 }

def hello (stream : Bool) (maxTokens : Option ℕ) : ChatCompletionRequest :=
  { model := "m", messages := [{ role := .user, content := some (.text "hello there") }],
    nonEmptyMessages := List.cons_ne_nil _ _, stream, maxTokens }

/-- Whether the actions can be carried out from the idle service and the run passes a check. -/
def passes (actions : List ChatAction) (check : ChatService × List ChatTransition → Bool) : Bool :=
  (LabelledRun.exec (step limits) idle actions).any check

theorem exists_run {actions : List ChatAction} {check : ChatService × List ChatTransition → Bool}
    (ok : passes actions check = true) :
    ∃ ts g, ChatRun limits idle ts g ∧ check (g, ts) = true :=
  LabelledRun.run_of_check actions ok

end Demo

instance (limits : ChatLimits) (g : ChatService) : DecidablePred (g.KeepsCount limits)
  | .receive payload =>
      match checked : limits.check payload with
      | .ok () => decidable_of_iff (payload.stream = false) (by simp [KeepsCount, checked])
      | .error _ => .isTrue (by simp [KeepsCount, checked])
  | .enter _ => .isTrue trivial
  | .answer _ => .isFalse id
  | .finish _ => inferInstanceAs (Decidable (_ ≠ _))

/-- One request is cancelled, one waits for its slot, and one is told that it was rejected. -/
theorem gauge_exact_iff_nothing_sent :
    ∃ ts g, ChatRun Demo.limits Demo.idle ts g ∧ g.inProgress = 2 ∧
      ∀ v, LabelledRun.Visits Demo.idle ts v →
        Exact Demo.idle v ∧ (v.inProgress = 0 → v.activeRequests = 0) := by
  have passed : Demo.passes
      [.receive (Demo.hello false none), .enter 0, .receive (Demo.hello false (some 50)),
        .receive (Demo.hello false (some 51)), .finish 0]
      (fun (g, ts) => decide (g.inProgress = 2 ∧
        ∀ t ∈ ts, t.before.KeepsCount Demo.limits t.action)) = true := by
    decide
  obtain ⟨ts, g, run, checked⟩ := Demo.exists_run passed
  obtain ⟨two, keeps⟩ := of_decide_eq_true checked
  exact ⟨ts, g, run, two, (gauge_exact_iff Demo.limits Demo.idle rfl ts g run).mpr keeps⟩

/-- An answer or a stream that is being sent is not counted, and a rejected request is counted
for ever. -/
theorem gauge_not_exact :
    (∃ ts g, ChatRun Demo.limits Demo.idle ts g ∧ g.inProgress = 2 ∧ g.activeRequests = 0) ∧
      ∃ ts g, ChatRun Demo.limits Demo.idle ts g ∧ g.inProgress = 0 ∧ g.activeRequests = 1 := by
  have sending : Demo.passes [.receive (Demo.hello true none), .enter 0,
        .receive (Demo.hello false none), .enter 1, .answer 1]
      (fun (g, _) => decide (g.inProgress = 2 ∧ g.activeRequests = 0)) = true := by decide
  have rejected : Demo.passes [.receive (Demo.hello false (some 51)), .finish 0]
      (fun (g, _) => decide (g.inProgress = 0 ∧ g.activeRequests = 1)) = true := by decide
  obtain ⟨ts, g, run, checked⟩ := Demo.exists_run sending
  obtain ⟨us, h, run', checked'⟩ := Demo.exists_run rejected
  exact ⟨⟨ts, g, run, of_decide_eq_true checked⟩, us, h, run', of_decide_eq_true checked'⟩

end ChatService
end Noxis
