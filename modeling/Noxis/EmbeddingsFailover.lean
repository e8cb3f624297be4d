import Noxis.Embeddings
import Noxis.Resumption
import Noxis.Library.Tasks

/-! The contract of one embeddings request, whatever chat traffic, probes and other embeddings
requests run beside it. It posts to its candidates in the order of their priority, goes to the
next one only over an answer that is no embeddings object, and ends with the first that is, or
with the last error. -/
namespace Noxis

open LabelledRun (Tasks)

/-! ### What stays -/

/-- The configuration of the providers is the same. -/
def SameConfig (s s' : AppState) : Prop :=
  ∀ name, (s'.provider name).config = (s.provider name).config

section config
variable {sch : Scheduler} {s s' : AppState} {events : List Event}

theorem onProvider_sameConfig (s : AppState) (provider : String) {f : Provider → Provider}
    (keeps : ∀ p, (f p).config = p.config) : SameConfig s (s.onProvider provider f) := by
  intro name
  by_cases same : name = provider
  · subst same
    rw [AppState.onProvider_provider_self, keeps]
  · rw [AppState.onProvider_provider_other _ _ same]

theorem noteFailure_sameConfig (sch : Scheduler) (s : AppState) (provider : String)
    (e : ProviderAPIError) : SameConfig s (sch.noteFailure s provider e) :=
  onProvider_sameConfig (s.limiterFailure provider e) provider fun p =>
    sch.breaker.recordFailure_config s.now p e.retryable

theorem resumes_sameConfig {st st' : RunState} {act : RunAction}
    (moved : sch.Resumes s st act s' st' events) : SameConfig s s' := by
  cases moved with
  | @success a result u e =>
      exact onProvider_sameConfig s a.decision.provider CircuitBreaker.recordSuccess_config
  | @terminal a e u s' st' events path final next =>
      intro name
      rw [next.provider]
      have out := onProvider_sameConfig (sch.noteFailure s a.decision.provider e)
        a.decision.provider (fun p => p.withHealth_config .unavailable) name
      exact out.trans (noteFailure_sameConfig sch s a.decision.provider e name)
  | @raised a e => exact noteFailure_sameConfig sch s a.decision.provider e
  | @overflow a e => exact noteFailure_sameConfig sch s a.decision.provider e
  | @backoff a e => exact noteFailure_sameConfig sch s a.decision.provider e
  | wake due next =>
      intro name
      rw [next.provider]
      rfl
  | _ => exact fun _ => rfl

theorem Gateway.step_sameConfig {g g' : Gateway} {act : Action}
    (moved : step sch g act = some (g', events)) : SameConfig g.app g'.app := by
  cases step_steps moved with
  | @begin path request ds app app' l st events admission fresh taken next =>
      intro name
      change (app'.provider name).config = _
      rw [next.provider]
      rcases admission.effect name with same | ⟨-, -, touched⟩
      · rw [same]
      · rw [touched, CircuitBreaker.allowRequest_config]
  | run runs moved => exact resumes_sameConfig moved
  | beginSweep change next => exact change.config
  | sweep found swept => exact (sweepStep_onlyHealth swept).config
  | elapse => exact fun _ => rfl
  | setEnabled =>
      intro name
      simp [AppState.provider]

end config

/-! ### The contract -/

/-- A request posted, and an answer to one. -/
inductive PostMark where
  | posted (tried : ℕ) (provider : String) (post : EmbeddingsPost)
  | answered (provider : String) (answer : Except String HttpAnswer)

def TrafficEvent.mark : TrafficEvent → Option PostMark
  | .posted _ tried provider post => some (.posted tried provider post)
  | .answered _ provider answer => some (.answered provider answer)
  | .gateway _ => none

/-- What was sent and received, without the times. -/
def exchange (events : List TrafficEvent) : List PostMark := events.filterMap TrafficEvent.mark

@[simp] theorem exchange_append (events more : List TrafficEvent) :
    exchange (events ++ more) = exchange events ++ exchange more := List.filterMap_append

/-- An answer that is not handed on, and what becomes `last_error`. -/
structure FailedPost (lib : EmbeddingsLibraries) where
  provider : String
  answer : Except String HttpAnswer
  embdId : String
  text : String
  fails : embeddingsAnswer lib embdId provider answer = .error text

/-- `last_error`, which is `None` before the first failure. -/
def lastErrorOf {lib : EmbeddingsLibraries} (failed : List (FailedPost lib)) : String :=
  (failed.getLast?.map FailedPost.text).getD "None"

section contract
variable (lib : EmbeddingsLibraries) (config : String → ProviderConfig) (request : EmbeddingsRequest)

/-- The request as it is posted to a provider. -/
def EmbeddingsRequest.sentTo (tried : ℕ) (name : String) : PostMark :=
  .posted tried name
    { url := rstripSlashes (config name).baseUrl ++ "/embeddings", body := request.modelDump }

variable {lib} in
/-- Posts that failed, one after the other, from number `k` on. -/
def failedPosts : ℕ → List (FailedPost lib) → List PostMark
  | _, [] => []
  | k, f :: rest =>
      request.sentTo config k f.provider :: .answered f.provider f.answer :: failedPosts (k + 1) rest

/-- Where a request stands, with what it has posted and what it was answered. -/
inductive EmbeddingsStanding (candidates : List String) : List PostMark → EmbeddingsState → Prop
  | posting {failed : List (FailedPost lib)} {name : String} {rest : List String}
      (split : candidates = failed.map FailedPost.provider ++ name :: rest) :
      EmbeddingsStanding candidates
        (failedPosts config request 0 failed ++ [request.sentTo config failed.length name])
        (.posting request failed.length name rest)
  | served {failed : List (FailedPost lib)} {name : String} {rest : List String} {embdId : String}
      {answer : Except String HttpAnswer} {data : Json}
      (split : candidates = failed.map FailedPost.provider ++ name :: rest)
      (reads : embeddingsAnswer lib embdId name answer = .ok data) :
      EmbeddingsStanding candidates
        (failedPosts config request 0 failed ++
          [request.sentTo config failed.length name, .answered name answer])
        (.finished (.ok data))
  | nobody (empty : candidates = []) :
      EmbeddingsStanding candidates [] (.finished (.error (serviceUnavailableError
        ("No enabled provider supports embedding model '" ++ request.model ++ "'."))))
  | exhausted {failed : List (FailedPost lib)} (some_tried : failed ≠ [])
      (all : candidates = failed.map FailedPost.provider) :
      EmbeddingsStanding candidates (failedPosts config request 0 failed)
        (.finished (.error (serviceUnavailableError
          ("All providers failed for embeddings. Last error: " ++ lastErrorOf failed))))
  | cancelled {failed : List (FailedPost lib)} {name : String} {rest : List String}
      (split : candidates = failed.map FailedPost.provider ++ name :: rest) :
      EmbeddingsStanding candidates
        (failedPosts config request 0 failed ++ [request.sentTo config failed.length name]) .cancelled

end contract

section standing
variable {lib : EmbeddingsLibraries} {config : String → ProviderConfig}
  {request : EmbeddingsRequest}

theorem failedPosts_snoc (k : ℕ) (failed : List (FailedPost lib)) (f : FailedPost lib) :
    failedPosts config request k (failed ++ [f]) = failedPosts config request k failed ++
      [request.sentTo config (k + failed.length) f.provider, .answered f.provider f.answer] := by
  induction failed generalizing k with
  | nil => rfl
  | cons x rest ih =>
      have number : k + 1 + rest.length = k + (x :: rest).length := by
        rw [List.length_cons]
        omega
      simp only [List.cons_append, failedPosts, ih, number]

/-- The failure of the post that is out. -/
theorem failedPosts_here (failed : List (FailedPost lib)) (f : FailedPost lib)
    (more : List PostMark) :
    failedPosts config request 0 failed ++ [request.sentTo config failed.length f.provider] ++
        .answered f.provider f.answer :: more =
      failedPosts config request 0 (failed ++ [f]) ++ more := by
  rw [failedPosts_snoc, Nat.zero_add]
  simp

/-- The head of the loop, behind some failures. -/
theorem nextPost_standing {s : AppState} (configured : ∀ name, (s.provider name).config = config name)
    (failed : List (FailedPost lib)) {rest candidates : List String}
    (split : candidates = failed.map FailedPost.provider ++ rest) (begun : candidates ≠ []) :
    EmbeddingsStanding lib config request candidates
      (failedPosts config request 0 failed ++
        exchange (Traffic.nextPost s request failed.length (lastErrorOf failed) rest).2)
      (Traffic.nextPost s request failed.length (lastErrorOf failed) rest).1 := by
  cases rest with
  | nil =>
      rw [List.append_nil] at split
      have tried : failed ≠ [] := by
        rintro rfl
        exact begun split
      have stands : EmbeddingsStanding lib config request candidates _ _ := .exhausted tried split
      simpa [Traffic.nextPost, exchange] using stands
  | cons name rest =>
      have post : EmbeddingsStanding lib config request candidates _ _ := .posting split
      simpa [Traffic.nextPost, exchange, TrafficEvent.mark, EmbeddingsRequest.sentTo, configured]
        using post

end standing

namespace Traffic

variable (sch : Scheduler) (lib : EmbeddingsLibraries)

/-- The embeddings requests, as tasks of the traffic. -/
def embeddingsTasks : Tasks (step sch lib) EmbeddingsState where
  list := Traffic.embeddings
  owner t act := match act with
    | .gateway _ => none
    | .beginEmbeddings _ => some t.embeddings.length
    | .answered i _ _ => some i
    | .cancel i => some i
  idle {t t' act events} moved other := by
    cases step_moves sch lib moved with
    | gateway => rfl
    | _ => cases other
  own {t t' act events i} moved own := by
    cases step_moves sch lib moved with
    | gateway => cases own
    | refused | post => exact .inl ⟨(Option.some.inj own).symm, _, rfl⟩
    | ends found | next found | cancel found =>
        obtain rfl := Option.some.inj own
        exact .inr ⟨_, _, found, rfl⟩

variable {sch lib} {config : String → ProviderConfig} {request : EmbeddingsRequest}
  {t t' : Traffic} {events : List TrafficEvent} {candidates : List String}

theorem begin_standing
    (configured : ∀ name, (t.gateway.app.provider name).config = config name)
    (moved : step sch lib t (.beginEmbeddings request) = some (t', events)) {st : EmbeddingsState}
    (list : t'.embeddings = t.embeddings ++ [st]) :
    EmbeddingsStanding lib config request
      (embeddingsCandidates t.gateway.app.registry request.model) (exchange events) st := by
  simp only [step] at moved
  split_ifs at moved with empty
  · obtain ⟨rfl, rfl⟩ := Prod.mk.inj (Option.some.inj moved)
    obtain rfl : _ = st := by simpa using list
    exact .nobody (List.isEmpty_iff.mp empty)
  · obtain ⟨rfl, rfl⟩ := Prod.mk.inj (Option.some.inj moved)
    obtain rfl : _ = st := by simpa using list
    exact nextPost_standing configured [] rfl (by simpa using empty)

theorem answered_standing {i : ℕ} {embdId : String} {answer : Except String HttpAnswer}
    (configured : ∀ name, (t.gateway.app.provider name).config = config name)
    (moved : step sch lib t (.answered i embdId answer) = some (t', events))
    {st st' : EmbeddingsState} (found : t.embeddings[i]? = some st)
    (list : t'.embeddings = t.embeddings.set i st') {marks : List PostMark}
    (stands : EmbeddingsStanding lib config request candidates marks st) :
    EmbeddingsStanding lib config request candidates (marks ++ exchange events) st' := by
  have inside := (List.getElem?_eq_some_iff.mp found).1
  have here : t'.embeddings[i]? = some st' := by rw [list, List.getElem?_set_self inside]
  simp only [step, found] at moved
  cases stands with
  | @posting failed name rest split =>
      cases read : embeddingsAnswer lib embdId name answer with
      | ok data =>
          simp only [read, Option.some.injEq, Prod.mk.injEq] at moved
          obtain ⟨rfl, rfl⟩ := moved
          obtain rfl : _ = st' := by simpa [inside] using here
          have served : EmbeddingsStanding lib config request candidates _ _ := .served split read
          simpa [exchange, TrafficEvent.mark] using served
      | error text =>
          simp only [read, Option.some.injEq, Prod.mk.injEq] at moved
          obtain ⟨rfl, rfl⟩ := moved
          obtain rfl : _ = st' := by simpa [inside] using here
          let f : FailedPost lib := ⟨name, answer, embdId, text, read⟩
          have further : candidates = (failed ++ [f]).map FailedPost.provider ++ rest := by
            simp [split, f]
          have next : EmbeddingsStanding lib config request candidates _ _ :=
            nextPost_standing configured (failed ++ [f]) further (by simp [split])
          have last : lastErrorOf (failed ++ [f]) = text := by simp [lastErrorOf, f]
          have number : (failed ++ [f]).length = failed.length + 1 := by simp
          rw [last, number] at next
          have marks : ∀ more, _ = failedPosts config request 0 (failed ++ [f]) ++ more :=
            failedPosts_here failed f
          simpa [exchange, TrafficEvent.mark, ← marks] using next
  | _ => cases moved

theorem cancel_standing {i : ℕ} (moved : step sch lib t (.cancel i) = some (t', events))
    {st st' : EmbeddingsState} (found : t.embeddings[i]? = some st)
    (list : t'.embeddings = t.embeddings.set i st') {marks : List PostMark}
    (stands : EmbeddingsStanding lib config request candidates marks st) :
    EmbeddingsStanding lib config request candidates (marks ++ exchange events) st' := by
  have inside := (List.getElem?_eq_some_iff.mp found).1
  have here : t'.embeddings[i]? = some st' := by rw [list, List.getElem?_set_self inside]
  simp only [step, found] at moved
  cases stands with
  | @posting failed name rest split =>
      obtain ⟨rfl, rfl⟩ := Prod.mk.inj (Option.some.inj moved)
      obtain rfl : _ = st' := by simpa [inside] using here
      have cancelled : EmbeddingsStanding lib config request candidates _ _ := .cancelled split
      simpa [exchange] using cancelled
  | _ => cases moved

variable (lib) in
/-- Where the request begun by a step stands, with the candidates it found. -/
def StandsBy (config : String → ProviderConfig) (first : TrafficTransition)
    (own : List TrafficTransition) (st : EmbeddingsState) : Prop :=
  ∃ request, first.action = .beginEmbeddings request ∧
    EmbeddingsStanding lib config request
      (embeddingsCandidates first.before.gateway.app.registry request.model)
      (exchange (LabelledRun.eventsOf own)) st

theorem begun_stands {first : TrafficTransition} {st : EmbeddingsState}
    (configured : ∀ name, (first.before.gateway.app.provider name).config = config name)
    (valid : first.Valid (step sch lib))
    (own : (embeddingsTasks sch lib).owner first.before first.action =
      some first.before.embeddings.length)
    (list : first.after.embeddings = first.before.embeddings ++ [st]) :
    StandsBy lib config first [first] st := by
  cases act : first.action with
  | gateway inner => rw [act] at own; cases own
  | beginEmbeddings request =>
      refine ⟨request, act, ?_⟩
      rw [LabelledRun.Transition.Valid, act] at valid
      simpa [LabelledRun.eventsOf] using begin_standing configured valid list
  | answered j embdId answer =>
      rw [act] at own
      rw [LabelledRun.Transition.Valid, act] at valid
      obtain rfl : j = first.before.embeddings.length := Option.some.inj own
      simp [step] at valid
  | cancel j =>
      rw [act] at own
      rw [LabelledRun.Transition.Valid, act] at valid
      obtain rfl : j = first.before.embeddings.length := Option.some.inj own
      simp [step] at valid

theorem resumed_stands {first tr : TrafficTransition} {i : ℕ} {past : List TrafficTransition}
    {st st' : EmbeddingsState}
    (configured : ∀ name, (tr.before.gateway.app.provider name).config = config name)
    (valid : tr.Valid (step sch lib))
    (own : (embeddingsTasks sch lib).owner tr.before tr.action = some i)
    (found : tr.before.embeddings[i]? = some st)
    (list : tr.after.embeddings = tr.before.embeddings.set i st')
    (before : StandsBy lib config first past st) : StandsBy lib config first (past ++ [tr]) st' := by
  obtain ⟨request, act, stands⟩ := before
  refine ⟨request, act, ?_⟩
  rw [LabelledRun.eventsOf_snoc, exchange_append]
  cases resumed : tr.action with
  | gateway inner => rw [resumed] at own; cases own
  | beginEmbeddings other =>
      rw [resumed] at own
      have inside := (List.getElem?_eq_some_iff.mp found).1
      have free : tr.before.embeddings.length = i := Option.some.inj own
      omega
  | answered j embdId answer =>
      rw [resumed] at own
      rw [LabelledRun.Transition.Valid, resumed] at valid
      obtain rfl : j = i := Option.some.inj own
      exact answered_standing configured valid found list stands
  | cancel j =>
      rw [resumed] at own
      rw [LabelledRun.Transition.Valid, resumed] at valid
      obtain rfl : j = i := Option.some.inj own
      exact cancel_standing valid found list stands

theorem step_config {act : TrafficAction}
    (configured : ∀ name, (t.gateway.app.provider name).config = config name)
    (moved : step sch lib t act = some (t', events)) (name : String) :
    (t'.gateway.app.provider name).config = config name := by
  cases step_moves sch lib moved with
  | gateway inner => exact (Gateway.step_sameConfig inner name).trans (configured name)
  | _ => exact configured name

end Traffic

/-- The candidates of a request: who is enabled and declares the model, in order of priority. -/
structure EmbeddingsOrder (r : ProviderRegistry) (model : String) (candidates : List String) : Prop where
  distinct : candidates.Nodup
  members : ∀ name, name ∈ candidates ↔
    name ∈ r.enabled ∧ (r.provider name).supportsModel (.str model) = true
  sorted : candidates.Pairwise fun a b => (r.provider a).config.priority ≤ (r.provider b).config.priority

theorem embeddingsCandidates_order (r : ProviderRegistry) (model : String) :
    EmbeddingsOrder r model (embeddingsCandidates r model) where
  distinct := (List.perm_insertionSort _ _).nodup_iff.mpr (r.enabled_nodup.filter _)
  members name := by
    rw [embeddingsCandidates, List.mem_insertionSort, List.mem_filter]
  sorted := by
    have total : Std.Total fun a b => (r.provider a).config.priority ≤ (r.provider b).config.priority :=
      ⟨fun a b => le_total _ _⟩
    have trans : IsTrans String
        fun a b => (r.provider a).config.priority ≤ (r.provider b).config.priority :=
      ⟨fun a b c => le_trans⟩
    exact List.pairwise_insertionSort _ _

/-- In every state of every run, each embeddings request stands where the contract says, with the
candidates that its first step found. -/
theorem embeddings_contract (sch : Scheduler) (lib : EmbeddingsLibraries) (now : ℚ)
    (names : List String) (nodup : names.Nodup) (config : String → ProviderConfig)
    (ts : List TrafficTransition) (t : Traffic)
    (run : TrafficRun sch lib { gateway := .boot now names nodup config } ts t) (i : ℕ)
    (st : EmbeddingsState) (found : t.embeddings[i]? = some st) :
    ∃ earlier first later request candidates, ts = earlier ++ first :: later ∧
      first.before.embeddings.length = i ∧ first.action = .beginEmbeddings request ∧
      EmbeddingsOrder first.before.gateway.app.registry request.model candidates ∧
      EmbeddingsStanding lib config request candidates
        (exchange (LabelledRun.eventsOf ((Traffic.embeddingsTasks sch lib).stepsOf i ts))) st := by
  have configured : ∀ us (u : Traffic),
      TrafficRun sch lib { gateway := .boot now names nodup config } us u →
      ∀ name, (u.gateway.app.provider name).config = config name := fun us u reached =>
    reached.invariant (fun _ u => ∀ name, (u.gateway.app.provider name).config = config name)
      (fun _ => rfl) fun _ _ _ before valid => Traffic.step_config before valid
  obtain ⟨earlier, first, later, split, number, -, request, act, stands⟩ :=
    run.each_task (Traffic.embeddingsTasks sch lib) (Traffic.StandsBy lib config)
      (fun first st reached valid own list => by
        obtain ⟨us, reached⟩ := reached
        exact Traffic.begun_stands (configured us _ reached) valid own list)
      (fun first tr i past st st' reached valid own found list before => by
        obtain ⟨us, reached⟩ := reached
        exact Traffic.resumed_stands (configured us _ reached) valid own found list before)
      rfl i st found
  exact ⟨earlier, first, later, request, _, split, number, act, embeddingsCandidates_order _ _, stands⟩

namespace Demo

/-- Only the text of an empty object can be read. -/
def objectReader : EmbeddingsLibraries :=
  { libraries with
    loads := fun text => if text = "\x7b\x7d" then .ok (.obj []) else .error .decode
    textError := fun _ => ""
    jsonError := fun _ => "Expecting value"
    noSetdefault := fun _ => "" }

/-- `a` answers with a 429, and `b` with an object. -/
def embedsOnB : List TrafficAction :=
  [.beginEmbeddings { model := "e", input := .inr ["one", "two"] },
    .answered 0 "embd-1" (.ok { page "slow down" with status := 429 }),
    .answered 0 "embd-1" (.ok (page "\x7b\x7d"))]

/-- The one request there is has been answered. -/
def embeddingsAnswered : List EmbeddingsState → Bool
  | [.finished (.ok _)] => true
  | _ => false

end Demo

theorem embeddings_contract_answered_by_b :
    ∃ ts t st, TrafficRun Demo.scheduler Demo.objectReader
        { gateway := .boot 1000 ["a", "b"] (by decide) fun _ => Demo.config ["e"] 10 } ts t ∧
      t.embeddings[0]? = some st ∧
      ∃ earlier first later request candidates, ts = earlier ++ first :: later ∧
        first.before.embeddings.length = 0 ∧ first.action = .beginEmbeddings request ∧
        EmbeddingsOrder first.before.gateway.app.registry request.model candidates ∧
        EmbeddingsStanding Demo.objectReader (fun _ => Demo.config ["e"] 10) request candidates
          (exchange (LabelledRun.eventsOf
            ((Traffic.embeddingsTasks Demo.scheduler Demo.objectReader).stepsOf 0 ts))) st := by
  have possible : (LabelledRun.exec (Traffic.step Demo.scheduler Demo.objectReader)
      { gateway := .boot 1000 ["a", "b"] (by decide) fun _ => Demo.config ["e"] 10 }
      Demo.embedsOnB).any (fun r => Demo.embeddingsAnswered r.1.embeddings) = true := by decide +kernel
  obtain ⟨ts, t, run, answered⟩ := LabelledRun.run_of_check _ possible
  have inside : 0 < t.embeddings.length := by
    cases list : t.embeddings with
    | nil => simp [list, Demo.embeddingsAnswered] at answered
    | cons => exact Nat.succ_pos _
  have found : t.embeddings[0]? = some t.embeddings[0] := List.getElem?_eq_getElem inside
  exact ⟨ts, t, _, run, found, embeddings_contract _ _ _ _ _ _ ts t run 0 _ found⟩

end Noxis
