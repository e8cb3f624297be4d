import Noxis.ChatResponse
import Noxis.Errors
import Noxis.StreamTermination

/-! What a chat request leaves behind: its rows in the usage table, and its increments of the
counter of provider requests. -/
namespace Noxis

/-- A row of the usage table. -/
structure UsageRecord extends UsageEntry where
  requestId : String
  gatewayKeyId : String
  latencyMs : ℚ := 0
  promptTokens : ℤ := 0
  completionTokens : ℤ := 0
  totalTokens : ℤ := 0

/-- A validated chat request behind its authentication, with the ids drawn for it, the time of a
plain answer and the times of the chunks of a stream. -/
structure ChatCall where
  payload : ChatCompletionRequest
  model : String
  requestId : String
  keyId : String
  chatId : String
  now : ℤ
  clock : ℕ → ℤ

namespace ChatCall

def request (call : ChatCall) : ChatCompletionRequest := call.payload.withModel call.model

def row (call : ChatCall) (entry : UsageEntry) : UsageRecord :=
  { entry with requestId := call.requestId, gatewayKeyId := call.keyId }

end ChatCall

/-- What the non-streaming path calls besides: the increment of a counter, which may be
refused, the schema on a cached value, and the writing of the response body. -/
structure SyncLibraries extends Libraries where
  counterTakes : ℤ → Bool
  revalidate : Json → Option ChatCompletionResponse
  render : ChatCompletionResponse → Option String

/-- The cache as one request meets it. A backend may raise. -/
structure CacheClient where
  enabled : Bool
  lib : CacheLibraries
  get : String → Except Unit (Option Json)
  set : String → ChatCompletionResponse → Bool

def CacheClient.key (cache : CacheClient) (call : ChatCall) : String :=
  buildCacheKey cache.lib call.request.modelDump

def CacheClient.lookup (cache : CacheClient) (call : ChatCall) : Except Unit (Option Json) :=
  if cache.enabled then cache.get (cache.key call) else .ok none

inductive SyncAnswer where
  | response (response : ChatCompletionResponse)
  | providerError (statusCode : ℕ) (content : Json)
  | raised (e : NoxisError)
  -- an exception that no handler of the endpoint catches
  | crashed

/-- How `_sync_response` ends, the rows it writes, and the labels of its increments of
`noxis_provider_requests_total`. -/
structure SyncOutcome where
  answer : SyncAnswer
  records : List UsageRecord := []
  counted : List (String × String) := []

section sync
variable (lib : SyncLibraries) (cache : CacheClient) (call : ChatCall)

/-- The part of `_sync_response` behind a successful `execute`. -/
def finishSync (result : ProviderResult) (provider : String) : SyncOutcome :=
  match normalizeChatResponse lib.toLibraries result.raw call.chatId call.now call.model provider with
  | .error _ => { answer := .crashed }
  | .ok response =>
      let counted := [(provider, response.model)]
      if lib.counterTakes response.usage.promptTokens &&
          lib.counterTakes response.usage.completionTokens then
        { answer :=
            if cache.enabled && !cache.set (cache.key call) response then .crashed
            else .response response
          records := [
            { provider
              model := response.model
              requestedModel := call.model
              status := "success"
              errorCode := none
              streamed := false
              requestId := call.requestId
              gatewayKeyId := call.keyId
              latencyMs := result.latencyMs
              promptTokens := response.usage.promptTokens
              completionTokens := response.usage.completionTokens
              totalTokens := response.usage.totalTokens }]
          counted }
      else { answer := .crashed, counted }

/-- `_sync_response` from its call of `execute` on. -/
def afterMiss : RunEnd → SyncOutcome
  | .returned result provider => finishSync lib cache call result provider
  | .providerError e =>
      { answer := .providerError e.statusCode (.obj [("error", .obj [("message", .str e.message),
          ("type", .str "provider_error"),
          ("code", .str ("NOXIS_UPSTREAM_" ++ toString e.statusCode))])]) }
  | .unavailable message =>
      { answer := .raised (serviceUnavailableError message)
        records := [call.row
          { provider := "none"
            model := "none"
            requestedModel := call.model
            status := "error"
            errorCode := some (serviceUnavailableError message).errCode
            streamed := false }] }
  | _ => { answer := .crashed }

/-- `_sync_response`, given how `execute` ends if it is called. -/
def syncResponse (ending : RunEnd) : SyncOutcome :=
  match cache.lookup call with
  | .error () => { answer := .crashed }
  | .ok (some cached) =>
      match lib.revalidate cached with
      | some response => { answer := .response response }
      | none => { answer := .crashed }
  | .ok none => afterMiss lib cache call ending

end sync

/-- The increments of the counter by `event_gen`: one behind every normalised chunk, up to
the first chunk that raises. -/
def countedChunks (lib : Libraries) (chatId model : String) :
    (ℕ → ℤ) → List (Json × String) → List (String × String)
  | _, [] => []
  | clock, (raw, provider) :: rest =>
      match normalizeChunk lib raw chatId (clock 0) model provider with
      | .error _ => []
      | .ok chunk =>
          (provider, model) ::
            match lib.dumpJson chunk with
            | none => []
            | some _ => countedChunks lib chatId model (fun i => clock (i + 1)) rest

/-- The provider whose answer a run ended with. -/
def servedBy (r : Drained) : Option String :=
  match r.ending with
  | .returned _ provider => some provider
  | .completed => (contacted r.events).getLast?.map RoutingDecision.provider
  | _ => none

/-- A finished request: whether its client has the complete answer, who served it, and what
has been recorded and counted. -/
structure Account where
  complete : Bool
  served : Option String
  records : List UsageRecord
  counted : List (String × String)

/-- The stream sent for a finished run of `execute_stream`. -/
def accountOfStream (lib : SyncLibraries) (call : ChatCall) (r : Drained) : Account :=
  let stream := eventGen lib.toLibraries call.chatId call.model r.ending call.clock "unknown"
    (yielded r.events)
  { complete := stream.events.any fun
      | .done => true
      | _ => false
    served := servedBy r
    records := (stream.usage.map call.row).toList
    counted := countedChunks lib.toLibraries call.chatId call.model call.clock (yielded r.events) }

/-- The answer given around a finished run of `execute`. -/
def accountOfAnswer (lib : SyncLibraries) (cache : CacheClient) (call : ChatCall) (r : Drained) :
    Account :=
  let outcome := syncResponse lib cache call r.ending
  { complete := match outcome.answer with
      | .response response => (lib.render response).isSome
      | _ => false
    served := servedBy r
    records := outcome.records
    counted := outcome.counted }

/-- One chat request from its handler to the end of its response. -/
def chatAccount (lib : SyncLibraries) (cache : CacheClient) (sch : Scheduler) (env : Upstreams)
    (s : AppState) (call : ChatCall) : Account :=
  if call.payload.stream then
    accountOfStream lib call (sch.drain env .executeStream s call.request)
  else accountOfAnswer lib cache call (sch.drain env .execute s call.request)

/-- Accounted exactly once: one row, a success if and only if the client has everything,
under the provider that served, which alone is counted, once. -/
structure Account.Exact (a : Account) : Prop where
  once : ∃ record, a.records = [record] ∧ (record.status = "success" ↔ a.complete = true) ∧
    ∀ provider ∈ a.served, record.provider = provider
  counted : ∀ provider, a.counted.countP (fun labels => labels.1 = provider) =
    if a.served = some provider then 1 else 0

theorem not_exact_of_no_record {a : Account} (nothing : a.records = []) : ¬ a.Exact := by
  rintro ⟨⟨record, written, -⟩, -⟩
  rw [nothing] at written
  cases written

/-- One row of success under the name that is counted is exact where the answer arrived. -/
theorem success_exact_iff {complete : Bool} {record : UsageRecord} {provider model : String}
    (status : record.status = "success") (named : record.provider = provider) :
    Account.Exact { complete, served := some provider, records := [record]
                    counted := [(provider, model)] } ↔ complete = true := by
  subst named
  constructor
  · rintro ⟨⟨other, written, succeeded, -⟩, -⟩
    obtain rfl : record = other := by simpa using written
    exact succeeded.mp status
  · intro arrived
    refine ⟨⟨record, rfl, by simp [status, arrived], by simp⟩, fun provider => ?_⟩
    simp [List.countP_cons]

/-- The outcome of `execute` that had the attempts `tried` within its retries. -/
inductive Executes (env : Upstreams) (tried : List (RoutingDecision × ℕ)) (r : Drained) : Prop
  | allFail (failed : ∀ p ∈ tried, GoesOn env .execute p)
      (message : String) (ending : r.ending = .unavailable message)
  | stopsAt (earlier : List (RoutingDecision × ℕ)) (p : RoutingDecision × ℕ)
      (later : List (RoutingDecision × ℕ)) (split : tried = earlier ++ p :: later)
      (failed : ∀ q ∈ earlier, GoesOn env .execute q) (stays : ¬ GoesOn env .execute p)
      (ending : (∃ result, (env p.1.provider).outcome = .success result ∧
          r.ending = .returned result p.1.provider) ∨
        (∀ result, (env p.1.provider).outcome ≠ .success result) ∧ r.ending = .otherError)

theorem Executes.after_failure {env : Upstreams} {tried : List (RoutingDecision × ℕ)} {r : Drained}
    (rest : Executes env tried r) {p : RoutingDecision × ℕ} (goes : GoesOn env .execute p)
    (events : List Event) : Executes env (p :: tried) (r.after events) := by
  cases rest with
  | allFail failed message ending =>
      refine .allFail ?_ message ending
      simpa [goes] using failed
  | stopsAt earlier last later split failed stays ending =>
      refine .stopsAt (p :: earlier) last later (by simp [split]) ?_ stays ending
      simpa [goes] using failed

namespace Scheduler

variable (sch : Scheduler) (env : Upstreams)

/-- The loop of `execute` from any point on, whatever the providers answer. -/
theorem drainLoop_executes (ds : List RoutingDecision) (s : AppState) {l : LoopState}
    (path : l.path = .execute) :
    Executes env (numbered l.attempts (ds.take (sch.maxRetries - l.attempts).toNat))
      (sch.drainLoop env s l ds) := by
  induction ds generalizing s l with
  | nil => exact .allFail (by simp) _ rfl
  | cons d rest ih =>
      have goes_on : ∀ s' e, ¬ sch.maxRetries ≤ l.attempts →
          GoesOn env .execute (d, l.attempts + 1) →
          Executes env
            (numbered l.attempts ((d :: rest).take (sch.maxRetries - l.attempts).toNat))
            ((sch.drainLoop env s' (l.failed e) rest).after (attemptEvents env s l d rest)) := by
        intro s' e room goes
        have failed : (l.failed e).path = .execute := path
        rw [take_room room]
        exact (ih s' failed).after_failure goes _
      have iterates := sch.drainLoop_iterates env s l d rest
      generalize sch.drainLoop env s l (d :: rest) = r at iterates ⊢
      cases iterates with
      | spent spent =>
          rw [take_spent spent]
          exact .allFail (by simp) _ rfl
      | @success result room ends =>
          rw [take_room room]
          exact .stopsAt [] (d, l.attempts + 1) _ rfl (by simp) (by simp [GoesOn, ends])
            (.inl ⟨result, ends, by simp [path]⟩)
      | otherError room ends =>
          rw [take_room room]
          exact .stopsAt [] (d, l.attempts + 1) _ rfl (by simp) (by simp [GoesOn, ends])
            (.inr ⟨by simp [ends], rfl⟩)
      | @overflow e room ends retryable _ large =>
          rw [take_room room]
          refine .stopsAt [] (d, l.attempts + 1) _ rfl (by simp) ?_ (.inr ⟨by simp [ends], rfl⟩)
          rintro ⟨e', same, small⟩
          obtain rfl : e = e' := CallOutcome.apiError.inj (ends.symm.trans same)
          exact small ⟨retryable, large⟩
      | @backoff e delay room ends retryable _ delayed =>
          exact goes_on _ _ room ⟨e, ends, fun large => small_of_delayAfter delayed large.2⟩
      | @terminal e room ends final =>
          exact goes_on _ _ room ⟨e, ends, by simp [final]⟩
      | raised room ends stream => simp [path] at stream

theorem drain_executes (s : AppState) (request : ChatCompletionRequest) :
    Executes env (numbered 0 ((sch.eligibleDecisions s request).1.take sch.maxRetries.toNat))
      (sch.drain env .execute s request) := by
  have start : ({ path := .execute, request } : LoopState).path = .execute := rfl
  have loop := sch.drainLoop_executes env (sch.eligibleDecisions s request).1
    (sch.eligibleDecisions s request).2 start
  rw [sch.drain_eq]
  simpa using loop

end Scheduler

/-! ### The streaming path -/

/-- The provider answers with one chunk, which can be sent on, and ends normally. -/
def OneChunk (lib : Libraries) (call : ChatCall) (provider : String) (up : Upstream) : Prop :=
  ∃ raw result, up.chunks = [raw] ∧ up.outcome = .success result ∧
    Sendable lib call.chatId call.model provider raw

section stream
variable {lib : Libraries} {chatId model : String} {ending : RunEnd} {clock : ℕ → ℤ}
  {used : String} {out : List (Json × String)}

/-- A row is written only where every chunk was sent and the generator's end has a handler
that writes one. -/
theorem sent_of_usage (written : (eventGen lib chatId model ending clock used out).usage.isSome) :
    (∀ pair ∈ out, Sendable lib chatId model pair.2 pair.1) ∧
      (ending = .completed ∨ ∃ message, ending = .unavailable message) := by
  induction out generalizing clock used with
  | nil => cases ending <;> simp [eventGen] at written ⊢
  | cons pair rest ih =>
      obtain ⟨raw, provider⟩ := pair
      cases made : chunkData lib raw chatId (clock 0) model provider with
      | ok data =>
          rw [eventGen, made] at written
          obtain ⟨others, ends⟩ := ih written
          refine ⟨?_, ends⟩
          rintro pair member
          rcases List.mem_cons.mp member with rfl | later
          · exact (chunkData_ok_iff ..).mp ⟨data, made⟩
          · exact others pair later
      | error reason => simp [eventGen, made] at written

theorem normalized_of_sent {raw : Json} {now : ℤ} {provider data : String}
    (made : chunkData lib raw chatId now model provider = .ok data) :
    ∃ chunk, normalizeChunk lib raw chatId now model provider = .ok chunk ∧
      lib.dumpJson chunk = some data := by
  rw [chunkData] at made
  cases normalized : normalizeChunk lib raw chatId now model provider with
  | error reason => simp [normalized, bind, Except.bind] at made
  | ok chunk =>
      refine ⟨chunk, rfl, ?_⟩
      cases written : lib.dumpJson chunk with
      | none => simp [normalized, written, bind, Except.bind, throw, throwThe, MonadExceptOf.throw] at made
      | some text =>
          simpa [normalized, written, bind, Except.bind, pure, Except.pure] using made

/-- Where every chunk is sent, every chunk is counted. -/
theorem countedChunks_of_sent
    (sent : ∀ pair ∈ out, Sendable lib chatId model pair.2 pair.1) :
    countedChunks lib chatId model clock out = out.map fun pair => (pair.2, model) := by
  induction out generalizing clock with
  | nil => rfl
  | cons pair rest ih =>
      obtain ⟨data, made⟩ := (chunkData_ok_iff lib pair.1 chatId (clock 0) model pair.2).mpr
        (sent pair (by simp))
      obtain ⟨chunk, normalized, written⟩ := normalized_of_sent made
      rw [countedChunks, normalized]
      simp only [written, List.map_cons, ih fun other member => sent other (by simp [member])]

end stream

theorem accountOfStream_exact_iff (lib : SyncLibraries) (call : ChatCall) {env : Upstreams}
    {tried : List (RoutingDecision × ℕ)} {r : Drained} (run : Streams env tried r) :
    (accountOfStream lib call r).Exact ↔
      ∀ earlier p later, tried = earlier ++ p :: later →
        (∀ q ∈ earlier, RetriedSilently env q) → ¬ RetriedSilently env p →
        OneChunk lib.toLibraries call p.1.provider (env p.1.provider) := by
  cases run with
  | allSilent silent called nothing message ending =>
      constructor
      · intro _
        exact forall_first_of_all silent
      · intro _
        simp only [accountOfStream, nothing, ending, eventGen]
        refine ⟨⟨_, rfl, ?_, ?_⟩, ?_⟩
        · simp [ChatCall.row]
        · simp [servedBy, ending]
        · simp [servedBy, ending, countedChunks]
  | overflows earlier p later split silent fails large called nothing ending =>
      rw [forall_first_iff split silent large]
      constructor
      · intro exact
        exact absurd exact (not_exact_of_no_record
          (by simp [accountOfStream, nothing, ending, eventGen]))
      · rintro ⟨raw, result, -, outcome, -⟩
        obtain ⟨-, e, ends, -⟩ := fails
        cases outcome.symm.trans ends
  | stopsAt earlier p later split silent speaks called out ending =>
      obtain ⟨d, n⟩ := p
      rw [forall_first_iff split silent (mt RetriedSilently.failsSilently speaks)]
      constructor
      · rintro ⟨⟨record, written, -⟩, counted⟩
        have isSome : (eventGen lib.toLibraries call.chatId call.model r.ending call.clock "unknown"
            (yielded r.events)).usage.isSome := by
          by_contra nothing
          rw [Option.not_isSome_iff_eq_none] at nothing
          simp [accountOfStream, nothing] at written
        obtain ⟨sent, ends⟩ := sent_of_usage isSome
        cases outcome : (env d.provider).outcome with
        | apiError e => simp [ending, outcome, streamEnd] at ends
        | otherError => simp [ending, outcome, streamEnd] at ends
        | success result =>
            -- the provider that served is counted once for each of its chunks
            have served : servedBy r = some d.provider := by
              simp [servedBy, ending, outcome, streamEnd, called]
            have once := counted d.provider
            simp only [accountOfStream, served, if_true, countedChunks_of_sent sent] at once
            have single : (env d.provider).chunks.length = 1 := by
              simpa [out, List.countP_map, Function.comp_def, List.countP_replicate] using once
            obtain ⟨raw, one⟩ := List.length_eq_one_iff.mp single
            exact ⟨raw, result, one, outcome, sent (raw, d.provider) (by simp [out, one])⟩
      · rintro ⟨raw, result, one, outcome, sendable⟩
        obtain ⟨data, made⟩ := (chunkData_ok_iff lib.toLibraries raw call.chatId (call.clock 0)
          call.model d.provider).mpr sendable
        obtain ⟨chunk, normalized, written⟩ := normalized_of_sent made
        have completed : r.ending = .completed := by rw [ending, outcome, streamEnd]
        have served : servedBy r = some d.provider := by simp [servedBy, completed, called]
        simp only [accountOfStream, served, out, one, List.map_cons, List.map_nil, eventGen, made,
          completed]
        refine ⟨⟨_, rfl, ?_, ?_⟩, ?_⟩
        · simp [ChatCall.row]
        · simp [ChatCall.row]
        · intro provider
          simp [countedChunks, normalized, written, List.countP_cons]

/-! ### The non-streaming path -/

/-- The cache is off, or has nothing for the request. -/
def CacheClient.Misses (cache : CacheClient) (call : ChatCall) : Prop :=
  cache.lookup call = .ok none

/-- The answer is counted, stored where a cache is on, and written out. -/
def Deliverable (lib : SyncLibraries) (cache : CacheClient) (call : ChatCall)
    (response : ChatCompletionResponse) : Prop :=
  lib.counterTakes response.usage.promptTokens = true ∧
    lib.counterTakes response.usage.completionTokens = true ∧
    (cache.enabled = true → cache.set (cache.key call) response = true) ∧
    (lib.render response).isSome

/-- The provider answers with a body that fits the schema, and the answer built from it can
be delivered. -/
def WholeAnswer (lib : SyncLibraries) (cache : CacheClient) (call : ChatCall) (provider : String)
    (up : Upstream) : Prop :=
  ∃ result, up.outcome = .success result ∧ ResponseShaped lib.toLibraries call.now result.raw ∧
    ∀ response, normalizeChatResponse lib.toLibraries result.raw call.chatId call.now call.model
      provider = .ok response → Deliverable lib cache call response

section sync
variable {lib : SyncLibraries} {cache : CacheClient} {call : ChatCall}

theorem wholeAnswer_iff {provider : String} {up : Upstream} {result : ProviderResult}
    (outcome : up.outcome = .success result) :
    WholeAnswer lib cache call provider up ↔
      ∃ response, normalizeChatResponse lib.toLibraries result.raw call.chatId call.now call.model
        provider = .ok response ∧ Deliverable lib cache call response := by
  constructor
  · rintro ⟨other, outcome', shaped, all⟩
    obtain rfl : result = other := CallOutcome.success.inj (outcome.symm.trans outcome')
    obtain ⟨response, normalized⟩ := (normalizeChatResponse_ok_iff ..).mpr shaped
    exact ⟨response, normalized, all response normalized⟩
  · rintro ⟨response, normalized, delivered⟩
    refine ⟨result, outcome, (normalizeChatResponse_ok_iff ..).mp ⟨response, normalized⟩, ?_⟩
    intro other normalized'
    rwa [← Except.ok.inj (normalized.symm.trans normalized')]

/-- An answer from the cache, or a cache that fails, leaves no row. -/
theorem syncResponse_cached (answered : ¬ cache.Misses call) (ending : RunEnd) :
    (syncResponse lib cache call ending).records = [] := by
  rw [syncResponse]
  cases found : cache.lookup call with
  | error e => rfl
  | ok value =>
      cases value with
      | none => exact absurd found answered
      | some cached =>
          dsimp only
          cases lib.revalidate cached <;> rfl

theorem accountOfAnswer_missed (missed : cache.Misses call) {r : Drained} {ending : RunEnd}
    (ends : r.ending = ending) :
    accountOfAnswer lib cache call r =
      { complete := match (afterMiss lib cache call ending).answer with
          | .response response => (lib.render response).isSome
          | _ => false
        served := servedBy r
        records := (afterMiss lib cache call ending).records
        counted := (afterMiss lib cache call ending).counted } := by
  rw [accountOfAnswer, syncResponse, missed, ends]

/-- Behind a successful call the account is exact if and only if the answer is delivered. -/
theorem accountOfAnswer_returned_iff (missed : cache.Misses call) {r : Drained}
    {result : ProviderResult} {provider : String} (ends : r.ending = .returned result provider) :
    (accountOfAnswer lib cache call r).Exact ↔
      ∃ response, normalizeChatResponse lib.toLibraries result.raw call.chatId call.now call.model
        provider = .ok response ∧ Deliverable lib cache call response := by
  have served : servedBy r = some provider := by simp [servedBy, ends]
  rw [accountOfAnswer_missed missed ends, afterMiss, finishSync, served]
  cases normalized : normalizeChatResponse lib.toLibraries result.raw call.chatId call.now
      call.model provider with
  | error reason =>
      simp only [reduceCtorEq, false_and, exists_false, iff_false]
      exact not_exact_of_no_record rfl
  | ok response =>
      simp only [Except.ok.injEq, exists_eq_left']
      by_cases takes : lib.counterTakes response.usage.promptTokens = true ∧
          lib.counterTakes response.usage.completionTokens = true
      · simp only [takes, Bool.and_self, if_true, Deliverable, true_and]
        refine Iff.trans (success_exact_iff ?_ ?_) ?_
        · rfl
        · rfl
        · cases cache.enabled <;> cases cache.set (cache.key call) response <;> simp
      · rw [← Bool.and_eq_true] at takes
        rw [if_neg takes]
        constructor
        · intro exact
          exact absurd exact (not_exact_of_no_record rfl)
        · rintro ⟨prompt, completion, -⟩
          exact absurd (by rw [prompt, completion]; rfl) takes

theorem accountOfAnswer_exact_iff {env : Upstreams} {tried : List (RoutingDecision × ℕ)}
    {r : Drained} (run : Executes env tried r) :
    (accountOfAnswer lib cache call r).Exact ↔ cache.Misses call ∧
      ∀ earlier p later, tried = earlier ++ p :: later →
        (∀ q ∈ earlier, GoesOn env .execute q) → ¬ GoesOn env .execute p →
        WholeAnswer lib cache call p.1.provider (env p.1.provider) := by
  by_cases missed : cache.Misses call
  · simp only [missed, true_and]
    cases run with
    | allFail failed message ending =>
        constructor
        · intro _
          exact forall_first_of_all failed
        · intro _
          rw [accountOfAnswer_missed missed ending, afterMiss]
          refine ⟨⟨_, rfl, ?_, ?_⟩, ?_⟩
          · simp [ChatCall.row]
          · simp [servedBy, ending]
          · simp [servedBy, ending]
    | stopsAt earlier p later split failed stays ending =>
        rw [forall_first_iff split failed stays]
        rcases ending with ⟨result, outcome, ending⟩ | ⟨unserved, ending⟩
        · rw [accountOfAnswer_returned_iff missed ending, wholeAnswer_iff outcome]
        · rw [accountOfAnswer_missed missed ending]
          constructor
          · intro exact
            exact absurd exact (not_exact_of_no_record rfl)
          · rintro ⟨result, success, -⟩
            exact absurd success (unserved result)
  · simp only [missed, false_and, iff_false]
    exact not_exact_of_no_record (syncResponse_cached missed _)

end sync

/-- An attempt whose failure makes the run go on to the next one. -/
def PassedOver (env : Upstreams) (stream : Bool) (p : RoutingDecision × ℕ) : Prop :=
  GoesOn env (if stream then .executeStream else .execute) p

/-- A request is accounted exactly once if and only if, on the non-streaming path, the cache
has nothing for it, and the first provider within the retry bound that is not passed over,
if there is one, answers with a deliverable body, or on the other path with one chunk. -/
theorem request_accounted_iff (lib : SyncLibraries) (cache : CacheClient) (sch : Scheduler)
    (env : Upstreams) (s : AppState) (call : ChatCall) :
    (chatAccount lib cache sch env s call).Exact ↔
      (call.payload.stream = false → cache.Misses call) ∧
      ∀ earlier p later,
        numbered 0 ((sch.eligibleDecisions s call.request).1.take sch.maxRetries.toNat) =
          earlier ++ p :: later →
        (∀ q ∈ earlier, PassedOver env call.payload.stream q) →
        ¬ PassedOver env call.payload.stream p →
        if call.payload.stream then OneChunk lib.toLibraries call p.1.provider (env p.1.provider)
        else WholeAnswer lib cache call p.1.provider (env p.1.provider) := by
  cases path : call.payload.stream with
  | true =>
      simp only [chatAccount, path, PassedOver, GoesOn, if_true, reduceCtorEq, false_implies,
        true_and]
      exact accountOfStream_exact_iff lib call (sch.drain_streams env s call.request)
  | false =>
      simp only [chatAccount, path, PassedOver, Bool.false_eq_true, if_false, true_implies]
      exact accountOfAnswer_exact_iff (sch.drain_executes env s call.request)

namespace Demo

def syncLibraries : SyncLibraries :=
  { libraries with
    counterTakes := fun n => decide (0 ≤ n), revalidate := fun _ => none, render := fun _ => some "" }

def cacheClient (enabled : Bool) : CacheClient :=
  { enabled, lib := { write := fun _ => "", sha256 := id, reload := id }
    get := fun _ => .ok (some (.obj [])), set := fun _ _ => true }

def chatCall (stream : Bool) : ChatCall :=
  { payload := { request "m" with stream }, model := "m", requestId := "req-1", keyId := "key-1",
    chatId := "chatcmpl-1", now := 1000, clock := fun _ => 1000 }

/-- Every provider streams two chunks without choices. -/
def twoChunks : Upstreams := fun name =>
  .alone [.obj [], .obj []] (streamEnded name) (instant name)

end Demo

/-- A stream of two chunks is counted twice, and an answer from the cache leaves no row. -/
theorem request_not_accounted :
    ¬ (chatAccount Demo.syncLibraries (Demo.cacheClient false) Demo.scheduler Demo.twoChunks
        (Demo.gateway fun _ => Demo.config [] 10).app (Demo.chatCall true)).Exact ∧
      ¬ (chatAccount Demo.syncLibraries (Demo.cacheClient true) Demo.scheduler Demo.twoChunks
        (Demo.gateway fun _ => Demo.config [] 10).app (Demo.chatCall false)).Exact := by
  constructor
  · have twice : (chatAccount Demo.syncLibraries (Demo.cacheClient false) Demo.scheduler
        Demo.twoChunks (Demo.gateway fun _ => Demo.config [] 10).app
        (Demo.chatCall true)).counted.countP (fun labels => labels.1 = "a") = 2 := by
      decide +kernel
    rintro ⟨-, counted⟩
    have once := counted "a"
    rw [twice] at once
    split at once <;> cases once
  · exact not_exact_of_no_record rfl

end Noxis
