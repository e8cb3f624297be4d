import Noxis.ResponseRoundTrip
import Noxis.SseDecoding
import Noxis.StreamTermination

/-! A gateway behind a gateway: what `event_gen` of the first one sends, as server-sent events, is
decoded by `stream_completion` of the second one and sent on by its own `event_gen`. -/
namespace Noxis

open TextLines (splitlines splitlines_line LineEnd)

/-! ### The events on the wire -/

/-- The data of an event; `dumps` is `json.dumps` on the payload of an error. -/
def SseEvent.payload (dumps : Json → String) : SseEvent → String
  | .chunk data => data
  | .done => "[DONE]"
  | .error payload => dumps payload

def dataTag : List Char := "data: ".toList

/-- An event is a data line and a blank line. -/
def SseEvent.wire (dumps : Json → String) (e : SseEvent) : List Char :=
  dataTag ++ (e.payload dumps).toList ++ LineEnd.crlf.text ++ LineEnd.crlf.text

/-- The lines of a body of events, as `aiter_lines` yields them. -/
def wireLines (dumps : Json → String) (events : List SseEvent) : List String :=
  (splitlines isLineBreak (events.flatMap (SseEvent.wire dumps))).map .ofList

/-- No character of the text ends a line. -/
def OnOneLine (data : String) : Prop := ∀ c ∈ data.toList, isLineBreak c = false

theorem onOneLine_of_all {data : String} (all : (data.toList.all fun c => !isLineBreak c) = true) :
    OnOneLine data := by
  intro c member
  simpa using List.all_eq_true.mp all c member

/-- The text of an object. -/
def Braced (data : String) : Prop := ∃ inner, data.toList = '{' :: (inner ++ ['}'])

theorem splitlines_blank (t : List Char) :
    splitlines isLineBreak (LineEnd.crlf.text ++ t) = [] :: splitlines isLineBreak t := by
  have empty : TextLines.OneLine [] := by simp [TextLines.OneLine]
  have cut : splitlines isLineBreak ([] ++ LineEnd.crlf.text ++ t) = _ :=
    splitlines_line empty (by decide) .crlf t
  rwa [List.nil_append, List.splitOnP_nil, List.singleton_append] at cut

/-- A line without a line end in it, a blank line, and the rest. -/
theorem splitlines_event {line : List Char} (clean : ∀ c ∈ line, isLineBreak c = false)
    (rest : List Char) :
    splitlines isLineBreak (line ++ LineEnd.crlf.text ++ LineEnd.crlf.text ++ rest) =
      line :: [] :: splitlines isLineBreak rest := by
  rw [List.append_assoc _ LineEnd.crlf.text, splitlines_line (oneLine_of_clean clean) (by decide),
    TextLines.splitOnP_clean clean, splitlines_blank]
  rfl

theorem dataLine_clean {data : String} (clean : OnOneLine data) :
    ∀ c ∈ dataTag ++ data.toList, isLineBreak c = false := by
  have tag : (dataTag.all fun c => !isLineBreak c) = true := by decide
  intro c member
  rcases List.mem_append.mp member with front | inside
  · simpa using List.all_eq_true.mp tag c front
  · exact clean c inside

theorem wireLines_cons {dumps : Json → String} {e : SseEvent} (clean : OnOneLine (e.payload dumps))
    (rest : List SseEvent) :
    wireLines dumps (e :: rest) =
      .ofList (dataTag ++ (e.payload dumps).toList) :: "" :: wireLines dumps rest := by
  have cut := splitlines_event (dataLine_clean clean) (rest.flatMap (SseEvent.wire dumps))
  rw [wireLines, List.flatMap_cons, SseEvent.wire, cut, List.map_cons, List.map_cons, wireLines,
    String.ofList_nil]

section reading
variable (lib : Libraries) (name : String) (broken : Option TransportError)

theorem dataField_object {data : String} (braced : Braced data) :
    dataField (.ofList (dataTag ++ data.toList)) = some data := by
  obtain ⟨inner, eq⟩ := braced
  have blank : ∀ c ∈ [' '], isPySpace c = true := by
    intro c member
    rw [List.mem_singleton.mp member]
    decide
  have spaced : dataTag = "data:".toList ++ [' '] := by decide
  rw [spaced, List.append_assoc, dataField_data, eq, strip_object blank, ← eq, String.ofList_toList]

variable {lib} in
theorem readLines_object {data : String} {v : Json} (braced : Braced data)
    (loaded : lib.loads data = .ok v) (rest : List String) :
    readLines lib name broken (.ofList (dataTag ++ data.toList) :: "" :: rest) =
      (v :: (readLines lib name broken rest).1, (readLines lib name broken rest).2) := by
  have other : data ≠ "[DONE]" := by
    rintro rfl
    obtain ⟨inner, eq⟩ := braced
    have first := congrArg List.head? eq
    rw [List.head?_cons] at first
    exact absurd first (by decide)
  have blank : dataField "" = none := by decide
  rw [readLines, dataField_object braced]
  simp only [other, if_false, loaded]
  rw [readLines, blank]

theorem readLines_done (rest : List String) :
    readLines lib name broken (.ofList (dataTag ++ "[DONE]".toList) :: rest) =
      ([], streamEnded name) := by
  have field : dataField (.ofList (dataTag ++ "[DONE]".toList)) = some "[DONE]" := by decide
  rw [readLines, field]
  rfl

end reading

/-! ### Chunks written and read -/

/-- `model_dump_json` writes an object, and `json.loads` reads back what these events hold of
chunks. -/
structure ChunkWriter (lib : Libraries) (events : List SseEvent) : Prop where
  braced : ∀ {c data}, lib.dumpJson c = some data → Braced data
  reads : ∀ {c data}, .chunk data ∈ events → lib.dumpJson c = some data →
    lib.loads data = .ok (.obj c.modelDump)

/-- The texts are those of the chunks. -/
def Written (lib : Libraries) (chunks : List ChatCompletionChunk) (datas : List String) : Prop :=
  List.Forall₂ (fun c data => lib.dumpJson c = some data) chunks datas

/-- The chunk under another provider's name and with another time. -/
def ChatCompletionChunk.under (provider : String) (now : ℤ) (c : ChatCompletionChunk) :
    ChatCompletionChunk :=
  { c with created := now, noxisProvider := provider }

/-- The chunks as a provider of that name would have sent them at these times. -/
def relayed (provider : String) (clock : ℕ → ℤ) (chunks : List ChatCompletionChunk) :
    List ChatCompletionChunk :=
  chunks.mapIdx fun i => .under provider (clock i)

theorem relayed_cons (provider : String) (clock : ℕ → ℤ) (c : ChatCompletionChunk)
    (chunks : List ChatCompletionChunk) :
    relayed provider clock (c :: chunks) =
      c.under provider (clock 0) :: relayed provider (fun i => clock (i + 1)) chunks :=
  List.mapIdx_cons

section chunks
variable {lib : Libraries} {dumps : Json → String} {chunks : List ChatCompletionChunk}
  {datas : List String}

/-- The data lines of the chunks are read as their dumps, whatever follows. -/
theorem readLines_chunks (written : Written lib chunks datas)
    (braced : ∀ {c data}, lib.dumpJson c = some data → Braced data)
    (reads : ∀ {c data}, data ∈ datas → lib.dumpJson c = some data →
      lib.loads data = .ok (.obj c.modelDump))
    (clean : ∀ data ∈ datas, OnOneLine data) (name : String) (broken : Option TransportError)
    (more : List SseEvent) :
    readLines lib name broken (wireLines dumps (datas.map .chunk ++ more)) =
      (chunks.map (fun c => .obj c.modelDump) ++
          (readLines lib name broken (wireLines dumps more)).1,
        (readLines lib name broken (wireLines dumps more)).2) := by
  induction written with
  | nil => rfl
  | @cons c data chunks datas first rest ih =>
      have after := ih (fun member => reads (List.mem_cons_of_mem _ member))
        fun text member => clean text (List.mem_cons_of_mem _ member)
      have here : OnOneLine ((SseEvent.chunk data).payload dumps) := clean data List.mem_cons_self
      rw [List.map_cons, List.cons_append, wireLines_cons here]
      change readLines lib name broken (.ofList (dataTag ++ data.toList) :: _) = _
      rw [readLines_object name broken (braced first) (reads List.mem_cons_self first), after]
      rfl

/-- A chunk that can be made and written down is sent as what was written. -/
theorem chunkData_written {raw : Json} {chatId : String} {now : ℤ} {model provider data : String}
    {chunk : ChatCompletionChunk}
    (made : normalizeChunk lib raw chatId now model provider = .ok chunk)
    (written : lib.dumpJson chunk = some data) :
    chunkData lib raw chatId now model provider = .ok data := by
  rw [chunkData, made]
  simp only [bind, Except.bind, written]
  rfl

theorem chunkData_of_dump (ints : ∀ n, lib.coerceInt (.scalar (.int n)) = some n)
    {c : ChatCompletionChunk} {provider data : String} {now : ℤ}
    (written : lib.dumpJson (c.under provider now) = some data) (chatId model : String) :
    chunkData lib (.obj c.modelDump) chatId now model provider = .ok data :=
  chunkData_written (normalizeChunk_dump ints ..) written

/-- The dumps of chunks, sent on: the same chunks under the provider's name, with the times at
which they are sent on, in front of the rest. -/
theorem eventGen_dumps (ints : ∀ n, lib.coerceInt (.scalar (.int n)) = some n)
    {provider : String} {clock : ℕ → ℤ} (written : Written lib (relayed provider clock chunks) datas)
    (chatId model used : String) (ending : RunEnd) (more : List (Json × String)) :
    eventGen lib chatId model ending clock used
        (chunks.map (fun c => (.obj c.modelDump, provider)) ++ more) =
      let rest := eventGen lib chatId model ending (fun i => clock (i + chunks.length))
        (if chunks = [] then used else provider) more
      { rest with events := datas.map .chunk ++ rest.events } := by
  induction chunks generalizing datas clock used with
  | nil =>
      cases written
      rfl
  | cons c chunks ih =>
      rw [relayed_cons] at written
      cases written with
      | @cons _ data _ datas first rest =>
          have data_eq := chunkData_of_dump ints first chatId model
          have after := ih rest provider
          simp only [ite_self] at after
          simp [eventGen, data_eq, after, Nat.add_right_comm _ _ 1, ← Nat.add_assoc]

end chunks

/-! ### Two gateways -/

/-- Every chunk that is sent was written by the library. -/
theorem eventGen_chunk {lib : Libraries} {chatId model used : String} {ending : RunEnd}
    {clock : ℕ → ℤ} {pairs : List (Json × String)} {data : String}
    (sent : .chunk data ∈ (eventGen lib chatId model ending clock used pairs).events) :
    ∃ c, lib.dumpJson c = some data := by
  induction pairs generalizing clock used with
  | nil => cases ending <;> simp [eventGen] at sent
  | cons pair rest ih =>
      obtain ⟨raw, provider⟩ := pair
      cases made : chunkData lib raw chatId (clock 0) model provider with
      | error reason => simp [eventGen, made] at sent
      | ok text =>
          simp only [eventGen, made, List.mem_cons, SseEvent.chunk.injEq] at sent
          rcases sent with rfl | later
          · obtain ⟨c, -, written⟩ := bind_eq_ok.mp made
            cases dumped : lib.dumpJson c with
            | none => simp [dumped] at written
            | some text =>
                simp only [dumped, pure, Except.pure, Except.ok.injEq] at written
                exact ⟨c, by rw [dumped, written]⟩
          · exact ih later

theorem exists_written {lib : Libraries} {datas : List String}
    (each : ∀ data ∈ datas, ∃ c, lib.dumpJson c = some data) : ∃ chunks, Written lib chunks datas := by
  induction datas with
  | nil => exact ⟨[], .nil⟩
  | cons data rest ih =>
      obtain ⟨c, first⟩ := each data (by simp)
      obtain ⟨chunks, others⟩ := ih fun text member => each text (by simp [member])
      exact ⟨c :: chunks, .cons first others⟩

/-- What can be written can be written under another provider's name, at any time. -/
theorem exists_relayed {lib : Libraries} {provider : String}
    (renames : ∀ c, (lib.dumpJson c).isSome →
      (lib.dumpJson { c with noxisProvider := provider }).isSome)
    {chunks : List ChatCompletionChunk} {datas : List String} (written : Written lib chunks datas)
    (clock : ℕ → ℤ) : ∃ datas', Written lib (relayed provider clock chunks) datas' := by
  induction written generalizing clock with
  | nil => exact ⟨[], .nil⟩
  | @cons c data chunks datas first rest ih =>
      obtain ⟨datas', others⟩ := ih fun i => clock (i + 1)
      have renamed := renames c (by simp [first])
      rw [← lib.stamped _ (clock 0)] at renamed
      obtain ⟨data', here⟩ := Option.isSome_iff_exists.mp renamed
      refine ⟨data' :: datas', ?_⟩
      rw [relayed_cons]
      exact .cons here others

theorem streamCompletion_accepted (lib : Libraries) (name : String) {status : ℕ}
    (accepted : status < 400) (header : Option String) (error : Except TransportError String)
    (lines : List String) (broken : Option TransportError) :
    streamCompletion lib name (.answered status header error lines broken) =
      readLines lib name broken lines := by
  simp [streamCompletion, not_le.mpr accepted]

/-- The first provider that does not fail silently answers with a stream that ends well: it is
sent on. -/
theorem streamResponse_speaks {lib : Libraries} {sch : Scheduler} {env : Upstreams}
    {answers : String → StreamAnswer} {s : AppState} {payload : ChatCompletionRequest}
    {chatId model : String} {clock : ℕ → ℤ} {earlier later : List (RoutingDecision × ℕ)}
    {d : RoutingDecision} {n : ℕ} {values : List Json}
    (tried : numbered 0 ((sch.eligibleDecisions s (payload.withModel model)).1.take
      sch.maxRetries.toNat) = earlier ++ (d, n) :: later)
    (retried : ∀ q ∈ earlier, (answers q.1.provider).Retried lib q.2)
    (read : streamCompletion lib d.provider (answers d.provider) = (values, streamEnded d.provider)) :
    streamResponse lib sch (env.overHttp lib answers) s payload chatId model clock =
      eventGen lib chatId model .completed clock "unknown"
        (values.map fun v => (v, d.provider)) := by
  have run := sch.drain_streams (env.overHttp lib answers) s (payload.withModel model)
  have upstream : (env.overHttp lib answers d.provider).chunks = values ∧
      (env.overHttp lib answers d.provider).outcome = streamEnded d.provider := by
    simp [Upstreams.overHttp, read]
  have speaks : ¬ FailsSilently (env.overHttp lib answers d.provider) := by
    rintro ⟨-, e, failed, -⟩
    rw [upstream.2] at failed
    cases failed
  simp only [← retriedSilently_overHttp_iff env] at retried
  have unretried : ¬ RetriedSilently (env.overHttp lib answers) (d, n) :=
    mt RetriedSilently.failsSilently speaks
  unfold streamResponse
  rw [tried] at run
  generalize sch.drain (env.overHttp lib answers) .executeStream s (payload.withModel model) = r
    at run ⊢
  cases run with
  | allSilent silent => exact absurd (silent (d, n) (by simp)) unretried
  | stopsAt earlier' last later' split silent speaks' called out ending =>
      obtain rfl : (d, n) = last := first_without_unique split retried unretried silent
        (mt RetriedSilently.failsSilently speaks')
      simp only [out, ending, upstream.1, upstream.2]
      rfl
  | overflows earlier' last later' split silent fails large =>
      obtain rfl : (d, n) = last := first_without_unique split retried unretried silent large
      exact absurd fails speaks

/-- The lines of `[DONE]` end the stream well, however the connection ends. -/
theorem readLines_wire_done (lib : Libraries) (name : String) (dumps : Json → String)
    (broken : Option TransportError) :
    readLines lib name broken (wireLines dumps [.done]) = ([], streamEnded name) := by
  have tag : OnOneLine "[DONE]" := onOneLine_of_all (by decide)
  have clean : OnOneLine (SseEvent.done.payload dumps) := tag
  rw [wireLines_cons clean]
  exact readLines_done lib name broken _

/-- The lines of an error are read as its payload, and a connection that is closed after them ends the
stream well. -/
theorem readLines_wire_error {lib : Libraries} {dumps : Json → String} {payload : Json}
    (clean : OnOneLine (dumps payload)) (braced : Braced (dumps payload))
    (reads : lib.loads (dumps payload) = .ok payload) (name : String) :
    readLines lib name none (wireLines dumps [.error payload]) = ([payload], streamEnded name) := by
  rw [wireLines_cons (e := .error payload) clean]
  exact readLines_object name none braced reads _

/-- The payload of an error has none of the members of a chunk. -/
theorem eventGen_error {lib : Libraries} {chatId model used : String} {ending : RunEnd}
    {clock : ℕ → ℤ} {pairs : List (Json × String)} {payload : Json}
    (sent : .error payload ∈ (eventGen lib chatId model ending clock used pairs).events) :
    ∃ body, payload = .obj [("error", body)] := by
  induction pairs generalizing clock used with
  | nil =>
      cases ending with
      | unavailable message =>
          obtain rfl : payload = _ := by simpa [eventGen] using sent
          exact ⟨_, rfl⟩
      | providerError e =>
          obtain rfl : payload = _ := by simpa [eventGen] using sent
          exact ⟨_, rfl⟩
      | _ => simp [eventGen] at sent
  | cons pair rest ih =>
      obtain ⟨raw, provider⟩ := pair
      cases made : chunkData lib raw chatId (clock 0) model provider with
      | error reason => simp [eventGen, made] at sent
      | ok text =>
          simp only [eventGen, made, List.mem_cons, reduceCtorEq, false_or] at sent
          exact ih sent

/-- The row of a stream that is counted as a success. -/
def successEntry (provider model : String) : UsageEntry :=
  { provider, model, requestedModel := model, status := "success", errorCode := none
    streamed := true }

/-- A chunk without choices. -/
def emptyChunk (chatId : String) (now : ℤ) (model provider : String) : ChatCompletionChunk :=
  { id := chatId, created := now, model, choices := [], noxisProvider := provider }

section gateways
variable (lib : Libraries) (ints : ∀ n, lib.coerceInt (.scalar (.int n)) = some n)
  (dumps : Json → String) (chatId₁ model₁ used : String) (ending : RunEnd) (clock₁ : ℕ → ℤ)
  (pairs : List (Json × String))
  (writer : ChunkWriter lib (eventGen lib chatId₁ model₁ ending clock₁ used pairs).events)
  (follows : FollowsProtocol ending (eventGen lib chatId₁ model₁ ending clock₁ used pairs).events)
  (clean : ∀ e ∈ (eventGen lib chatId₁ model₁ ending clock₁ used pairs).events,
    OnOneLine (e.payload dumps))
  (sch : Scheduler) (env : Upstreams) (answers : String → StreamAnswer) (s : AppState)
  (payload : ChatCompletionRequest) (chatId model : String) (clock : ℕ → ℤ)
  (earlier later : List (RoutingDecision × ℕ)) (d : RoutingDecision) (n : ℕ)
  (tried : numbered 0 ((sch.eligibleDecisions s (payload.withModel model)).1.take
    sch.maxRetries.toNat) = earlier ++ (d, n) :: later)
  (retried : ∀ q ∈ earlier, (answers q.1.provider).Retried lib q.2)
  (renames : ∀ c, (lib.dumpJson c).isSome →
    (lib.dumpJson { c with noxisProvider := d.provider }).isSome)
  (status : ℕ) (accepted : status < 400) (header : Option String)
  (error : Except TransportError String)
include ints writer follows clean tried retried renames accepted

/-- A stream that the first gateway completes reaches the client of the second one chunk by chunk,
under the second one's provider name and with its times, with its `[DONE]`, from behind any number
of silent failures. -/
theorem cascade_transparent (completed : ending = .completed) (broken : Option TransportError)
    (connected : answers d.provider = .answered status header error
      (wireLines dumps (eventGen lib chatId₁ model₁ ending clock₁ used pairs).events) broken) :
    ∃ chunks datas datas', Written lib chunks datas ∧
      (eventGen lib chatId₁ model₁ ending clock₁ used pairs).events = datas.map .chunk ++ [.done] ∧
      Written lib (relayed d.provider clock chunks) datas' ∧
      streamResponse lib sch (env.overHttp lib answers) s payload chatId model clock =
        { events := datas'.map .chunk ++ [.done]
          usage := some (successEntry (if chunks = [] then "unknown" else d.provider) model) } := by
  obtain ⟨datas, last, split, ⟨-, rfl⟩ | ⟨failed, -⟩⟩ := follows
  · have each : ∀ data ∈ datas, .chunk data ∈
        (eventGen lib chatId₁ model₁ ending clock₁ used pairs).events := by
      intro data member
      rw [split]
      simp [member]
    obtain ⟨chunks, written⟩ := exists_written fun data member => eventGen_chunk (each data member)
    obtain ⟨datas', sent_on⟩ := exists_relayed renames written clock
    refine ⟨chunks, datas, datas', written, split, sent_on, ?_⟩
    have oneLine : ∀ data ∈ datas, OnOneLine data := fun data member =>
      clean (.chunk data) (each data member)
    have read : streamCompletion lib d.provider (answers d.provider) =
        (chunks.map (fun c => .obj c.modelDump), streamEnded d.provider) := by
      rw [connected, streamCompletion_accepted lib d.provider accepted, split,
        readLines_chunks written writer.braced (fun member => writer.reads (each _ member)) oneLine,
        readLines_wire_done, List.append_nil]
    rw [streamResponse_speaks tried retried read, List.map_map]
    have sent := eventGen_dumps ints sent_on chatId model "unknown" .completed []
    rw [List.append_nil] at sent
    exact sent
  · exact absurd completed failed

/-- A failure of the first gateway, which closes the connection behind it, reaches the client of the
second one as a chunk without choices and a `[DONE]`, and is counted there as a success. -/
theorem cascade_hides_errors (failed : ending ≠ .completed)
    (reads : ∀ p, .error p ∈ (eventGen lib chatId₁ model₁ ending clock₁ used pairs).events →
      Braced (dumps p) ∧ lib.loads (dumps p) = .ok p)
    (writable : ∀ now, (lib.dumpJson (emptyChunk chatId now model d.provider)).isSome)
    (connected : answers d.provider = .answered status header error
      (wireLines dumps (eventGen lib chatId₁ model₁ ending clock₁ used pairs).events) none) :
    ∃ chunks datas datas' p last, Written lib chunks datas ∧
      (eventGen lib chatId₁ model₁ ending clock₁ used pairs).events =
        datas.map .chunk ++ [.error p] ∧
      Written lib (relayed d.provider clock chunks) datas' ∧
      lib.dumpJson (emptyChunk chatId (clock chunks.length) model d.provider) = some last ∧
      streamResponse lib sch (env.overHttp lib answers) s payload chatId model clock =
        { events := (datas' ++ [last]).map .chunk ++ [.done]
          usage := some (successEntry d.provider model) } := by
  obtain ⟨datas, final, split, ⟨completed, -⟩ | ⟨-, p, rfl⟩⟩ := follows
  · exact absurd completed failed
  · have each : ∀ data ∈ datas, .chunk data ∈
        (eventGen lib chatId₁ model₁ ending clock₁ used pairs).events := by
      intro data member
      rw [split]
      simp [member]
    obtain ⟨chunks, written⟩ := exists_written fun data member => eventGen_chunk (each data member)
    obtain ⟨datas', sent_on⟩ := exists_relayed renames written clock
    obtain ⟨last, empty⟩ := Option.isSome_iff_exists.mp (writable (clock chunks.length))
    refine ⟨chunks, datas, datas', p, last, written, split, sent_on, empty, ?_⟩
    have here : .error p ∈ (eventGen lib chatId₁ model₁ ending clock₁ used pairs).events := by
      simp [split]
    have oneLine : ∀ data ∈ datas, OnOneLine data := fun data member =>
      clean (.chunk data) (each data member)
    have read : streamCompletion lib d.provider (answers d.provider) =
        (chunks.map (fun c => .obj c.modelDump) ++ [p], streamEnded d.provider) := by
      rw [connected, streamCompletion_accepted lib d.provider accepted, split,
        readLines_chunks written writer.braced (fun member => writer.reads (each _ member)) oneLine,
        readLines_wire_error (clean _ here) (reads p here).1 (reads p here).2]
    obtain ⟨body, rfl⟩ := eventGen_error here
    have relayed : chunkData lib (.obj [("error", body)]) chatId (clock chunks.length) model
        d.provider = .ok last := chunkData_written rfl empty
    rw [streamResponse_speaks tried retried read, List.map_append, List.map_map]
    have sent := eventGen_dumps ints sent_on chatId model "unknown" .completed
      [(.obj [("error", body)], d.provider)]
    simp only [eventGen, Nat.zero_add, relayed] at sent
    simpa [successEntry, Function.comp_def] using sent

end gateways

namespace Demo

/-- The parts of the dump before and behind the time. -/
def emptyHead : String :=
  "\"id\":\"chatcmpl-1\",\"object\":\"chat.completion.chunk\",\"created\":"

def emptyTail (provider : String) : String :=
  ",\"model\":\"m\",\"choices\":[],\"noxis_provider\":\"" ++ provider ++ "\"\x7d"

/-- The dump of a chunk without choices. -/
def emptyText (now : ℤ) (provider : String) : String :=
  "\x7b" ++ emptyHead ++ now.repr ++ emptyTail provider

/-- The text of an error is the same for every message here. -/
def errorText : String :=
  "\x7b\"error\": \x7b\"message\": \"upstream error\", \"type\": \"service_unavailable\", " ++
    "\"code\": \"NOXIS_STREAM_FAILED\"\x7d\x7d"

/-- A writer for the chunks without choices of two providers, and a reader for one of them. -/
def chunkLibraries : Libraries :=
  { strictInts with
    dumpJson := fun c =>
      if c.id = "chatcmpl-1" ∧ c.model = "m" ∧ c.choices.isEmpty = true ∧
        (c.noxisProvider = "z" ∨ c.noxisProvider = "b") then some (emptyText c.created c.noxisProvider)
      else none
    loads := fun text =>
      if text = emptyText 0 "z" then .ok (.obj (emptyChunk "chatcmpl-1" 0 "m" "z").modelDump)
      else if text = errorText then .ok (streamFailedDetail "upstream error")
      else .error .decode
    stamped := fun c t => by
      dsimp only
      split <;> rfl }

theorem dumpJson_eq_some {c : ChatCompletionChunk} {data : String}
    (written : chunkLibraries.dumpJson c = some data) :
    ∃ now provider, (provider = "z" ∨ provider = "b") ∧
      c = emptyChunk "chatcmpl-1" now "m" provider ∧ data = emptyText now provider := by
  obtain ⟨id, now, model, choices, provider⟩ := c
  simp only [chunkLibraries] at written
  split_ifs at written with known
  obtain ⟨rfl, rfl, none_chosen, known⟩ := known
  obtain rfl := List.isEmpty_iff.mp none_chosen
  exact ⟨now, provider, known, rfl, (Option.some.inj written).symm⟩

/-- The text tells the time and the provider. -/
theorem emptyText_inj {now : ℤ} {provider : String} (known : provider = "z" ∨ provider = "b")
    (same : emptyText now provider = emptyText 0 "z") : now = 0 ∧ provider = "z" := by
  have behind : now.repr ++ emptyTail provider = (0 : ℤ).repr ++ emptyTail "z" := by
    simp only [emptyText, String.append_assoc] at same
    exact (String.append_right_inj _).mp ((String.append_right_inj _).mp same)
  have chars := congrArg String.toList behind
  rw [String.toList_append, String.toList_append] at chars
  have length : (emptyTail provider).toList.length = (emptyTail "z").toList.length := by
    rcases known with rfl | rfl <;> decide +kernel
  obtain ⟨times, tails⟩ := List.append_inj' chars length
  refine ⟨Int.repr_injective (String.toList_injective times), ?_⟩
  rcases known with rfl | rfl
  · rfl
  · exact absurd tails (by decide +kernel)

theorem emptyText_braced (now : ℤ) {provider : String} (known : provider = "z" ∨ provider = "b") :
    Braced (emptyText now provider) := by
  have tail : ∃ inner, (emptyTail provider).toList = inner ++ ['}'] := by
    rcases known with rfl | rfl
    · exact ⟨(emptyTail "z").toList.dropLast, by decide +kernel⟩
    · exact ⟨(emptyTail "b").toList.dropLast, by decide +kernel⟩
  obtain ⟨inner, eq⟩ := tail
  refine ⟨emptyHead.toList ++ now.repr.toList ++ inner, ?_⟩
  have brace : "\x7b".toList = ['{'] := by decide
  simp only [emptyText, String.toList_append, brace, eq, List.nil_append, List.cons_append,
    List.append_assoc]

theorem renames (c : ChatCompletionChunk) (written : (chunkLibraries.dumpJson c).isSome) :
    (chunkLibraries.dumpJson { c with noxisProvider := "b" }).isSome := by
  obtain ⟨data, written⟩ := Option.isSome_iff_exists.mp written
  obtain ⟨now, provider, -, rfl, -⟩ := dumpJson_eq_some written
  rfl

/-- The decisions for a request are `a` and `b`. -/
theorem admitted : ∃ d d', numbered 0 ((scheduler.eligibleDecisions
      (gateway fun _ => config [] 10).app ((request "m").withModel "m")).1.take
        scheduler.maxRetries.toNat) = [(d, 1)] ++ (d', 2) :: [] ∧
      d.provider = "a" ∧ d'.provider = "b" := by
  have ranked : (scheduler.eligibleDecisions (gateway fun _ => config [] 10).app
      ((request "m").withModel "m")).1.map RoutingDecision.provider = ["a", "b"] := by decide +kernel
  obtain ⟨d, rest, eq, first, others⟩ := List.map_eq_cons_iff.mp ranked
  obtain ⟨d', rfl, second⟩ := List.map_eq_singleton_iff.mp others
  rw [eq]
  exact ⟨d, d', rfl, first, second⟩

/-- What the first gateway sends: one chunk of `z`, and how it ended. -/
def sentByFirst (ending : RunEnd) : List SseEvent :=
  (eventGen chunkLibraries "chatcmpl-1" "m" ending (fun _ => 0) "unknown" [(.obj [], "z")]).events

theorem sent_completed : sentByFirst .completed = [.chunk (emptyText 0 "z"), .done] := rfl

theorem sent_failed : sentByFirst (.providerError (apiError 502)) =
    [.chunk (emptyText 0 "z"), .error (streamFailedDetail "upstream error")] := rfl

theorem chunkWriter {last : SseEvent} (other : ∀ data, last ≠ .chunk data) :
    ChunkWriter chunkLibraries [.chunk (emptyText 0 "z"), last] where
  braced written := by
    obtain ⟨now, provider, known, -, rfl⟩ := dumpJson_eq_some written
    exact emptyText_braced now known
  reads member written := by
    obtain ⟨now, provider, known, rfl, rfl⟩ := dumpJson_eq_some written
    rcases List.mem_pair.mp member with same | same
    · obtain ⟨rfl, rfl⟩ := emptyText_inj known (SseEvent.chunk.inj same)
      simp [chunkLibraries]
    · exact absurd same.symm (other _)

/-- `a` cannot be reached, and `b` is the first gateway. -/
def onSecond (events : List SseEvent) : String → StreamAnswer := fun name =>
  if name = "b" then .answered 200 none (.ok "") (wireLines (fun _ => errorText) events) none
  else .refused (.connect "")

theorem onSecond_retried {d : RoutingDecision} (named : d.provider = "a")
    (events : List SseEvent) :
    ∀ q ∈ [(d, 1)], (onSecond events q.1.provider).Retried chunkLibraries q.2 := by
  intro q member
  obtain rfl := List.mem_singleton.mp member
  have refused : onSecond events d.provider = .refused (.connect "") := by simp [onSecond, named]
  rw [refused]
  exact ⟨by simp [StreamAnswer.Silent, TransportError.Unmapped], by simp [Overflows]⟩

theorem onSecond_connected {d : RoutingDecision} (named : d.provider = "b")
    (events : List SseEvent) :
    onSecond events d.provider =
      .answered 200 none (.ok "") (wireLines (fun _ => errorText) events) none := by
  simp [onSecond, named]

end Demo

theorem cascade_transparent_one_chunk :
    ∃ d : RoutingDecision, d.provider = "b" ∧
      ∃ chunks datas datas', Written Demo.chunkLibraries chunks datas ∧
        Demo.sentByFirst .completed = datas.map .chunk ++ [.done] ∧
        Written Demo.chunkLibraries (relayed d.provider (fun _ => 7) chunks) datas' ∧
        streamResponse Demo.chunkLibraries Demo.scheduler
            (Demo.surroundings.overHttp Demo.chunkLibraries
              (Demo.onSecond (Demo.sentByFirst .completed)))
            (Demo.gateway fun _ => Demo.config [] 10).app (Demo.request "m") "chatcmpl-1" "m"
            (fun _ => 7) =
          { events := datas'.map .chunk ++ [.done]
            usage := some (successEntry (if chunks = [] then "unknown" else d.provider) "m") } := by
  obtain ⟨d₁, d, tried, first, named⟩ := Demo.admitted
  have clean : ∀ e ∈ Demo.sentByFirst .completed, OnOneLine (e.payload fun _ => Demo.errorText) := by
    intro e member
    rw [Demo.sent_completed] at member
    rcases List.mem_pair.mp member with rfl | rfl
    · exact onOneLine_of_all (by decide +kernel)
    · exact onOneLine_of_all (by decide +kernel)
  exact ⟨d, named, cascade_transparent Demo.chunkLibraries Demo.strictInts_int
    (fun _ => Demo.errorText) "chatcmpl-1" "m" "unknown" .completed (fun _ => 0) [(.obj [], "z")]
    (Demo.chunkWriter (by simp)) ⟨[Demo.emptyText 0 "z"], .done, rfl, .inl ⟨rfl, rfl⟩⟩ clean
    Demo.scheduler Demo.surroundings (Demo.onSecond (Demo.sentByFirst .completed)) _
    (Demo.request "m") "chatcmpl-1" "m" (fun _ => 7) _ _ d 2 tried
    (Demo.onSecond_retried first _) (named ▸ Demo.renames) 200 (by decide) none (.ok "") rfl none
    (Demo.onSecond_connected named _)⟩

theorem cascade_hides_errors_one_chunk :
    ∃ d : RoutingDecision, d.provider = "b" ∧
      ∃ chunks datas datas' p last, Written Demo.chunkLibraries chunks datas ∧
        Demo.sentByFirst (.providerError (Demo.apiError 502)) = datas.map .chunk ++ [.error p] ∧
        Written Demo.chunkLibraries (relayed d.provider (fun _ => 7) chunks) datas' ∧
        Demo.chunkLibraries.dumpJson (emptyChunk "chatcmpl-1" 7 "m" d.provider) = some last ∧
        streamResponse Demo.chunkLibraries Demo.scheduler
            (Demo.surroundings.overHttp Demo.chunkLibraries
              (Demo.onSecond (Demo.sentByFirst (.providerError (Demo.apiError 502)))))
            (Demo.gateway fun _ => Demo.config [] 10).app (Demo.request "m") "chatcmpl-1" "m"
            (fun _ => 7) =
          { events := (datas' ++ [last]).map .chunk ++ [.done]
            usage := some (successEntry d.provider "m") } := by
  obtain ⟨d₁, d, tried, first, named⟩ := Demo.admitted
  have clean : ∀ e ∈ Demo.sentByFirst (.providerError (Demo.apiError 502)),
      OnOneLine (e.payload fun _ => Demo.errorText) := by
    intro e member
    rw [Demo.sent_failed] at member
    rcases List.mem_pair.mp member with rfl | rfl
    · exact onOneLine_of_all (by decide +kernel)
    · exact onOneLine_of_all (by decide +kernel)
  have reads : ∀ p, .error p ∈ Demo.sentByFirst (.providerError (Demo.apiError 502)) →
      Braced Demo.errorText ∧ Demo.chunkLibraries.loads Demo.errorText = .ok p := by
    intro p member
    rw [Demo.sent_failed] at member
    obtain rfl : p = streamFailedDetail "upstream error" := by simpa using member
    refine ⟨⟨Demo.errorText.toList.tail.dropLast, by decide +kernel⟩, ?_⟩
    have apart : Demo.errorText ≠ Demo.emptyText 0 "z" := by decide +kernel
    simp [Demo.chunkLibraries, apart]
  have writable : ∀ now, (Demo.chunkLibraries.dumpJson
      (emptyChunk "chatcmpl-1" now "m" d.provider)).isSome := by
    intro now
    rw [named]
    rfl
  exact ⟨d, named, cascade_hides_errors Demo.chunkLibraries Demo.strictInts_int
    (fun _ => Demo.errorText) "chatcmpl-1" "m" "unknown" (.providerError (Demo.apiError 502))
    (fun _ => 0) [(.obj [], "z")] (Demo.chunkWriter (by simp))
    ⟨[Demo.emptyText 0 "z"], .error (streamFailedDetail "upstream error"), rfl,
      .inr ⟨by simp, _, rfl⟩⟩ clean Demo.scheduler Demo.surroundings
    (Demo.onSecond (Demo.sentByFirst (.providerError (Demo.apiError 502)))) _ (Demo.request "m")
    "chatcmpl-1" "m" (fun _ => 7) _ _ d 2 tried (Demo.onSecond_retried first _)
    (named ▸ Demo.renames) 200 (by decide) none (.ok "") (by simp) reads writable
    (Demo.onSecond_connected named _)⟩

end Noxis
