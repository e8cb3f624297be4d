import Noxis.Accounting
import Noxis.Library.Tally

/-! The usage report. It sums up the newest rows of the table that finished chat requests have
written, whichever of several rows of one time the database takes for the newest. -/
namespace Noxis

/-- A row as it stands in the table, with the time of its insertion. -/
structure StoredUsage extends UsageRecord where
  timestamp : ℚ

/-- An entry of `recent_errors`. -/
structure RecentError where
  requestId : String
  provider : String
  errorCode : Option String
  timestamp : ℚ
  deriving DecidableEq

def StoredUsage.recentError (r : StoredUsage) : RecentError :=
  { requestId := r.requestId, provider := r.provider, errorCode := r.errorCode
    timestamp := r.timestamp }

/-- What `summary` returns. -/
structure UsageSummary where
  sampleSize : ℕ
  success : ℕ
  errors : ℕ
  successRate : Option ℚ
  byProvider : List (String × ℕ)
  byModel : List (String × ℕ)
  totalTokens : ℤ
  avgLatencyMs : ℚ
  recentErrors : List RecentError

/-- What the loop over the rows accumulates. -/
structure UsageTotals where
  byProvider : List (String × ℕ) := []
  byModel : List (String × ℕ) := []
  totalTokens : ℤ := 0
  latencyMs : ℚ := 0

def UsageTotals.add (t : UsageTotals) (r : StoredUsage) : UsageTotals :=
  { byProvider := Tally.bump t.byProvider r.provider
    byModel := Tally.bump t.byModel r.model
    totalTokens := t.totalTokens + r.totalTokens
    latencyMs := t.latencyMs + r.latencyMs }

/-- `summary`, from the rows that the query returned. -/
def summaryOf (rows : List StoredUsage) : UsageSummary :=
  let total := rows.length
  let success := rows.countP fun r => r.status = "success"
  let totals := rows.foldl UsageTotals.add {}
  { sampleSize := total
    success
    errors := total - success
    successRate := if total ≠ 0 then some (success / total) else none
    byProvider := totals.byProvider
    byModel := totals.byModel
    totalTokens := totals.totalTokens
    avgLatencyMs := if total ≠ 0 then totals.latencyMs / total else totals.latencyMs
    recentErrors := ((rows.filter fun r => r.status = "error").map StoredUsage.recentError).take 20 }

/-- Rows that `ORDER BY timestamp DESC LIMIT limit` may return. Rows of one time come in any order. -/
def Newest (limit : ℕ) (table rows : List StoredUsage) : Prop :=
  ∃ sorted : List StoredUsage, sorted.Perm table ∧
    sorted.Pairwise (fun a b => b.timestamp ≤ a.timestamp) ∧ rows = sorted.take limit

/-! ### The rows of finished requests -/

/-- A chat request whose run has ended, and the time at which its row is committed. -/
structure FinishedChat where
  lib : SyncLibraries
  cache : CacheClient
  call : ChatCall
  run : Drained
  committed : ℚ

namespace FinishedChat

def account (f : FinishedChat) : Account :=
  if f.call.payload.stream then accountOfStream f.lib f.call f.run
  else accountOfAnswer f.lib f.cache f.call f.run

/-- `record`, once for each row. -/
def rows (f : FinishedChat) : List StoredUsage :=
  f.account.records.map fun r => { r with timestamp := f.committed }

/-- A request whose run nothing interleaves with. -/
def alone (lib : SyncLibraries) (cache : CacheClient) (sch : Scheduler) (env : Upstreams)
    (s : AppState) (call : ChatCall) (committed : ℚ) : FinishedChat :=
  let path := if call.payload.stream then Path.executeStream else .execute
  { lib, cache, call, run := sch.drain env path s call.request, committed }

theorem alone_account (lib : SyncLibraries) (cache : CacheClient) (sch : Scheduler) (env : Upstreams)
    (s : AppState) (call : ChatCall) (committed : ℚ) :
    (alone lib cache sch env s call committed).account = chatAccount lib cache sch env s call := by
  unfold account alone chatAccount
  cases call.payload.stream <;> rfl

/-- The run has ended with an answer. -/
def answered (f : FinishedChat) : Bool :=
  match f.run.ending with
  | .returned _ _ | .completed => true
  | _ => false

/-- The run has ended without a provider to go to. -/
def exhausted (f : FinishedChat) : Bool :=
  match f.run.ending with
  | .unavailable _ => true
  | _ => false

end FinishedChat

/-- The usage table that requests leave, in the order in which their rows are committed. -/
def usageTable (chats : List FinishedChat) : List StoredUsage := chats.flatMap FinishedChat.rows

/-- A row says how the run of its request has ended. -/
structure UsageEntry.Tells (e : UsageEntry) (answered exhausted : Bool) : Prop where
  ended : (e.status = "success" ∧ answered = true ∧ e.errorCode = none) ∨
    (e.status = "error" ∧ exhausted = true ∧ e.errorCode = some "NOXIS_ALL_PROVIDERS_FAILED")

theorem UsageEntry.Tells.error_iff {e : UsageEntry} {answered exhausted : Bool}
    (tells : e.Tells answered exhausted) : e.status = "error" ↔ ¬ e.status = "success" := by
  rcases tells.ended with ⟨status, -⟩ | ⟨status, -⟩ <;> simp [status]

theorem eventGen_tells (lib : Libraries) (chatId model : String) (f : FinishedChat)
    (clock : ℕ → ℤ) (provider : String) (chunks : List (Json × String)) :
    ∀ e ∈ (eventGen lib chatId model f.run.ending clock provider chunks).usage,
      e.Tells f.answered f.exhausted := by
  induction chunks generalizing clock provider with
  | nil =>
      intro e written
      rw [FinishedChat.answered, FinishedChat.exhausted]
      cases ending : f.run.ending with
      | completed =>
          rw [ending, eventGen] at written
          obtain rfl := Option.some.inj written
          exact ⟨.inl ⟨rfl, rfl, rfl⟩⟩
      | unavailable message =>
          rw [ending, eventGen] at written
          obtain rfl := Option.some.inj written
          exact ⟨.inr ⟨rfl, rfl, rfl⟩⟩
      | _ => simp [ending, eventGen] at written
  | cons chunk rest ih =>
      obtain ⟨raw, name⟩ := chunk
      rw [eventGen]
      cases chunkData lib raw chatId (clock 0) model name with
      | ok data => exact ih _ name
      | error e =>
          intro e written
          cases written

theorem finishSync_tells (lib : SyncLibraries) (cache : CacheClient) (call : ChatCall)
    (result : ProviderResult) (provider : String) :
    (finishSync lib cache call result provider).records.length ≤ 1 ∧
      ∀ r ∈ (finishSync lib cache call result provider).records,
        r.status = "success" ∧ r.errorCode = none := by
  unfold finishSync
  split
  · simp
  · dsimp only
    split_ifs <;> simp

theorem syncResponse_tells (lib : SyncLibraries) (cache : CacheClient) (call : ChatCall)
    (f : FinishedChat) :
    (syncResponse lib cache call f.run.ending).records.length ≤ 1 ∧
      ∀ r ∈ (syncResponse lib cache call f.run.ending).records,
        r.toUsageEntry.Tells f.answered f.exhausted := by
  rw [FinishedChat.answered, FinishedChat.exhausted]
  unfold syncResponse
  rcases cache.lookup call with refused | found | cached
  · simp
  · cases ending : f.run.ending with
    | returned result provider =>
        obtain ⟨one, written⟩ := finishSync_tells lib cache call result provider
        refine ⟨one, fun r member => ⟨.inl ?_⟩⟩
        obtain ⟨status, code⟩ := written r member
        exact ⟨status, rfl, code⟩
    | unavailable message =>
        refine ⟨le_refl 1, fun r member => ⟨.inr ?_⟩⟩
        obtain rfl := List.mem_singleton.mp member
        exact ⟨rfl, rfl, rfl⟩
    | _ => simp [afterMiss]
  · dsimp only
    split <;> simp

namespace FinishedChat

/-- A request writes one row at most, and the row tells how its run has ended. -/
theorem records_tell (f : FinishedChat) :
    f.account.records.length ≤ 1 ∧
      ∀ r ∈ f.account.records, r.toUsageEntry.Tells f.answered f.exhausted := by
  unfold account
  split
  · have tells := eventGen_tells f.lib.toLibraries f.call.chatId f.call.model f f.call.clock
      "unknown" (yielded f.run.events)
    unfold accountOfStream
    dsimp only
    cases entry : (eventGen f.lib.toLibraries f.call.chatId f.call.model f.run.ending f.call.clock
        "unknown" (yielded f.run.events)).usage with
    | none => simp
    | some e =>
        refine ⟨le_refl 1, fun r member => ?_⟩
        obtain rfl := List.mem_singleton.mp member
        exact tells e entry
  · exact syncResponse_tells f.lib f.cache f.call f

theorem rows_length (f : FinishedChat) : f.rows.length ≤ 1 := by
  rw [rows, List.length_map]
  exact f.records_tell.1

theorem rows_tell (f : FinishedChat) :
    ∀ r ∈ f.rows, r.toUsageEntry.Tells f.answered f.exhausted := by
  intro r member
  obtain ⟨record, inside, rfl⟩ := List.mem_map.mp member
  exact f.records_tell.2 record inside

end FinishedChat

/-- Rows that pass a test are no more than the requests that pass it for their rows. -/
theorem countP_usageTable_le {p : StoredUsage → Bool} {q : FinishedChat → Bool}
    (implies : ∀ f, ∀ r ∈ f.rows, p r = true → q f = true) (chats : List FinishedChat) :
    (usageTable chats).countP p ≤ chats.countP q := by
  induction chats with
  | nil => exact Nat.zero_le _
  | cons f rest ih =>
      have split : (usageTable (f :: rest)).countP p =
          f.rows.countP p + (usageTable rest).countP p := by
        rw [usageTable, List.flatMap_cons, List.countP_append]
        rfl
      rw [split, List.countP_cons, Nat.add_comm]
      refine Nat.add_le_add ih ?_
      cases counts : q f with
      | true => exact (List.countP_le_length).trans f.rows_length
      | false =>
          rw [List.countP_eq_zero.mpr]
          · exact Nat.zero_le _
          · intro r member passes
            rw [implies f r member passes] at counts
            cases counts

/-! ### What the report says -/

section loop
variable (rows : List StoredUsage)

theorem totals_eq : rows.foldl UsageTotals.add {} =
    { byProvider := Tally.tally (rows.map fun r => r.provider)
      byModel := Tally.tally (rows.map fun r => r.model)
      totalTokens := (rows.map fun r => r.totalTokens).sum
      latencyMs := (rows.map fun r => r.latencyMs).sum } := by
  induction rows using List.reverseRecOn with
  | nil => rfl
  | append_singleton rows r ih =>
      rw [List.foldl_append, ih]
      simp [UsageTotals.add, Tally.tally]

end loop

/-- A report that says of rows what is so. -/
structure UsageSummary.Describes (report : UsageSummary) (rows : List StoredUsage) : Prop where
  size : report.sampleSize = rows.length
  success : report.success = rows.countP fun r => r.status = "success"
  errors : report.errors = rows.countP fun r => r.status = "error"
  rate : report.successRate.elim (rows = []) fun rate =>
    0 ≤ rate ∧ rate ≤ 1 ∧ rate * rows.length = rows.countP fun r => r.status = "success"
  byProvider : ∀ name, Tally.count report.byProvider name = rows.countP fun r => r.provider = name
  byModel : ∀ name, Tally.count report.byModel name = rows.countP fun r => r.model = name
  shares : (report.byProvider.map Prod.snd).sum = rows.length ∧
    (report.byModel.map Prod.snd).sum = rows.length
  tokens : report.totalTokens = (rows.map fun r => r.totalTokens).sum
  latency : report.avgLatencyMs * rows.length = (rows.map fun r => r.latencyMs).sum

/-- Rows of two kinds only are described by their report. -/
theorem summaryOf_describes {rows : List StoredUsage}
    (kinds : ∀ r ∈ rows, r.status = "error" ↔ ¬ r.status = "success") :
    (summaryOf rows).Describes rows := by
  have totals := totals_eq rows
  have parts : rows.length = rows.countP (fun r => r.status = "success") +
      rows.countP fun r => r.status = "error" := by
    rw [List.length_eq_countP_add_countP fun r : StoredUsage => decide (r.status = "success")]
    refine congrArg _ (List.countP_congr fun r member => ?_)
    simpa using (kinds r member).symm
  refine ⟨rfl, rfl, ?_, ?_, fun name => ?_, fun name => ?_, ⟨?_, ?_⟩, ?_, ?_⟩
  · simp only [summaryOf]
    omega
  · cases rows with
    | nil => rfl
    | cons r rest =>
        have bound : (r :: rest).countP (fun r => r.status = "success") ≤ (r :: rest).length :=
          List.countP_le_length
        have positive : (0 : ℚ) < ((r :: rest).length : ℚ) := by
          exact_mod_cast Nat.succ_pos rest.length
        have some_rate : (summaryOf (r :: rest)).successRate =
            some (((r :: rest).countP (fun r => r.status = "success") : ℕ) /
              ((r :: rest).length : ℚ)) := by
          simp [summaryOf]
        rw [some_rate, Option.elim_some]
        refine ⟨by positivity, ?_, div_mul_cancel₀ _ positive.ne'⟩
        rw [div_le_one positive]
        exact_mod_cast bound
  · simp only [summaryOf, totals]
    exact Tally.count_tally_map _ rows name
  · simp only [summaryOf, totals]
    exact Tally.count_tally_map _ rows name
  · simp only [summaryOf, totals]
    rw [Tally.sum_tally, List.length_map]
  · simp only [summaryOf, totals]
    rw [Tally.sum_tally, List.length_map]
  · simp only [summaryOf, totals]
  · simp only [summaryOf, totals]
    cases rows with
    | nil => simp
    | cons r rest =>
        have some_rows : ((r :: rest).length : ℚ) ≠ 0 := by
          exact_mod_cast Nat.succ_ne_zero rest.length
        rw [if_pos (by simp)]
        exact div_mul_cancel₀ _ some_rows

/-- A description does not depend on the order of the rows. -/
theorem UsageSummary.Describes.perm {report : UsageSummary} {rows table : List StoredUsage}
    (describes : report.Describes rows) (perm : rows.Perm table) : report.Describes table := by
  have count := fun p : StoredUsage → Bool => perm.countP_eq p
  have known := describes.rate
  refine ⟨?_, ?_, ?_, ?_, fun name => ?_, fun name => ?_, ?_, ?_, ?_⟩
  · rw [← perm.length_eq]
    exact describes.size
  · rw [← count]
    exact describes.success
  · rw [← count]
    exact describes.errors
  · cases sampled : report.successRate with
    | none =>
        rw [sampled] at known
        obtain rfl : rows = [] := known
        exact perm.nil_eq.symm
    | some rate =>
        rw [sampled] at known
        simpa only [Option.elim_some, ← count, ← perm.length_eq] using known
  · rw [← count]
    exact describes.byProvider name
  · rw [← count]
    exact describes.byModel name
  · rw [← perm.length_eq]
    exact describes.shares
  · rw [← (perm.map _).sum_eq]
    exact describes.tokens
  · rw [← perm.length_eq, ← (perm.map _).sum_eq]
    exact describes.latency

/-- The errors that are listed are the newest ones of the table. -/
structure UsageSummary.Recent (report : UsageSummary) (table : List StoredUsage) : Prop where
  few : report.recentErrors.length ≤ 20
  listed : ∀ e ∈ report.recentErrors, e.errorCode = some "NOXIS_ALL_PROVIDERS_FAILED" ∧
    ∃ r ∈ table, r.status = "error" ∧ e = r.recentError
  newest : ∀ r ∈ table, r.status = "error" → r.recentError ∉ report.recentErrors →
    ∀ e ∈ report.recentErrors, r.timestamp ≤ e.timestamp

theorem mem_take_or_drop {α : Type} {l : List α} (n : ℕ) {a : α} (member : a ∈ l) :
    a ∈ l.take n ∨ a ∈ l.drop n := by
  rwa [← List.take_append_drop n l, List.mem_append] at member

section table
variable {chats : List FinishedChat} {limit : ℕ} {rows : List StoredUsage}

theorem usageTable_tells {r : StoredUsage} (member : r ∈ usageTable chats) :
    ∃ f ∈ chats, r.toUsageEntry.Tells f.answered f.exhausted := by
  obtain ⟨f, asked, inside⟩ := List.mem_flatMap.mp member
  exact ⟨f, asked, f.rows_tell r inside⟩

theorem Newest.older {table : List StoredUsage} (newest : Newest limit table rows)
    {r r' : StoredUsage} (member : r ∈ table) (left_out : r ∉ rows) (kept : r' ∈ rows) :
    r.timestamp ≤ r'.timestamp := by
  obtain ⟨sorted, perm, descending, rfl⟩ := newest
  have late := (mem_take_or_drop limit (perm.mem_iff.mpr member)).resolve_left left_out
  exact descending.rel_of_mem_take_of_mem_drop kept late

theorem Newest.recent (newest : Newest limit (usageTable chats) rows) :
    (summaryOf rows).Recent (usageTable chats) := by
  have older := fun r member left_out r' kept =>
    @Newest.older limit rows _ newest r r' member left_out kept
  obtain ⟨sorted, perm, descending, rfl⟩ := newest
  have stored : ∀ r ∈ sorted.take limit, r ∈ usageTable chats :=
    fun r member => perm.mem_iff.mp (List.mem_of_mem_take member)
  have errors : ((sorted.take limit).filter fun r => r.status = "error").Pairwise
      fun a b => b.timestamp ≤ a.timestamp := (descending.take).filter _
  have shown : (summaryOf (sorted.take limit)).recentErrors =
      (((sorted.take limit).filter fun r => r.status = "error").take 20).map
        StoredUsage.recentError := by
    rw [summaryOf, List.map_take]
  refine ⟨?_, ?_, ?_⟩
  · rw [shown, List.length_map]
    exact List.length_take_le 20 _
  · intro e listed
    rw [shown] at listed
    obtain ⟨r, inside, rfl⟩ := List.mem_map.mp listed
    obtain ⟨kept, status⟩ := List.mem_filter.mp (List.mem_of_mem_take inside)
    have status := of_decide_eq_true status
    obtain ⟨f, -, tells⟩ := usageTable_tells (stored r kept)
    refine ⟨?_, r, stored r kept, status, rfl⟩
    rcases tells.ended with ⟨success, -⟩ | ⟨-, -, code⟩
    · exact absurd success (tells.error_iff.mp status)
    · exact code
  · intro r member status unlisted e listed
    rw [shown] at unlisted listed
    obtain ⟨r', inside, rfl⟩ := List.mem_map.mp listed
    obtain ⟨kept, -⟩ := List.mem_filter.mp (List.mem_of_mem_take inside)
    by_cases chosen : r ∈ sorted.take limit
    · have error : r ∈ (sorted.take limit).filter fun r => r.status = "error" :=
        List.mem_filter.mpr ⟨chosen, decide_eq_true status⟩
      rcases mem_take_or_drop 20 error with early | late
      · exact absurd (List.mem_map.mpr ⟨r, early, rfl⟩) unlisted
      · exact errors.rel_of_mem_take_of_mem_drop inside late
    · exact older r member chosen r' kept

end table

/-- The report on any finished requests: it describes the newest rows up to the limit, and all rows
where the limit does not cut any off, however rows of one time are ordered; it counts no more
successes and errors than runs that ended with an answer and without a provider; and it lists the
newest errors. -/
theorem usage_report (chats : List FinishedChat) (limit : ℕ) (rows : List StoredUsage)
    (newest : Newest limit (usageTable chats) rows) :
    rows.length = min limit (usageTable chats).length ∧
      (∀ r ∈ usageTable chats, r ∉ rows → ∀ r' ∈ rows, r.timestamp ≤ r'.timestamp) ∧
      (summaryOf rows).Describes rows ∧
      ((usageTable chats).length ≤ limit → (summaryOf rows).Describes (usageTable chats)) ∧
      (summaryOf rows).success ≤ chats.countP FinishedChat.answered ∧
      (summaryOf rows).errors ≤ chats.countP FinishedChat.exhausted ∧
      (summaryOf rows).Recent (usageTable chats) := by
  have older := fun r member left_out r' kept =>
    @Newest.older limit rows _ newest r r' member left_out kept
  have recent := newest.recent
  obtain ⟨sorted, perm, descending, rfl⟩ := newest
  have stored : ∀ r ∈ sorted.take limit, r ∈ usageTable chats :=
    fun r member => perm.mem_iff.mp (List.mem_of_mem_take member)
  have describes : (summaryOf (sorted.take limit)).Describes (sorted.take limit) := by
    apply summaryOf_describes
    intro r member
    obtain ⟨f, -, tells⟩ := usageTable_tells (stored r member)
    exact tells.error_iff
  have counted : ∀ p, (sorted.take limit).countP p ≤ (usageTable chats).countP p :=
    fun p => (List.take_sublist limit sorted).countP_le.trans_eq (perm.countP_eq p)
  refine ⟨?_, older, describes, fun fits => ?_, ?_, ?_, recent⟩
  · rw [List.length_take, perm.length_eq]
  · have all : sorted.take limit = sorted := List.take_of_length_le (perm.length_eq.trans_le fits)
    rw [all] at describes ⊢
    exact describes.perm perm
  · rw [describes.success]
    refine (counted _).trans (countP_usageTable_le (fun f r inside passes => ?_) chats)
    have status := of_decide_eq_true passes
    rcases (f.rows_tell r inside).ended with ⟨-, answered, -⟩ | ⟨failed, -⟩
    · exact answered
    · rw [failed] at status
      exact absurd status (by decide)
  · rw [describes.errors]
    refine (counted _).trans (countP_usageTable_le (fun f r inside passes => ?_) chats)
    have status := of_decide_eq_true passes
    rcases (f.rows_tell r inside).ended with ⟨succeeded, -⟩ | ⟨-, exhausted, -⟩
    · rw [succeeded] at status
      exact absurd status (by decide)
    · exact exhausted

namespace Demo

/-- A stream that was answered, and a later request for which no provider was left. -/
def reportedChats : List FinishedChat :=
  let app := (gateway fun _ => config [] 10).app
  [.alone syncLibraries (cacheClient false) scheduler twoChunks app (chatCall true) 1000,
    { lib := syncLibraries, cache := cacheClient false, call := chatCall false, committed := 1001
      run := { app, ending := .unavailable "No providers are currently available." } }]

end Demo

theorem usage_report_one_row :
    ∃ rows, Newest 1 (usageTable Demo.reportedChats) rows ∧
      rows.length = min 1 (usageTable Demo.reportedChats).length ∧
      (∀ r ∈ usageTable Demo.reportedChats, r ∉ rows → ∀ r' ∈ rows, r.timestamp ≤ r'.timestamp) ∧
      (summaryOf rows).Describes rows ∧
      ((usageTable Demo.reportedChats).length ≤ 1 →
        (summaryOf rows).Describes (usageTable Demo.reportedChats)) ∧
      (summaryOf rows).success ≤ Demo.reportedChats.countP FinishedChat.answered ∧
      (summaryOf rows).errors ≤ Demo.reportedChats.countP FinishedChat.exhausted ∧
      (summaryOf rows).Recent (usageTable Demo.reportedChats) := by
  have descending : (usageTable Demo.reportedChats).reverse.Pairwise
      (fun a b => b.timestamp ≤ a.timestamp) := by decide +kernel
  have newest : Newest 1 (usageTable Demo.reportedChats)
      ((usageTable Demo.reportedChats).reverse.take 1) :=
    ⟨_, List.reverse_perm _, descending, rfl⟩
  exact ⟨_, newest, usage_report Demo.reportedChats 1 _ newest⟩

end Noxis
