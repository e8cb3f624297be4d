import Noxis.RateLimiter
import Noxis.Library.SlidingWindow

/-! The sliding windows are exact. Each call takes its own readings of the clock, and a window
answers as a log that forgets nothing and that no read changes. -/
namespace Noxis
open SlidingWindow

/-- The calls on one window, with their readings in order. A reading that a call does not come
to can be any between its neighbours. -/
inductive WindowCall where
  | recordRequest (now : ℚ)
  | record429 (now : ℚ) (retryAfter : Option PyFloat)
  | recordFailure
  | acquire (now : ℚ)
  | release
  | requestsLastMinute (now : ℚ)
  | requestsLastDay (now : ℚ)
  | canServe (limited minute day : ℚ) (rpmLimit rpdLimit : Option ℤ) (maxConcurrency : ℤ)
  | snapshot (minute day limited remaining : ℚ)

inductive WindowAnswer where
  | done
  | count (n : ℕ)
  | servable (b : Bool)
  | usage (snap : UsageSnapshot)

namespace WindowCall

def readings : WindowCall → List ℚ
  | .recordRequest now => [now]
  | .record429 now _ => [now]
  | .recordFailure => []
  | .acquire now => [now]
  | .release => []
  | .requestsLastMinute now => [now]
  | .requestsLastDay now => [now]
  | .canServe limited minute day _ _ _ => [limited, minute, day]
  | .snapshot minute day limited remaining => [minute, day, limited, remaining]

def Nondecreasing (cs : List WindowCall) : Prop := (cs.flatMap readings).Pairwise (· ≤ ·)

def isRead : WindowCall → Bool
  | .requestsLastMinute _ => true
  | .requestsLastDay _ => true
  | .canServe .. => true
  | .snapshot .. => true
  | _ => false

def writes (cs : List WindowCall) : List WindowCall := cs.filter (fun c => !c.isRead)

/-- The reads as one case. -/
@[elab_as_elim]
theorem cases_read {motive : WindowCall → Prop} (c : WindowCall)
    (read : ∀ c, c.isRead = true → motive c) (recordRequest : ∀ now, motive (.recordRequest now))
    (record429 : ∀ now retryAfter, motive (.record429 now retryAfter))
    (recordFailure : motive .recordFailure) (acquire : ∀ now, motive (.acquire now))
    (release : motive .release) : motive c := by
  cases c with
  | recordRequest now => exact recordRequest now
  | record429 now retryAfter => exact record429 now retryAfter
  | recordFailure => exact recordFailure
  | acquire now => exact acquire now
  | release => exact release
  | requestsLastMinute now => exact read _ rfl
  | requestsLastDay now => exact read _ rfl
  | canServe limited minute day rpmLimit rpdLimit maxConcurrency => exact read _ rfl
  | snapshot minute day limited remaining => exact read _ rfl

/-- When the call runs `record_request`. -/
def requestTime? : WindowCall → Option ℚ
  | .recordRequest now => some now
  | .acquire now => some now
  | _ => none

def requestTimes (cs : List WindowCall) : List ℚ := cs.filterMap requestTime?

end WindowCall

namespace ProviderUsageWindow

/-- `limit is not None and count() >= limit`; a missing limit reads nothing. -/
def limitReached (w : ProviderUsageWindow) (count : ProviderUsageWindow → ℚ → ℕ) (now : ℚ)
    (limit : Option ℤ) : Bool × ProviderUsageWindow :=
  match limit with
  | none => (false, w)
  | some n => (decide ((count w now : ℤ) ≥ n), w.trim now)

/-- `can_serve` on the window. -/
def canServe (w : ProviderUsageWindow) (limited minute day : ℚ) (rpmLimit rpdLimit : Option ℤ)
    (maxConcurrency : ℤ) : Bool × ProviderUsageWindow :=
  if w.isRateLimited limited then (false, w)
  else if (w.concurrent : ℤ) ≥ maxConcurrency then (false, w)
  else
    let (full, w) := w.limitReached requestsLastMinute minute rpmLimit
    if full then (false, w)
    else
      let (full, w) := w.limitReached requestsLastDay day rpdLimit
      (!full, w)

/-- `snapshot` of the window. -/
def snapshot (w : ProviderUsageWindow) (minute day limited remaining : ℚ) :
    UsageSnapshot × ProviderUsageWindow :=
  let requestsLastMinute := w.requestsLastMinute minute
  let w := w.trim minute
  let requestsLastDay := w.requestsLastDay day
  let w := w.trim day
  ({ requestsLastMinute
     requestsLastDay
     concurrent := w.concurrent
     totalRequests := w.totalRequests
     totalFailures := w.totalFailures
     total429s := w.total429s
     rateLimited := w.isRateLimited limited
     secondsUntilAvailable := w.secondsUntilAvailable remaining }, w)

def call (w : ProviderUsageWindow) : WindowCall → WindowAnswer × ProviderUsageWindow
  | .recordRequest now => (.done, w.recordRequest now)
  | .record429 now retryAfter => (.done, w.record429 now retryAfter)
  | .recordFailure => (.done, w.recordFailure)
  | .acquire now => (.done, { w with concurrent := w.concurrent + 1 }.recordRequest now)
  | .release => (.done, { w with concurrent := w.concurrent - 1 })
  | .requestsLastMinute now => (.count (w.requestsLastMinute now), w.trim now)
  | .requestsLastDay now => (.count (w.requestsLastDay now), w.trim now)
  | .canServe limited minute day rpmLimit rpdLimit maxConcurrency =>
      let (servable, w) := w.canServe limited minute day rpmLimit rpdLimit maxConcurrency
      (.servable servable, w)
  | .snapshot minute day limited remaining =>
      let (usage, w) := w.snapshot minute day limited remaining
      (.usage usage, w)

def stateAfter (cs : List WindowCall) : ProviderUsageWindow :=
  cs.foldl (fun w c => (w.call c).2) {}

/-- What the call answers after the calls before it. -/
def answer (past : List WindowCall) (c : WindowCall) : WindowAnswer := ((stateAfter past).call c).1

@[simp] theorem stateAfter_concat (past : List WindowCall) (c : WindowCall) :
    stateAfter (past ++ [c]) = ((stateAfter past).call c).2 := by
  simp only [stateAfter, List.foldl_append, List.foldl_cons, List.foldl_nil]

end ProviderUsageWindow

/-! ### A log that forgets nothing -/

/-- Every request with its time, in place of the two trimmed windows. -/
structure UsageLog where
  requests : List ℚ := []
  concurrent : ℕ := 0
  failures : ℕ := 0
  rejections : ℕ := 0
  rateLimitedUntil : WithTop ℚ := 0

namespace UsageLog
variable (log : UsageLog)

def requestsLastMinute (now : ℚ) : ℕ := recent 60 now log.requests
def requestsLastDay (now : ℚ) : ℕ := recent 86400 now log.requests

def record : WindowCall → UsageLog
  | .recordRequest now => { log with requests := log.requests ++ [now] }
  | .record429 now retryAfter =>
      { log with
        rejections := log.rejections + 1
        rateLimitedUntil := max log.rateLimitedUntil
          (now + ProviderUsageWindow.cooldown429 retryAfter) }
  | .recordFailure => { log with failures := log.failures + 1 }
  | .acquire now =>
      { log with concurrent := log.concurrent + 1, requests := log.requests ++ [now] }
  | .release => { log with concurrent := log.concurrent - 1 }
  | _ => log

def servable (limited minute day : ℚ) (rpmLimit rpdLimit : Option ℤ) (maxConcurrency : ℤ) : Bool :=
  decide (log.rateLimitedUntil ≤ limited) && decide ((log.concurrent : ℤ) < maxConcurrency) &&
    rpmLimit.all (fun rpm => decide ((log.requestsLastMinute minute : ℤ) < rpm)) &&
    rpdLimit.all (fun rpd => decide ((log.requestsLastDay day : ℤ) < rpd))

def answer : WindowCall → WindowAnswer
  | .requestsLastMinute now => .count (log.requestsLastMinute now)
  | .requestsLastDay now => .count (log.requestsLastDay now)
  | .canServe limited minute day rpmLimit rpdLimit maxConcurrency =>
      .servable (log.servable limited minute day rpmLimit rpdLimit maxConcurrency)
  | .snapshot minute day limited remaining =>
      .usage
        { requestsLastMinute := log.requestsLastMinute minute
          requestsLastDay := log.requestsLastDay day
          concurrent := log.concurrent
          totalRequests := log.requests.length
          totalFailures := log.failures
          total429s := log.rejections
          rateLimited := decide ((limited : WithTop ℚ) < log.rateLimitedUntil)
          secondsUntilAvailable := log.rateLimitedUntil.map (fun u => max 0 (u - remaining)) }
  | _ => .done

def after (cs : List WindowCall) : UsageLog := cs.foldl record {}

@[simp] theorem after_concat (past : List WindowCall) (c : WindowCall) :
    after (past ++ [c]) = (after past).record c := by
  simp only [after, List.foldl_append, List.foldl_cons, List.foldl_nil]

theorem record_read {c : WindowCall} (read : c.isRead = true) : log.record c = log := by
  cases c <;> first | rfl | simp [WindowCall.isRead] at read

theorem record_requests (c : WindowCall) :
    (log.record c).requests = log.requests ++ c.requestTime?.toList := by
  cases c <;> simp [record, WindowCall.requestTime?]

theorem requests_after (cs : List WindowCall) :
    (after cs).requests = WindowCall.requestTimes cs := by
  induction cs using List.reverseRecOn with
  | nil => rfl
  | append_singleton past c ih =>
      rw [after_concat, record_requests, ih]
      cases time : c.requestTime? <;> simp [WindowCall.requestTimes, time]

/-- The log has no trace of the reads. -/
theorem after_writes (cs : List WindowCall) : after (WindowCall.writes cs) = after cs := by
  induction cs using List.reverseRecOn with
  | nil => rfl
  | append_singleton past c ih =>
      rw [WindowCall.writes, List.filter_append, after_concat]
      cases read : c.isRead with
      | true =>
          rw [record_read _ read, List.filter_cons_of_neg (by simp [read]), List.filter_nil,
            List.append_nil]
          exact ih
      | false =>
          rw [List.filter_cons_of_pos (by simp [read]), List.filter_nil, after_concat]
          exact congrArg (record · c) ih

end UsageLog

/-! ### The window against the log -/

namespace ProviderUsageWindow

/-- The window holds what the log holds, but for hits that have expired by `now`. -/
structure Reflects (now : ℚ) (w : ProviderUsageWindow) (log : UsageLog) : Prop where
  minute : Keeps 60 now log.requests w.minuteHits
  day : Keeps 86400 now log.requests w.dayHits
  sorted : log.requests.Pairwise (· ≤ ·)
  past : ∀ t ∈ log.requests, t ≤ now
  concurrent : w.concurrent = log.concurrent
  total : w.totalRequests = log.requests.length
  failures : w.totalFailures = log.failures
  rejections : w.total429s = log.rejections
  rateLimitedUntil : w.rateLimitedUntil = log.rateLimitedUntil

namespace Reflects
variable {now : ℚ} {w : ProviderUsageWindow} {log : UsageLog}

theorem fresh (now : ℚ) : Reflects now {} {} where
  minute := Keeps.refl 60 now []
  day := Keeps.refl 86400 now []
  sorted := List.Pairwise.nil
  past := by simp
  concurrent := rfl
  total := rfl
  failures := rfl
  rejections := rfl
  rateLimitedUntil := rfl

theorem later (h : Reflects now w log) {now' : ℚ} (le : now ≤ now') : Reflects now' w log :=
  { h with
    minute := h.minute.later le
    day := h.day.later le
    past := fun t member => (h.past t member).trans le }

theorem trim (h : Reflects now w log) : Reflects now (w.trim now) log :=
  { h with minute := h.minute.trim, day := h.day.trim }

theorem recordRequest (h : Reflects now w log) :
    Reflects now (w.recordRequest now) { log with requests := log.requests ++ [now] } where
  minute := (h.minute.push now).trim
  day := (h.day.push now).trim
  sorted := by
    rw [List.pairwise_append]
    refine ⟨h.sorted, List.pairwise_singleton _ _, ?_⟩
    intro t member u new
    rw [List.mem_singleton.mp new]
    exact h.past t member
  past := by
    intro t member
    rcases List.mem_append.mp member with old | new
    · exact h.past t old
    · exact (List.mem_singleton.mp new).le
  concurrent := h.concurrent
  total := by
    rw [List.length_append, ← h.total]
    rfl
  failures := h.failures
  rejections := h.rejections
  rateLimitedUntil := h.rateLimitedUntil

theorem withConcurrent (h : Reflects now w log) (f : ℕ → ℕ) :
    Reflects now { w with concurrent := f w.concurrent }
      { log with concurrent := f log.concurrent } :=
  { h with concurrent := congrArg f h.concurrent }

theorem recordFailure (h : Reflects now w log) :
    Reflects now w.recordFailure { log with failures := log.failures + 1 } :=
  { h with failures := congrArg (· + 1) h.failures }

theorem record429 (h : Reflects now w log) (t : ℚ) (retryAfter : Option PyFloat) :
    Reflects now (w.record429 t retryAfter) (log.record (.record429 t retryAfter)) :=
  { h with
    rejections := congrArg (· + 1) h.rejections
    rateLimitedUntil := congrArg (max · _) h.rateLimitedUntil }

theorem lastMinute (h : Reflects now w log) :
    w.requestsLastMinute now = log.requestsLastMinute now := h.minute.trim_length h.sorted

theorem lastDay (h : Reflects now w log) : w.requestsLastDay now = log.requestsLastDay now :=
  h.day.trim_length h.sorted

theorem isRateLimited (h : Reflects now w log) (t : ℚ) :
    w.isRateLimited t = decide ((t : WithTop ℚ) < log.rateLimitedUntil) := by
  rw [ProviderUsageWindow.isRateLimited, h.rateLimitedUntil]

/-- A limit is reached in the window when it is in the log. -/
theorem limitReached {count : ProviderUsageWindow → ℚ → ℕ} {n : ℕ} (exact_count : count w now = n)
    (limit : Option ℤ) :
    (w.limitReached count now limit).1 = !limit.all (fun bound => decide ((n : ℤ) < bound)) := by
  cases limit with
  | none => rfl
  | some bound => simp [ProviderUsageWindow.limitReached, exact_count, ← decide_not]

end Reflects

/-- The window reflects the log at every reading that none of the earlier ones exceeds. -/
def Follows (before : List ℚ) (w : ProviderUsageWindow) (log : UsageLog) : Prop :=
  ∀ now, (∀ t ∈ before, t ≤ now) → Reflects now w log

namespace Follows
variable {before : List ℚ} {w : ProviderUsageWindow} {log : UsageLog}

theorem subset (h : Follows before w log) {before' : List ℚ} (sub : before ⊆ before') :
    Follows before' w log :=
  fun now later => h now fun t member => later t (sub member)

theorem trim (h : Follows before w log) {t : ℚ} (le : ∀ u ∈ before, u ≤ t) :
    Follows (before ++ [t]) (w.trim t) log := by
  intro now later
  exact (h t le).trim.later (later t (by simp))

theorem trims (h : Follows before w log) {ts : List ℚ} (sorted : (before ++ ts).Pairwise (· ≤ ·)) :
    Follows (before ++ ts) (ts.foldl ProviderUsageWindow.trim w) log := by
  induction ts generalizing before w with
  | nil => simpa using h
  | cons t ts ih =>
      have le : ∀ u ∈ before, u ≤ t := by
        intro u member
        exact (List.pairwise_append.mp sorted).2.2 u member t List.mem_cons_self
      have rest := ih (h.trim le) (by simpa using sorted)
      simpa using rest

theorem reads (h : Follows before w log) {ts : List ℚ} {t : ℚ}
    (sorted : (before ++ ts ++ [t]).Pairwise (· ≤ ·)) :
    Reflects t (ts.foldl ProviderUsageWindow.trim w) log := by
  obtain ⟨inOrder, -, le⟩ := List.pairwise_append.mp sorted
  exact h.trims inOrder t fun u old => le u old t List.mem_cons_self

end Follows

theorem limitReached_trims (w : ProviderUsageWindow) (count : ProviderUsageWindow → ℚ → ℕ)
    (now : ℚ) (limit : Option ℤ) :
    ∃ ts : List ℚ, ts.Sublist [now] ∧ (w.limitReached count now limit).2 = ts.foldl trim w := by
  cases limit with
  | none => exact ⟨[], List.nil_sublist _, rfl⟩
  | some n => exact ⟨[now], List.Sublist.refl _, rfl⟩

theorem canServe_trims (w : ProviderUsageWindow) (limited minute day : ℚ)
    (rpmLimit rpdLimit : Option ℤ) (maxConcurrency : ℤ) :
    ∃ ts : List ℚ, ts.Sublist [minute, day] ∧
      (w.canServe limited minute day rpmLimit rpdLimit maxConcurrency).2 = ts.foldl trim w := by
  obtain ⟨ts, sub, first⟩ := w.limitReached_trims requestsLastMinute minute rpmLimit
  obtain ⟨us, subDay, second⟩ :=
    (w.limitReached requestsLastMinute minute rpmLimit).2.limitReached_trims requestsLastDay day
      rpdLimit
  unfold canServe
  dsimp only
  split_ifs
  · exact ⟨[], List.nil_sublist _, rfl⟩
  · exact ⟨[], List.nil_sublist _, rfl⟩
  · exact ⟨ts, sub.trans (by simp), first⟩
  · refine ⟨ts ++ us, sub.append subDay, ?_⟩
    rw [List.foldl_append, ← first]
    exact second

/-- The counts are compared with the limits as the log has them, each at its own reading. -/
theorem Follows.canServe {before : List ℚ} {w : ProviderUsageWindow} {log : UsageLog}
    (h : Follows before w log) {limited minute day : ℚ}
    (sorted : (before ++ [limited, minute, day]).Pairwise (· ≤ ·)) (rpmLimit rpdLimit : Option ℤ)
    (maxConcurrency : ℤ) :
    (w.canServe limited minute day rpmLimit rpdLimit maxConcurrency).1 =
      log.servable limited minute day rpmLimit rpdLimit maxConcurrency := by
  have atMinute : Reflects minute w log := by
    apply h
    intro u old
    exact (List.pairwise_append.mp sorted).2.2 u old minute (by simp)
  have atDay : Reflects day (w.limitReached requestsLastMinute minute rpmLimit).2 log := by
    obtain ⟨ts, sub, trims⟩ := w.limitReached_trims requestsLastMinute minute rpmLimit
    have chosen : (ts ++ [day]).Sublist [limited, minute, day] :=
      (sub.append (List.Sublist.refl [day])).trans (List.sublist_cons_self _ _)
    rw [trims]
    apply h.reads
    rw [List.append_assoc]
    exact sorted.sublist (chosen.append_left before)
  unfold ProviderUsageWindow.canServe UsageLog.servable
  simp only [atMinute.isRateLimited, atMinute.concurrent,
    Reflects.limitReached atMinute.lastMinute, Reflects.limitReached atDay.lastDay]
  split_ifs with paused full reached
  · simp [not_le.mpr (of_decide_eq_true paused)]
  · simp [not_lt.mpr full]
  · simp_all
  · simp_all

/-- A read does nothing but trim, at some of its readings. -/
theorem call_read (w : ProviderUsageWindow) {c : WindowCall} (read : c.isRead = true) :
    ∃ ts : List ℚ, ts.Sublist c.readings ∧ (w.call c).2 = ts.foldl trim w := by
  cases c with
  | requestsLastMinute now => exact ⟨[now], List.Sublist.refl _, rfl⟩
  | requestsLastDay now => exact ⟨[now], List.Sublist.refl _, rfl⟩
  | canServe limited minute day rpmLimit rpdLimit maxConcurrency =>
      obtain ⟨ts, sub, trims⟩ :=
        w.canServe_trims limited minute day rpmLimit rpdLimit maxConcurrency
      exact ⟨ts, sub.trans (List.sublist_cons_self _ _), trims⟩
  | snapshot minute day limited remaining =>
      exact ⟨[minute, day], by simp [WindowCall.readings], rfl⟩
  | recordRequest now => simp [WindowCall.isRead] at read
  | record429 now retryAfter => simp [WindowCall.isRead] at read
  | recordFailure => simp [WindowCall.isRead] at read
  | acquire now => simp [WindowCall.isRead] at read
  | release => simp [WindowCall.isRead] at read

section step
variable {before : List ℚ} {w : ProviderUsageWindow} {log : UsageLog} (h : Follows before w log)
  (c : WindowCall) (sorted : (before ++ c.readings).Pairwise (· ≤ ·))
include h sorted

theorem Follows.reading {t : ℚ} (member : t ∈ c.readings) : Reflects t w log :=
  h t fun u old => (List.pairwise_append.mp sorted).2.2 u old t member

/-- One call keeps the window and the log together. -/
theorem Follows.call : Follows (before ++ c.readings) (w.call c).2 (log.record c) := by
  have earlier : Follows (before ++ c.readings) w log :=
    h.subset (List.subset_append_left before c.readings)
  cases c using WindowCall.cases_read with
  | read c isRead =>
      obtain ⟨ts, sub, trims⟩ := w.call_read isRead
      rw [trims, UsageLog.record_read log isRead]
      have some_read := h.trims (List.Pairwise.sublist (sub.append_left before) sorted)
      exact some_read.subset (sub.append_left before).subset
  | recordRequest t =>
      intro now later
      have here := h.reading _ sorted (t := t) List.mem_cons_self
      exact here.recordRequest.later (later t (by simp [WindowCall.readings]))
  | acquire t =>
      intro now later
      have here := h.reading _ sorted (t := t) List.mem_cons_self
      exact (here.withConcurrent (· + 1)).recordRequest.later (later t (by simp [WindowCall.readings]))
  | record429 t retryAfter => exact fun now later => (earlier now later).record429 t retryAfter
  | recordFailure => exact fun now later => (earlier now later).recordFailure
  | release => exact fun now later => (earlier now later).withConcurrent (· - 1)

/-- And they answer alike. -/
theorem Follows.answer : (w.call c).1 = log.answer c := by
  cases c with
  | requestsLastMinute now =>
      exact congrArg WindowAnswer.count (h.reading _ sorted List.mem_cons_self).lastMinute
  | requestsLastDay now =>
      exact congrArg WindowAnswer.count (h.reading _ sorted List.mem_cons_self).lastDay
  | canServe limited minute day rpmLimit rpdLimit maxConcurrency =>
      exact congrArg WindowAnswer.servable (h.canServe sorted rpmLimit rpdLimit maxConcurrency)
  | snapshot minute day limited remaining =>
      have atMinute := h.reading _ sorted (t := minute) (by simp [WindowCall.readings])
      have atDay : Reflects day (w.trim minute) log := by
        have first : [minute, day].Sublist [minute, day, limited, remaining] := by simp
        change Reflects day ([minute].foldl ProviderUsageWindow.trim w) log
        apply h.reads
        rw [List.append_assoc]
        exact List.Pairwise.sublist (first.append_left before) sorted
      have left := atDay.trim
      simp only [ProviderUsageWindow.call, snapshot, UsageLog.answer, atMinute.lastMinute,
        atDay.lastDay, left.concurrent, left.total, left.failures, left.rejections,
        left.isRateLimited, secondsUntilAvailable, left.rateLimitedUntil]
  | recordRequest now => rfl
  | record429 now retryAfter => rfl
  | recordFailure => rfl
  | acquire now => rfl
  | release => rfl

end step

/-! ### Runs -/

theorem nondecreasing_concat (past : List WindowCall) (c : WindowCall) :
    WindowCall.Nondecreasing (past ++ [c]) ↔
      (past.flatMap WindowCall.readings ++ c.readings).Pairwise (· ≤ ·) := by
  simp only [WindowCall.Nondecreasing, List.flatMap_append, List.flatMap_cons, List.flatMap_nil,
    List.append_nil]

theorem follows_after (past : List WindowCall) (clock : WindowCall.Nondecreasing past) :
    Follows (past.flatMap WindowCall.readings) (stateAfter past) (UsageLog.after past) := by
  induction past using List.reverseRecOn with
  | nil => exact fun now _ => Reflects.fresh now
  | append_singleton past c ih =>
      rw [nondecreasing_concat] at clock
      have before := ih (List.pairwise_append.mp clock).1
      have after := before.call c clock
      rw [stateAfter_concat, UsageLog.after_concat]
      exact after.subset (by simp)

/-- A window answers as the log does. -/
theorem answer_refines (past : List WindowCall) (c : WindowCall)
    (clock : WindowCall.Nondecreasing (past ++ [c])) :
    answer past c = (UsageLog.after past).answer c := by
  rw [nondecreasing_concat] at clock
  exact (follows_after past (List.pairwise_append.mp clock).1).answer c clock

theorem foldl_trim_rateLimitedUntil (w : ProviderUsageWindow) (ts : List ℚ) :
    (ts.foldl trim w).rateLimitedUntil = w.rateLimitedUntil := by
  induction ts generalizing w with
  | nil => rfl
  | cons t ts ih => exact ih (w.trim t)

theorem rateLimitedUntil_le_call (w : ProviderUsageWindow) (c : WindowCall) :
    w.rateLimitedUntil ≤ (w.call c).2.rateLimitedUntil := by
  cases c using WindowCall.cases_read with
  | read c isRead =>
      obtain ⟨ts, -, trims⟩ := w.call_read isRead
      rw [trims, foldl_trim_rateLimitedUntil]
  | record429 now retryAfter => exact le_max_left _ _
  | recordRequest now => exact le_rfl
  | recordFailure => exact le_rfl
  | acquire now => exact le_rfl
  | release => exact le_rfl

/-- The two deques of `w'` are those given, less hits that had expired at one of the readings. -/
structure ShedsInto (readings minuteHits dayHits : List ℚ) (w' : ProviderUsageWindow) : Prop where
  minute : Sheds 60 readings minuteHits w'.minuteHits
  day : Sheds 86400 readings dayHits w'.dayHits

theorem shedsInto_same {readings : List ℚ} {w w' : ProviderUsageWindow}
    (minute : w'.minuteHits = w.minuteHits) (day : w'.dayHits = w.dayHits) :
    ShedsInto readings (w.minuteHits ++ []) (w.dayHits ++ []) w' := by
  constructor
  · rw [List.append_nil, minute]
    exact Sheds.refl 60 readings w.minuteHits
  · rw [List.append_nil, day]
    exact Sheds.refl 86400 readings w.dayHits

theorem shedsInto_trim {readings : List ℚ} (w : ProviderUsageWindow) {now : ℚ}
    (reading : now ∈ readings) : ShedsInto readings w.minuteHits w.dayHits (w.trim now) :=
  ⟨Sheds.trim reading w.minuteHits, Sheds.trim reading w.dayHits⟩

theorem shedsInto_trims {readings ts : List ℚ} (w : ProviderUsageWindow) (sub : ts ⊆ readings) :
    ShedsInto readings w.minuteHits w.dayHits (ts.foldl trim w) := by
  induction ts generalizing w with
  | nil => exact ⟨Sheds.refl _ _ _, Sheds.refl _ _ _⟩
  | cons t ts ih =>
      obtain ⟨reading, others⟩ := List.cons_subset.mp sub
      have first := w.shedsInto_trim reading
      have rest := ih (w.trim t) others
      exact ⟨first.minute.trans rest.minute, first.day.trans rest.day⟩

/-- Of the hits before a call and the one it adds, only expired ones are gone after it. -/
theorem shedsInto_call (w : ProviderUsageWindow) (c : WindowCall) :
    ShedsInto c.readings (w.minuteHits ++ c.requestTime?.toList)
      (w.dayHits ++ c.requestTime?.toList) (w.call c).2 := by
  cases c using WindowCall.cases_read with
  | read c isRead =>
      obtain ⟨ts, sub, trims⟩ := w.call_read isRead
      have nothing : c.requestTime? = none := by
        cases c <;> first | rfl | simp [WindowCall.isRead] at isRead
      rw [trims, nothing, Option.toList_none, List.append_nil, List.append_nil]
      exact w.shedsInto_trims sub.subset
  | recordRequest now =>
      exact ⟨Sheds.trim List.mem_cons_self _, Sheds.trim List.mem_cons_self _⟩
  | acquire now => exact ⟨Sheds.trim List.mem_cons_self _, Sheds.trim List.mem_cons_self _⟩
  | record429 now retryAfter => exact shedsInto_same rfl rfl
  | recordFailure => exact shedsInto_same rfl rfl
  | release => exact shedsInto_same rfl rfl

/-- What holds of a call after the calls before it. Every answer, those of `can_serve` and
`snapshot` among them, is the one the log gives. -/
structure ExactAt (past : List WindowCall) (c : WindowCall) : Prop where
  answered : answer past c = (UsageLog.after past).answer c
  minute : ∀ now, c = .requestsLastMinute now →
    answer past c = .count (recent 60 now (WindowCall.requestTimes past))
  day : ∀ now, c = .requestsLastDay now →
    answer past c = .count (recent 86400 now (WindowCall.requestTimes past))
  trims : ShedsInto c.readings ((stateAfter past).minuteHits ++ c.requestTime?.toList)
    ((stateAfter past).dayHits ++ c.requestTime?.toList) (stateAfter (past ++ [c]))
  unread : ∀ past', WindowCall.Nondecreasing (past' ++ [c]) →
    WindowCall.writes past' = WindowCall.writes past → answer past' c = answer past c
  cooldown : (stateAfter past).rateLimitedUntil ≤ (stateAfter (past ++ [c])).rateLimitedUntil

/-- After any calls whose readings never decrease, and at any call that comes next. -/
theorem sliding_windows_exact (past : List WindowCall) (c : WindowCall)
    (clock : WindowCall.Nondecreasing (past ++ [c])) : ExactAt past c where
  answered := answer_refines past c clock
  minute now read := by
    rw [answer_refines past c clock, read]
    simp only [UsageLog.answer, UsageLog.requestsLastMinute, UsageLog.requests_after]
  day now read := by
    rw [answer_refines past c clock, read]
    simp only [UsageLog.answer, UsageLog.requestsLastDay, UsageLog.requests_after]
  trims := by
    rw [stateAfter_concat]
    exact shedsInto_call (stateAfter past) c
  unread past' clock' same := by
    rw [answer_refines past c clock, answer_refines past' c clock', ← UsageLog.after_writes past',
      same, UsageLog.after_writes]
  cooldown := by
    rw [stateAfter_concat]
    exact rateLimitedUntil_le_call (stateAfter past) c

end ProviderUsageWindow

def Demo.twoHits : List WindowCall :=
  [.recordRequest 49, .snapshot 49 49 49 49, .recordRequest 50, .requestsLastDay 60,
    .record429 60 none]

/-- A hit counts up to the very end of its minute. -/
theorem ProviderUsageWindow.sliding_windows_exact_at_boundary :
    ExactAt Demo.twoHits (.requestsLastMinute 110) ∧
      answer Demo.twoHits (.requestsLastMinute 110) = .count 1 := by
  have clock : WindowCall.Nondecreasing (Demo.twoHits ++ [.requestsLastMinute 110]) := by
    simp only [WindowCall.Nondecreasing, Demo.twoHits, WindowCall.readings, List.cons_append,
      List.nil_append, List.flatMap_cons, List.flatMap_nil]
    norm_num
  have times : WindowCall.requestTimes Demo.twoHits = [49, 50] := rfl
  have here := sliding_windows_exact Demo.twoHits (.requestsLastMinute 110) clock
  refine ⟨here, ?_⟩
  rw [here.minute 110 rfl, times]
  norm_num [recent, List.countP_cons]

end Noxis
