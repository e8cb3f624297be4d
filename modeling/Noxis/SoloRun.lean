import Noxis.Drain

/-! A drained request is a run of the gateway: when no other task is active, the steps of
the interleaved model go through exactly the states and events of the loop. -/
namespace Noxis

open Scheduler

/-- The gateway can go from `g` to `g'` with these events. -/
def Reaches (sch : Scheduler) (g : Gateway) (events : List Event) (g' : Gateway) : Prop :=
  ∃ ts, GatewayRun sch g ts g' ∧ LabelledRun.eventsOf ts = events

section reaches
variable {sch : Scheduler} {g g₁ g₂ g₃ : Gateway} {pre : List RunState} {st st' : RunState}

theorem Reaches.refl (sch : Scheduler) (g : Gateway) : Reaches sch g [] g := ⟨[], .nil, rfl⟩

theorem Reaches.trans {events more : List Event} (h : Reaches sch g₁ events g₂)
    (h' : Reaches sch g₂ more g₃) : Reaches sch g₁ (events ++ more) g₃ := by
  obtain ⟨ts, run, rfl⟩ := h
  obtain ⟨us, run', rfl⟩ := h'
  exact ⟨ts ++ us, run.append run', by simp [LabelledRun.eventsOf]⟩

theorem Reaches.single {events : List Event} (act : Action)
    (h : Gateway.step sch g act = some (g₁, events)) : Reaches sch g events g₁ := by
  refine ⟨[⟨g, act, events, g₁⟩], ?_, by simp [LabelledRun.eventsOf]⟩
  have run : GatewayRun sch g ([] ++ [⟨g, act, events, g₁⟩]) g₁ := .snoc .nil h
  exact run

theorem reaches_elapse (sch : Scheduler) (g : Gateway) (dt : ℚ≥0) :
    Reaches sch g [] { g with app := g.app.elapse dt } := .single (.elapse dt) rfl

theorem reaches_resume (g : Gateway) (runs : g.runs = pre ++ [st]) (act : RunAction)
    {app : AppState} {events : List Event}
    (moved : sch.runStep g.app st act = some (app, st', events)) :
    Reaches sch g events { g with app, runs := pre ++ [st'] } := by
  apply Reaches.single (.run pre.length act)
  simp [Gateway.step, runs, moved]

variable (sch) in
/-- The consumer pulls every chunk that arrives. -/
theorem reaches_emit (chunks : List Json) (g : Gateway) (a : Attempt)
    (stream : a.loop.path = .executeStream) (runs : g.runs = pre ++ [.calling a]) :
    Reaches sch g (chunks.map fun chunk => .yielded chunk a.decision.provider)
      { g with runs := pre ++
        [.calling { a with startedEmitting := a.startedEmitting || !chunks.isEmpty }] } := by
  induction chunks generalizing g a with
  | nil => simpa [← runs] using Reaches.refl sch g
  | cons chunk rest ih =>
      let started : Attempt := { a with startedEmitting := true }
      have emitted : sch.runStep g.app (.calling a) (.emit chunk) =
          some (g.app, .yielding started, [.yielded chunk a.decision.provider]) := by
        simp [runStep, stream, started]
      have first := reaches_resume g runs (.emit chunk) emitted
      have pulled : Reaches sch { g with runs := pre ++ [.yielding started] } []
          { g with runs := pre ++ [.calling started] } :=
        reaches_resume { g with runs := pre ++ [.yielding started] } rfl .pull rfl
      have others := ih { g with runs := pre ++ [.calling started] } started stream rfl
      simpa [started] using (first.trans pulled).trans others

end reaches

/-- The history variable has no influence on the loop. -/
theorem drainLoop_trials (sch : Scheduler) (env : Upstreams) (ds : List RoutingDecision)
    (s : AppState) (l : LoopState) (trials : List (String × ℕ)) :
    sch.drainLoop env s { l with trials } ds = sch.drainLoop env s l ds := by
  induction ds generalizing s l with
  | nil => rfl
  | cons d rest ih =>
      have next : ∀ s' e, sch.drainLoop env s' (({ l with trials } : LoopState).failed e) rest =
          sch.drainLoop env s' (l.failed e) rest := fun s' e => ih s' (l.failed e)
      obtain ⟨path, request, attempts, lastError, old⟩ := l
      by_cases spent : sch.maxRetries ≤ attempts
      · rw [drainLoop_spent spent, drainLoop_spent spent]
        rfl
      · cases ends : (env d.provider).outcome with
        | success result =>
            rw [drainLoop_success spent ends, drainLoop_success spent ends]
            rfl
        | otherError =>
            rw [drainLoop_otherError spent ends, drainLoop_otherError spent ends]
            rfl
        | apiError e =>
            have silent_same : e.retryable = true →
                path = .execute ∨ (env d.provider).chunks = [] →
                sch.drainLoop env s { path, request, attempts, lastError, trials } (d :: rest) =
                  sch.drainLoop env s { path, request, attempts, lastError, trials := old }
                    (d :: rest) := by
              intro retryable silent
              cases delayed : sch.delayAfter env { path, request, attempts, lastError, trials } d e with
              | none =>
                  have large := delayAfter_eq_none_iff.mp delayed
                  rw [drainLoop_overflow spent ends retryable silent large,
                    drainLoop_overflow (l := { path, request, attempts, lastError, trials := old })
                      spent ends retryable silent large]
                  rfl
              | some delay =>
                  rw [drainLoop_backoff spent ends retryable silent delayed,
                    drainLoop_backoff (l := { path, request, attempts, lastError, trials := old })
                      spent ends retryable silent delayed, next]
                  rfl
            cases path with
            | execute =>
                cases retryable : e.retryable with
                | true => exact silent_same retryable (.inl rfl)
                | false =>
                    rw [drainLoop_terminal spent ends retryable rfl,
                      drainLoop_terminal spent ends retryable rfl, next]
                    rfl
            | executeStream =>
                by_cases final : (env d.provider).chunks ≠ [] ∨ e.retryable = false
                · rw [drainLoop_raised spent ends rfl final, drainLoop_raised spent ends rfl final]
                  rfl
                · simp only [not_or, not_not, Bool.not_eq_false] at final
                  exact silent_same final.2 (.inr final.1)

/-- From a run that waits for its call to the end of the call. -/
theorem reaches_callEnded (sch : Scheduler) {env : Upstreams} (alone : Alone env)
    {s : AppState} {l : LoopState} {d : RoutingDecision} {rest : List RoutingDecision}
    {pre : List RunState} (g : Gateway) (app : g.app = s.acquire d.provider)
    (runs : g.runs = pre ++ [.calling { loop := l, decision := d, rest, start := s.now }]) :
    Reaches sch g (passedOn env l d)
      { g with app := callEnded env s d, runs := pre ++ [.calling (attemptAt env s l d rest)] } := by
  obtain ⟨chunks, outcome, timing, eq⟩ := alone d.provider
  have ended : callEnded env s d = g.app.elapse timing.callTime := by
    simp [callEnded, eq, Upstream.alone, app]
  cases path : l.path with
  | execute =>
      have same : attemptAt env s l d rest = { loop := l, decision := d, rest, start := s.now } := by
        simp [attemptAt, path]
      rw [ended, same, ← runs, passedOn, path]
      exact reaches_elapse sch g timing.callTime
  | executeStream =>
      have same : attemptAt env s l d rest =
          { loop := l, decision := d, rest, start := s.now
            startedEmitting := !(env d.provider).chunks.isEmpty } := by
        simp [attemptAt, path]
      have emitted := reaches_emit sch (env d.provider).chunks g _ path runs
      rw [Bool.false_or] at emitted
      have waited := emitted.trans (reaches_elapse sch _ timing.callTime)
      rw [List.append_nil] at waited
      rw [ended, same, passedOn, path]
      exact waited

theorem settle_now (sch : Scheduler) (s : AppState) (a : Attempt) (o : CallOutcome) (u : Sample) :
    (sch.settle s a o u).1.now = s.now := by
  cases path : a.loop.path <;> cases o with
  | success result => simp [settle, path, settleExecute, settleStream, noteSuccess]
  | otherError => simp [settle, path, settleExecute, settleStream]
  | apiError e =>
      have slept : (sch.backOff (sch.noteFailure s a.decision.provider e) (a.loop.failed e)
          a.decision.provider e u).1.now = s.now := by
        rcases sch.backOff_cases (sch.noteFailure s a.decision.provider e) (a.loop.failed e)
          a.decision.provider e u with ⟨delay, -, eq⟩ | ⟨-, eq⟩ <;> rw [eq] <;> simp [noteFailure]
      simp only [settle, path, settleExecute, settleStream]
      split_ifs <;> first | exact slept | simp [noteFailure]

/-- Whoever sleeps at least the delay wakes when it is over. -/
theorem due_after_sleep (s : AppState) (delay : ℚ) (oversleep : ℚ≥0) :
    s.now + delay ≤ (s.elapse (delay.toNNRat + oversleep)).now := by
  have slept : delay ≤ ((delay.toNNRat + oversleep : ℚ≥0) : ℚ) := by
    rw [NNRat.coe_add]
    exact (Rat.le_coe_toNNRat delay).trans (le_add_of_nonneg_right oversleep.2)
  exact add_le_add le_rfl slept

/-- The loop, from the state that its head leaves behind. -/
theorem reaches_drainLoop {sch : Scheduler} {env : Upstreams} (alone : Alone env)
    (pre : List RunState) (ds : List RoutingDecision) (s : AppState) (l : LoopState) (g : Gateway)
    (app : g.app = (sch.nextAttempt s l ds).1)
    (runs : g.runs = pre ++ [(sch.nextAttempt s l ds).2.1]) :
    ∃ events, Reaches sch g events
        { g with app := (sch.drainLoop env s l ds).app
                 runs := pre ++ [.finished (sch.drainLoop env s l ds).ending] } ∧
      (sch.nextAttempt s l ds).2.2 ++ events = (sch.drainLoop env s l ds).events := by
  induction ds generalizing s l g with
  | nil =>
      have idle : g.app = s := app
      have finished : g.runs = pre ++ [.finished (exhausted l)] := runs
      refine ⟨[], ?_, rfl⟩
      simp only [drainLoop, ← idle, ← finished]
      exact .refl sch g
  | cons d rest ih =>
      by_cases spent : sch.maxRetries ≤ l.attempts
      · simp only [nextAttempt, if_pos spent] at app runs ⊢
        refine ⟨[], ?_, ?_⟩
        · rw [drainLoop_spent spent, ← app, ← runs]
          exact .refl sch g
        · rw [drainLoop_spent spent]
          rfl
      · simp only [nextAttempt, if_neg spent] at app runs ⊢
        have called := reaches_callEnded sch alone g app runs
        obtain ⟨chunks, outcome, timing, eq⟩ := alone d.provider
        -- the end of the call, settled as in the loop
        have resume : ∀ {st : RunState} {app : AppState} {events : List Event},
            sch.runStep (callEnded env s d) (.calling (attemptAt env s l d rest))
              (.callEnded (env d.provider).outcome (env d.provider).jitter) =
                some (app, st, events) →
            Reaches sch g (passedOn env l d ++ events) { g with app, runs := pre ++ [st] } :=
          fun moved => called.trans (reaches_resume _ rfl _ moved)
        simp only [runStep] at resume
        simp only [drainLoop, if_neg spent]
        rcases settled : sch.settle (callEnded env s d) (attemptAt env s l d rest)
          (env d.provider).outcome (env d.provider).jitter with ⟨s', e | l' | ⟨l', delay⟩⟩
        · simp only [settled, Option.some.injEq, Prod.mk.injEq, and_imp] at resume ⊢
          exact ⟨_, resume rfl rfl rfl, rfl⟩
        · simp only [settled, Option.some.injEq, Prod.mk.injEq, and_imp] at resume ⊢
          have failed := resume rfl rfl rfl
          obtain ⟨events, goes_on, same⟩ := ih s' l'
            { g with app := (sch.nextAttempt s' l' rest).1
                     runs := pre ++ [(sch.nextAttempt s' l' rest).2.1] } rfl rfl
          refine ⟨_, failed.trans goes_on, ?_⟩
          simp only [Drained.after, attemptEvents, ← same]
          simp
        · simp only [settled, Option.some.injEq, Prod.mk.injEq, and_imp] at resume ⊢
          have failed := (resume rfl rfl rfl).trans
            (reaches_elapse sch _ (delay.toNNRat + timing.oversleep))
          have due : (callEnded env s d).now + delay ≤
              (s'.elapse (delay.toNNRat + timing.oversleep)).now := by
            have clock : s'.now = (callEnded env s d).now := by
              rw [← settle_now sch (callEnded env s d) (attemptAt env s l d rest)
                (env d.provider).outcome (env d.provider).jitter, settled]
            rw [← clock]
            exact due_after_sleep s' delay timing.oversleep
          let awake := (s'.elapse (delay.toNNRat + timing.oversleep)).release d.provider
          have woke : sch.runStep (s'.elapse (delay.toNNRat + timing.oversleep))
              (.sleeping { attemptAt env s l d rest with loop := l' }
                ((callEnded env s d).now + delay)) .wake =
              some ((sch.nextAttempt awake l' rest).1, (sch.nextAttempt awake l' rest).2.1,
                (sch.nextAttempt awake l' rest).2.2) := if_pos due
          have woken := failed.trans (reaches_resume _ rfl .wake woke)
          obtain ⟨events, goes_on, same⟩ := ih awake l'
            { g with app := (sch.nextAttempt awake l' rest).1
                     runs := pre ++ [(sch.nextAttempt awake l' rest).2.1] } rfl rfl
          have asleep : ((env d.provider).asleep delay s').release d.provider = awake := by
            simp [eq, Upstream.alone, awake]
          rw [asleep]
          refine ⟨_, woken.trans goes_on, ?_⟩
          simp only [Drained.after, attemptEvents, ← same]
          simp

/-- Every drained request is a run of the gateway that begins it and lets nothing else
happen: the same events, the same final state, the same end. -/
theorem drain_is_gateway_run (sch : Scheduler) {env : Upstreams} (alone : Alone env) (g : Gateway)
    (path : Path) (request : ChatCompletionRequest) :
    ∃ ts g', GatewayRun sch g ts g' ∧
      LabelledRun.eventsOf ts = (sch.drain env path g.app request).events ∧
      g'.app = (sch.drain env path g.app request).app ∧
      g'.runs = g.runs ++ [.finished (sch.drain env path g.app request).ending] := by
  rw [sch.drain_eq]
  generalize ranked : sch.eligibleDecisions g.app request = admitted
  obtain ⟨ds, app⟩ := admitted
  let periods := Gateway.nextPeriods g.app app g.periods
  let l : LoopState := { path, request, trials := Gateway.trialsOf app periods ds }
  have entered : sch.enter app l ds = sch.nextAttempt app l ds := by
    cases ds <;> rfl
  have begun : Gateway.step sch g (.begin path request) =
      some ({ g with app := (sch.nextAttempt app l ds).1
                     runs := g.runs ++ [(sch.nextAttempt app l ds).2.1]
                     periods }, (sch.nextAttempt app l ds).2.2) := by
    simp only [Gateway.step, ranked, ← entered]
    rfl
  obtain ⟨events, goes_on, same⟩ := reaches_drainLoop alone g.runs ds app l
    { g with app := (sch.nextAttempt app l ds).1
             runs := g.runs ++ [(sch.nextAttempt app l ds).2.1]
             periods } rfl rfl
  obtain ⟨ts, run, told⟩ := (Reaches.single _ begun).trans goes_on
  have forget : sch.drainLoop env app l ds = sch.drainLoop env app { path, request } ds :=
    drainLoop_trials sch env ds app { path, request } (Gateway.trialsOf app periods ds)
  refine ⟨ts, _, run, ?_, ?_, ?_⟩
  · rw [told, same, forget]
  · exact congrArg Drained.app forget
  · exact congrArg (fun r : Drained => g.runs ++ [.finished r.ending]) forget

end Noxis
