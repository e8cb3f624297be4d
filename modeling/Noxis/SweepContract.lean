import Noxis.Readmission
import Noxis.Library.Tasks

/-! The contract of one probe sweep, whatever runs beside it. A sweep goes over the registry in
its order; at any moment each provider behind it has been passed over for a reason of that moment
or been probed, once, and its health was set from the answer. -/
namespace Noxis

open LabelledRun (Tasks)

/-- Why a sweep passes a provider over: the monitor leaves rate-limited providers alone, the
verification those that need a key. -/
def SweepKind.Skips (s : AppState) (name : String) : SweepKind → Prop
  | .monitor => (s.rateLimiter.window name).isRateLimited s.now = true
  | .verify => (s.provider name).config.providerType ≠ .keyless

/-- What a verdict leaves at the provider. -/
structure Judged (kind : SweepKind) (now : ℚ) (passed : Bool) (p : Provider) : Prop where
  health : p.health = if passed then .healthy else .unavailable
  stamped : kind = .monitor → p.lastChecked = now

/-- How the steps of a sweep left a provider behind. -/
inductive LeftBehind (kind : SweepKind) (own : List GatewayTransition) (name : String) : Prop
  | skipped {t : GatewayTransition} (member : t ∈ own) (reason : kind.Skips t.before.app name)
      (noted : kind = .monitor → (t.after.app.provider name).health = .rateLimited)
  | probed {t : GatewayTransition} (member : t ∈ own) {passed : Bool}
      (check : t.before.completedCheck t.action = some (name, passed))
      (noted : Judged kind t.before.app.now passed (t.after.app.provider name))

/-- The providers whose probes these steps completed, in order. -/
def probedBy (own : List GatewayTransition) : List String :=
  own.filterMap fun t => (t.before.completedCheck t.action).map Prod.fst

/-- Where a sweep over `names` stands after its own steps. -/
inductive SweepStanding (kind : SweepKind) (names : List String) (own : List GatewayTransition) :
    SweepState → Prop
  | checking {behind rest : List String} {name : String} (split : names = behind ++ name :: rest)
      (each : ∀ n ∈ behind, LeftBehind kind own n) (order : (probedBy own).Sublist behind) :
      SweepStanding kind names own (.checking kind name rest)
  | finished (each : ∀ n ∈ names, LeftBehind kind own n) (order : (probedBy own).Sublist names) :
      SweepStanding kind names own .finished
  | cancelled {behind rest : List String} {name : String} (split : names = behind ++ name :: rest)
      (each : ∀ n ∈ behind, LeftBehind kind own n) (order : (probedBy own).Sublist behind)
      {t : GatewayTransition} (last : own.getLast? = some t) {j : ℕ}
      (stop : t.action = .sweep j .cancel) :
      SweepStanding kind names own .finished

/-! ### One advance -/

section advance
variable {kind : SweepKind} {s : AppState} {name : String}

theorem OnlyHealth.skips {s' : AppState} (h : OnlyHealth s s') (name : String) :
    kind.Skips s' name ↔ kind.Skips s name := by
  unfold SweepKind.Skips
  rw [h.rateLimiter, h.now, h.config]

/-- A sweep touches nobody but those ahead of it. -/
theorem sweepNext_untouched {names : List String} (absent : name ∉ names) :
    (sweepNext kind s names).1.provider name = s.provider name := by
  induction names generalizing s with
  | nil => rfl
  | cons first rest ih =>
      have apart : name ≠ first := by
        rintro rfl
        exact absent List.mem_cons_self
      have beyond : name ∉ rest := fun member => absent (List.mem_cons_of_mem _ member)
      have marked : ∀ h, (s.onProvider first (·.withHealth h)).provider name = s.provider name :=
        fun h => s.onProvider_provider_other _ apart
      cases kind with
      | monitor =>
          unfold sweepNext
          dsimp only
          split_ifs
          · rw [ih beyond, marked]
          · exact marked _
      | verify =>
          unfold sweepNext
          dsimp only
          split_ifs
          · exact ih beyond
          · exact marked _

/-- What an advance does: it passes some providers over, each for a reason, and waits at the first
that gives none. -/
structure Advance (kind : SweepKind) (s : AppState) (names skipped : List String) (s' : AppState)
    (sw : SweepState) : Prop where
  reasons : ∀ n ∈ skipped, kind.Skips s n ∧
    (kind = .monitor → (s'.provider n).health = .rateLimited)
  stops : (names = skipped ∧ sw = .finished) ∨
    ∃ name rest, names = skipped ++ name :: rest ∧ sw = .checking kind name rest

theorem Advance.skip {rest skipped : List String} {s₁ s' : AppState} {sw : SweepState}
    (same : OnlyHealth s s₁) (first : kind.Skips s name)
    (noted : kind = .monitor → (s'.provider name).health = .rateLimited)
    (advance : Advance kind s₁ rest skipped s' sw) :
    Advance kind s (name :: rest) (name :: skipped) s' sw := by
  constructor
  · intro n member
    rcases List.mem_cons.mp member with rfl | later
    · exact ⟨first, noted⟩
    · exact (advance.reasons n later).imp_left (same.skips n).mp
  · rcases advance.stops with ⟨rfl, done⟩ | ⟨next, more, rfl, waits⟩
    · exact .inl ⟨rfl, done⟩
    · exact .inr ⟨next, more, rfl, waits⟩

theorem Advance.here (s' : AppState) (rest : List String) :
    Advance kind s (name :: rest) [] s' (.checking kind name rest) :=
  ⟨by simp, .inr ⟨name, rest, rfl, rfl⟩⟩

theorem sweepNext_advance (kind : SweepKind) {names : List String} (nodup : names.Nodup)
    (s : AppState) : ∃ skipped,
      Advance kind s names skipped (sweepNext kind s names).1 (sweepNext kind s names).2 := by
  induction names generalizing s with
  | nil => exact ⟨[], by simp, .inl ⟨rfl, rfl⟩⟩
  | cons first rest ih =>
      have once : first ∉ rest := (List.nodup_cons.mp nodup).1
      have beyond := ih (List.nodup_cons.mp nodup).2
      cases kind with
      | monitor =>
          unfold sweepNext
          dsimp only
          split_ifs with limited
          · have marked := onlyHealth_withHealth s first .rateLimited
            obtain ⟨skipped, advance⟩ := beyond (s.onProvider first (·.withHealth .rateLimited))
            have noted : (sweepNext .monitor (s.onProvider first (·.withHealth .rateLimited))
              rest).1.provider first = _ := sweepNext_untouched once
            refine ⟨first :: skipped, advance.skip marked limited fun _ => ?_⟩
            rw [noted]
            simp
          · exact ⟨[], Advance.here _ rest⟩
      | verify =>
          unfold sweepNext
          dsimp only
          split_ifs with keyed
          · obtain ⟨skipped, advance⟩ := beyond s
            exact ⟨first :: skipped, advance.skip (.refl s) keyed (by simp)⟩
          · exact ⟨[], Advance.here _ rest⟩

end advance

/-! ### Sweeps as tasks -/

section standing
variable {kind : SweepKind} {names : List String} {own : List GatewayTransition} {name : String}
  {t : GatewayTransition}

theorem LeftBehind.later (left : LeftBehind kind own name) : LeftBehind kind (own ++ [t]) name := by
  cases left with
  | skipped member reason noted => exact .skipped (List.mem_append_left _ member) reason noted
  | probed member check noted => exact .probed (List.mem_append_left _ member) check noted

theorem probedBy_snoc (own : List GatewayTransition) (t : GatewayTransition) :
    probedBy (own ++ [t]) =
      probedBy own ++ ((t.before.completedCheck t.action).map Prod.fst).toList := by
  cases check : t.before.completedCheck t.action <;> simp [probedBy, check]

/-- An advance over what is ahead of a sweep, seen from all of its names. -/
theorem Advance.standing {s s' : AppState} {ahead skipped behind : List String} {sw : SweepState}
    (advance : Advance kind s ahead skipped s' sw) (split : names = behind ++ ahead)
    (member : t ∈ own) (found : ∀ n, kind.Skips s n ↔ kind.Skips t.before.app n)
    (leaves : t.after.app = s') (each : ∀ n ∈ behind, LeftBehind kind own n)
    (order : (probedBy own).Sublist behind) : SweepStanding kind names own sw := by
  have passed : ∀ n ∈ behind ++ skipped, LeftBehind kind own n := by
    intro n here
    rcases List.mem_append.mp here with old | new
    · exact each n old
    · obtain ⟨reason, noted⟩ := advance.reasons n new
      rw [← leaves] at noted
      exact .skipped member ((found n).mp reason) noted
  have ordered : (probedBy own).Sublist (behind ++ skipped) :=
    order.trans (List.sublist_append_left _ _)
  rcases advance.stops with ⟨rfl, rfl⟩ | ⟨next, rest, rfl, rfl⟩
  · rw [← split] at passed ordered
    exact .finished passed ordered
  · refine .checking ?_ passed ordered
    rw [split, List.append_assoc]

end standing

namespace Gateway

variable (sch : Scheduler)

/-- The sweeps of a gateway as tasks. -/
def sweepTasks : Tasks (step sch) SweepState where
  list := Gateway.sweeps
  owner g act := match act with
    | .beginSweep _ => some g.sweeps.length
    | .sweep j _ => some j
    | _ => none
  idle {g g' act events} moved other := by
    cases step_steps moved with
    | beginSweep => cases other
    | sweep => cases other
    | _ => rfl
  own {g g' act events i} moved own := by
    cases step_steps moved with
    | beginSweep => exact .inl ⟨(Option.some.inj own).symm, _, rfl⟩
    | sweep found swept =>
        obtain rfl := Option.some.inj own
        exact .inr ⟨_, _, found, rfl⟩
    | _ => cases own

variable {sch}

/-- A task takes its number when a sweep begins. -/
theorem begun_sweep {t : GatewayTransition} {j : ℕ} (valid : t.Valid (step sch))
    (number : t.before.sweeps.length = j)
    (own : (sweepTasks sch).owner t.before t.action = some j) :
    ∃ kind, t.action = .beginSweep kind := by
  cases act : t.action with
  | beginSweep kind => exact ⟨kind, rfl⟩
  | sweep k a =>
      rw [LabelledRun.Transition.Valid, act] at valid
      rw [act] at own
      obtain ⟨sw, app, sw', found, -, -⟩ := step_sweep sch valid
      have inside := (List.getElem?_eq_some_iff.mp found).1
      have same : k = j := Option.some.inj own
      omega
  | _ => rw [act] at own; cases own

theorem resumed_sweep {t : GatewayTransition} {j : ℕ} {sw sw' : SweepState}
    (valid : t.Valid (step sch)) (own : (sweepTasks sch).owner t.before t.action = some j)
    (found : t.before.sweeps[j]? = some sw)
    (list : t.after.sweeps = t.before.sweeps.set j sw') :
    ∃ act, t.action = .sweep j act ∧
      ∃ events, sweepStep t.before.app sw act = some (t.after.app, sw', events) := by
  have inside := (List.getElem?_eq_some_iff.mp found).1
  cases act : t.action with
  | beginSweep kind =>
      rw [act] at own
      have free : t.before.sweeps.length = j := Option.some.inj own
      omega
  | sweep k a =>
      rw [act] at own
      rw [LabelledRun.Transition.Valid, act] at valid
      obtain rfl : k = j := Option.some.inj own
      obtain ⟨old, app, new, here, swept, after⟩ := step_sweep sch valid
      rw [found] at here
      obtain rfl := Option.some.inj here
      rw [after] at list ⊢
      have same : new = sw' := by simpa [inside] using congrArg (·[k]?) list
      exact ⟨a, rfl, _, same ▸ swept⟩
  | _ => rw [act] at own; cases own

end Gateway

/-- Where the sweep begun by a step stands, over the registry that it found. -/
def SweepStandsBy (first : GatewayTransition) (own : List GatewayTransition) (sw : SweepState) :
    Prop :=
  ∃ kind, first.action = .beginSweep kind ∧
    SweepStanding kind first.before.app.registry.all own sw

section runs
variable {sch : Scheduler} {start g : Gateway} {ts : List GatewayTransition}

theorem begun_sweep_stands {t : GatewayTransition} {sw : SweepState}
    (valid : t.Valid (Gateway.step sch))
    (own : (Gateway.sweepTasks sch).owner t.before t.action = some t.before.sweeps.length)
    (list : t.after.sweeps = t.before.sweeps ++ [sw]) : SweepStandsBy t [t] sw := by
  obtain ⟨kind, act⟩ := Gateway.begun_sweep valid rfl own
  refine ⟨kind, act, ?_⟩
  rw [LabelledRun.Transition.Valid, act] at valid
  simp only [Gateway.step, Option.some.injEq, Prod.mk.injEq] at valid
  obtain ⟨after, -⟩ := valid
  have app : t.after.app = (sweepNext kind t.before.app t.before.app.registry.all).1 := by
    rw [← after]
  have waits : sw = (sweepNext kind t.before.app t.before.app.registry.all).2 := by
    rw [← after] at list
    exact (List.singleton_injective (List.append_cancel_left list)).symm
  obtain ⟨skipped, advance⟩ := sweepNext_advance kind t.before.app.registry.nodup t.before.app
  rw [waits]
  have split : t.before.app.registry.all = [] ++ t.before.app.registry.all := rfl
  refine advance.standing split List.mem_cons_self (fun _ => Iff.rfl) app (by simp) ?_
  simp [probedBy, act, Gateway.completedCheck]

theorem resumed_sweep_stands {first t : GatewayTransition} {j : ℕ} {past : List GatewayTransition}
    {sw sw' : SweepState} (valid : t.Valid (Gateway.step sch))
    (own : (Gateway.sweepTasks sch).owner t.before t.action = some j)
    (found : t.before.sweeps[j]? = some sw) (list : t.after.sweeps = t.before.sweeps.set j sw')
    (before : SweepStandsBy first past sw) : SweepStandsBy first (past ++ [t]) sw' := by
  obtain ⟨kind, act, stands⟩ := before
  refine ⟨kind, act, ?_⟩
  obtain ⟨resumed, action, events, swept⟩ := Gateway.resumed_sweep valid own found list
  have nodup := first.before.app.registry.nodup
  cases stands with
  | @checking behind rest name split each order =>
      cases resumed with
      | cancel =>
          have check : t.before.completedCheck t.action = none := by rw [action]; rfl
          simp only [sweepStep, Option.some.injEq, Prod.mk.injEq] at swept
          obtain ⟨-, rfl, -⟩ := swept
          refine .cancelled split (fun n member => (each n member).later) ?_
            List.getLast?_concat action
          rw [probedBy_snoc, check]
          simpa using order
      | answered answer =>
          have check : t.before.completedCheck t.action = some (name, healthCheck answer) := by
            rw [action]
            simp only [Gateway.completedCheck, found]
          simp only [sweepStep, Option.some.injEq, Prod.mk.injEq] at swept
          obtain ⟨app, rfl, -⟩ := swept
          have ahead : (name :: rest).Nodup := by
            refine List.Nodup.sublist ?_ nodup
            rw [ProviderRegistry.all] at split
            rw [split]
            exact List.sublist_append_right _ _
          obtain ⟨once, distinct⟩ := List.nodup_cons.mp ahead
          obtain ⟨skipped, advance⟩ :=
            sweepNext_advance kind distinct (noteProbe t.before.app kind name answer)
          have judged : Judged kind t.before.app.now (healthCheck answer)
              (t.after.app.provider name) := by
            rw [← app, sweepNext_untouched once, noteProbe, AppState.onProvider_provider_self]
            cases kind <;> exact ⟨rfl, by simp [Provider.withHealth]⟩
          have here : LeftBehind kind (past ++ [t]) name :=
            .probed (by simp) check judged
          have further : first.before.app.registry.all = (behind ++ [name]) ++ rest := by
            simp [split]
          refine advance.standing further (by simp)
            (fun n => (noteProbe_onlyHealth _ kind name answer).skips n) app.symm ?_ ?_
          · intro n member
            rcases List.mem_append.mp member with old | new
            · exact (each n old).later
            · rwa [List.mem_singleton.mp new]
          · rw [probedBy_snoc, check]
            exact order.append (.refl _)
  | finished each order => cases swept
  | cancelled split each order last stop => cases swept

theorem sweeps_stand (idle : start.sweeps = []) (run : GatewayRun sch start ts g) (j : ℕ)
    (sw : SweepState) (found : g.sweeps[j]? = some sw) :
    (Gateway.sweepTasks sch).Known SweepStandsBy ts j sw :=
  run.each_task (Gateway.sweepTasks sch) SweepStandsBy (fun _ _ _ => begun_sweep_stands)
    (fun _ _ _ _ _ _ _ => resumed_sweep_stands) idle j sw found

end runs

/-- In every state of every run, each sweep begun stands where the contract says: over the registry
it found, everybody behind it passed over for a reason of that moment or probed once, in order,
with a health that says what the probe found. -/
theorem sweep_contract (sch : Scheduler) (start : Gateway) (idle : start.sweeps = [])
    (ts : List GatewayTransition) (g : Gateway) (run : GatewayRun sch start ts g) (j : ℕ)
    (sw : SweepState) (found : g.sweeps[j]? = some sw) :
    ∃ earlier first later kind, ts = earlier ++ first :: later ∧
      first.before.sweeps.length = j ∧ first.action = .beginSweep kind ∧
      SweepStanding kind first.before.app.registry.all
        ((Gateway.sweepTasks sch).stepsOf j ts) sw := by
  obtain ⟨earlier, first, later, split, number, -, kind, act, stands⟩ :=
    sweeps_stand idle run j sw found
  exact ⟨earlier, first, later, kind, split, number, act, stands⟩

/-- `a` answers a check while another sweep begins, and `b` does not. -/
def twoSweeps : List Action :=
  [.beginSweep .monitor, .sweep 0 (.answered (.status 200)), .beginSweep .verify,
    .sweep 0 (.answered .exception)]

theorem sweep_contract_two_sweeps :
    ∃ ts g sw, GatewayRun Demo.scheduler (Demo.gateway fun _ => Demo.config [] 10) ts g ∧
      g.sweeps[0]? = some sw ∧ ∃ earlier first later kind, ts = earlier ++ first :: later ∧
        first.before.sweeps.length = 0 ∧ first.action = .beginSweep kind ∧
        SweepStanding kind first.before.app.registry.all
          ((Gateway.sweepTasks Demo.scheduler).stepsOf 0 ts) sw := by
  have possible : Demo.passes (Demo.gateway fun _ => Demo.config [] 10) twoSweeps
      (fun r => decide (r.1.sweeps.length = 2)) = true := by decide +kernel
  obtain ⟨ts, g, run, two⟩ := Demo.exists_run possible
  have inside : 0 < g.sweeps.length := by
    rw [of_decide_eq_true two]
    exact Nat.two_pos
  have found : g.sweeps[0]? = some g.sweeps[0] := List.getElem?_eq_getElem inside
  exact ⟨ts, g, _, run, found, sweep_contract _ _ rfl ts g run 0 _ found⟩

end Noxis
