import Mathlib

/-! Runs of a partial, event-emitting step function: the run relation, its executable
form, and the induction rules by which an invariant passes from one step to a whole run.
Nothing here depends on what the states and actions are. -/
namespace LabelledRun

variable {σ α ε : Type*}

/-- One step as a record: where it started, what was done, what was seen, where it ended. -/
structure Transition (σ α ε : Type*) where
  before : σ
  action : α
  events : List ε
  after : σ

def Transition.Valid (step : σ → α → Option (σ × List ε)) (t : Transition σ α ε) : Prop :=
  step t.before t.action = some (t.after, t.events)

/-- A finite run, growing at its end so that the past is available to an invariant. -/
inductive Run (step : σ → α → Option (σ × List ε)) (start : σ) :
    List (Transition σ α ε) → σ → Prop
  | nil : Run step start [] start
  | snoc {past : List (Transition σ α ε)} {t : Transition σ α ε} :
      Run step start past t.before → t.Valid step → Run step start (past ++ [t]) t.after

def eventsOf (ts : List (Transition σ α ε)) : List ε := ts.flatMap Transition.events

@[simp] theorem eventsOf_nil : eventsOf ([] : List (Transition σ α ε)) = [] := rfl

@[simp] theorem eventsOf_snoc (ts : List (Transition σ α ε)) (t : Transition σ α ε) :
    eventsOf (ts ++ [t]) = eventsOf ts ++ t.events := by
  simp [eventsOf]

/-- The states of a run: the first one and the end of every transition. -/
def Visits (start : σ) (ts : List (Transition σ α ε)) (s : σ) : Prop :=
  s = start ∨ ∃ t ∈ ts, t.after = s

variable {step : σ → α → Option (σ × List ε)} {start : σ}

/-- An invariant over the past and the present holds along every run. -/
theorem Run.invariant (P : List (Transition σ α ε) → σ → Prop) (base : P [] start)
    (preserved : ∀ past t, Run step start past t.before → P past t.before → t.Valid step →
      P (past ++ [t]) t.after)
    {ts : List (Transition σ α ε)} {s : σ} (run : Run step start ts s) : P ts s := by
  induction run with
  | nil => exact base
  | snoc before valid ih => exact preserved _ _ before ih valid

/-- The same rule where each step of the run is known to meet a condition that may
depend on the steps before it. -/
theorem Run.invariant_under (C : List (Transition σ α ε) → Transition σ α ε → Prop)
    (P : List (Transition σ α ε) → σ → Prop) (base : P [] start)
    (preserved : ∀ past t, Run step start past t.before → P past t.before → t.Valid step →
      C past t → P (past ++ [t]) t.after)
    {ts : List (Transition σ α ε)} {s : σ} (run : Run step start ts s)
    (meets : ∀ past t later, ts = past ++ t :: later → C past t) : P ts s := by
  induction run with
  | nil => exact base
  | @snoc past t before valid ih =>
      refine preserved _ _ before (ih ?_) valid (meets past t [] rfl)
      intro earlier u later split
      exact meets earlier u (later ++ [t]) (by simp [split])

/-- Every transition of a run starts where a shorter run ends. -/
theorem Run.split {ts : List (Transition σ α ε)} {s : σ} (run : Run step start ts s)
    {past later : List (Transition σ α ε)} {t : Transition σ α ε} (eq : ts = past ++ t :: later) :
    Run step start past t.before ∧ t.Valid step := by
  induction run generalizing later with
  | nil => simp at eq
  | @snoc earlier u before valid ih =>
      rcases List.eq_nil_or_concat later with rfl | ⟨init, last, rfl⟩
      · obtain ⟨rfl, same⟩ := List.append_inj' eq rfl
        obtain rfl : u = t := by simpa using same
        exact ⟨before, valid⟩
      · have eq' : earlier ++ [u] = (past ++ t :: init) ++ [last] := by simpa using eq
        obtain ⟨rfl, -⟩ := List.append_inj' eq' rfl
        exact ih rfl

/-- Every state a run visits is the end of one of its prefixes. -/
theorem Run.prefix_of_visits {ts : List (Transition σ α ε)} {s v : σ}
    (run : Run step start ts s) (visited : Visits start ts v) :
    ∃ past later, ts = past ++ later ∧ Run step start past v := by
  rcases visited with rfl | ⟨t, member, rfl⟩
  · exact ⟨[], ts, rfl, .nil⟩
  · obtain ⟨past, later, eq⟩ := List.append_of_mem member
    obtain ⟨before, valid⟩ := run.split eq
    exact ⟨past ++ [t], later, by simp [eq], .snoc before valid⟩

/-- The end of a prefix of a run is a state the run visits. -/
theorem Run.visits_of_prefix {past later : List (Transition σ α ε)} {v : σ}
    (run : Run step start past v) {ts : List (Transition σ α ε)} (eq : ts = past ++ later) :
    Visits start ts v := by
  cases run with
  | nil => exact .inl rfl
  | @snoc earlier t before valid => exact .inr ⟨t, by simp [eq], rfl⟩

theorem Run.append {ts us : List (Transition σ α ε)} {m s : σ} (first : Run step start ts m)
    (second : Run step m us s) : Run step start (ts ++ us) s := by
  induction second with
  | nil => simpa using first
  | snoc before valid ih =>
      rw [← List.append_assoc]
      exact .snoc ih valid

/-- A run ends where its last transition does. -/
theorem Run.ends {ts past : List (Transition σ α ε)} {t : Transition σ α ε} {s : σ}
    (run : Run step start ts s) (eq : ts = past ++ [t]) : s = t.after := by
  cases run with
  | nil => simp at eq
  | @snoc earlier u before valid =>
      obtain ⟨-, same⟩ := List.append_inj' eq rfl
      rw [List.singleton_injective same]

/-- Where a run is cut, its first part ends and its second part begins. -/
theorem Run.cut {past later : List (Transition σ α ε)} {s : σ}
    (run : Run step start (past ++ later) s) :
    ∃ m, Run step start past m ∧ Run step m later s := by
  induction later using List.reverseRecOn generalizing s with
  | nil => exact ⟨s, by simpa using run, .nil⟩
  | append_singleton later t ih =>
      have shape : past ++ (later ++ [t]) = (past ++ later) ++ t :: [] :=
        (List.append_assoc _ _ _).symm
      obtain ⟨before, valid⟩ := run.split shape
      obtain ⟨m, first, second⟩ := ih before
      have last : s = t.after := run.ends (List.append_assoc _ _ _).symm
      exact ⟨m, first, last ▸ .snoc second valid⟩

/-- Executes a list of actions, recording the transitions; `none` at the first refusal. -/
def exec (step : σ → α → Option (σ × List ε)) (s : σ) :
    List α → Option (σ × List (Transition σ α ε))
  | [] => some (s, [])
  | a :: rest =>
      (step s a).bind fun (m, events) =>
        (exec step m rest).map fun (last, ts) => (last, ⟨s, a, events, m⟩ :: ts)

theorem run_of_exec {actions : List α} {s : σ} {ts : List (Transition σ α ε)}
    (eq : exec step start actions = some (s, ts)) : Run step start ts s := by
  induction actions generalizing start ts with
  | nil =>
      obtain ⟨rfl, rfl⟩ : start = s ∧ [] = ts := by simpa [exec] using eq
      exact .nil
  | cons a rest ih =>
      simp only [exec, Option.bind_eq_some_iff, Option.map_eq_some_iff] at eq
      obtain ⟨⟨m, events⟩, first, ⟨last, us⟩, tail, eq⟩ := eq
      obtain ⟨rfl, rfl⟩ : last = s ∧ ⟨start, a, events, m⟩ :: us = ts := by simpa using eq
      have head : Run step start ([] ++ [⟨start, a, events, m⟩]) m := .snoc .nil first
      exact head.append (ih tail)

/-- An evaluated check on an executed action list speaks about an actual run. -/
theorem run_of_check (actions : List α) {check : σ × List (Transition σ α ε) → Bool}
    (ok : (exec step start actions).any check = true) :
    ∃ ts s, Run step start ts s ∧ check (s, ts) = true := by
  cases result : exec step start actions with
  | none => simp [result] at ok
  | some final => exact ⟨final.2, final.1, run_of_exec result, by simpa [result] using ok⟩

/-- Checks a condition on each transition and those before it. -/
def holdsAlong (check : List (Transition σ α ε) → Transition σ α ε → Bool) :
    List (Transition σ α ε) → List (Transition σ α ε) → Bool
  | _, [] => true
  | past, t :: later => check past t && holdsAlong check (past ++ [t]) later

theorem holdsAlong_split {check : List (Transition σ α ε) → Transition σ α ε → Bool}
    {earlier past later : List (Transition σ α ε)} {t : Transition σ α ε}
    (ok : holdsAlong check earlier (past ++ t :: later) = true) :
    check (earlier ++ past) t = true := by
  induction past generalizing earlier with
  | nil =>
      simp only [List.nil_append, holdsAlong, Bool.and_eq_true] at ok
      simpa using ok.1
  | cons u past ih =>
      simp only [List.cons_append, holdsAlong, Bool.and_eq_true] at ok
      simpa using ih ok.2

end LabelledRun
