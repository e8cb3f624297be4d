import Noxis.Library.LabelledRun

/-! Watching a labelled system. Questions are asked between its steps, and a question may leave
another state behind. Where the state it leaves is bisimilar to the one it found, the rest of
the run shows the same events and gives the same answers as if nothing had been asked. -/
namespace Observation

variable {σ α ε β ω : Type*}

/-- Two outcomes of a step: both are refused, or the states and the events are related. -/
def Alike (R : σ → σ → Prop) (E : ε → ε → Prop) :
    Option (σ × List ε) → Option (σ × List ε) → Prop :=
  Option.Rel fun r r' => R r.1 r'.1 ∧ List.Forall₂ E r.2 r'.2

theorem Alike.refused (R : σ → σ → Prop) (E : ε → ε → Prop) : Alike R E none none := .none

theorem Alike.moved {R : σ → σ → Prop} {E : ε → ε → Prop} {s s' : σ} {events events' : List ε}
    (states : R s s') (seen : List.Forall₂ E events events') :
    Alike R E (some (s, events)) (some (s', events')) := .some ⟨states, seen⟩

/-- One computation carried out on both sides keeps two outcomes in agreement. -/
theorem Alike.bind {τ δ : Type*} {R : σ → σ → Prop} {E : ε → ε → Prop} {Q : τ → τ → Prop}
    {D : δ → δ → Prop} {x x' : Option (σ × List ε)} {f f' : σ × List ε → Option (τ × List δ)}
    (h : Alike R E x x')
    (next : ∀ s s' events events', R s s' → List.Forall₂ E events events' →
      Alike Q D (f (s, events)) (f' (s', events'))) :
    Alike Q D (x.bind f) (x'.bind f') := by
  cases h with
  | none => exact .none
  | some related => exact next _ _ _ _ related.1 related.2

theorem Alike.map {τ δ : Type*} {R : σ → σ → Prop} {E : ε → ε → Prop} {Q : τ → τ → Prop}
    {D : δ → δ → Prop} {x x' : Option (σ × List ε)} {f f' : σ × List ε → τ × List δ}
    (h : Alike R E x x')
    (next : ∀ s s' events events', R s s' → List.Forall₂ E events events' →
      Q (f (s, events)).1 (f' (s', events')).1 ∧
        List.Forall₂ D (f (s, events)).2 (f' (s', events')).2) :
    Alike Q D (x.map f) (x'.map f') := by
  cases h with
  | none => exact .none
  | some related => exact .some (next _ _ _ _ related.1 related.2)

/-- Related states refuse the same actions, and take the others to related states. -/
def Bisimulation (step : σ → α → Option (σ × List ε)) (R : σ → σ → Prop) (E : ε → ε → Prop) :
    Prop :=
  ∀ s s' a, R s s' → Alike R E (step s a) (step s' a)

/-- A question that related states answer alike, and that leaves a related state. -/
structure Silent (ask : σ → β → ω × σ) (R : σ → σ → Prop) : Prop where
  answer : ∀ s s' q, R s s' → (ask s q).1 = (ask s' q).1
  left : ∀ s s' q, R s s' → R (ask s q).2 s'

/-- Steps and questions as they come, with everything that is seen of them. -/
def watch (step : σ → α → Option (σ × List ε)) (ask : σ → β → ω × σ) :
    σ → List (α ⊕ β) → Option (σ × List (ε ⊕ ω))
  | s, [] => some (s, [])
  | s, .inl a :: rest =>
      (step s a).bind fun r =>
        (watch step ask r.1 rest).map fun last => (last.1, r.2.map Sum.inl ++ last.2)
  | s, .inr q :: rest =>
      (watch step ask (ask s q).2 rest).map fun last => (last.1, .inr (ask s q).1 :: last.2)

/-- The same question to a system on which it leaves no trace. -/
def still (ask : σ → β → ω × σ) (s : σ) (q : β) : ω × σ := ((ask s q).1, s)

/-- The events among everything seen. -/
def eventsIn (seen : List (ε ⊕ ω)) : List ε := seen.filterMap Sum.getLeft?

/-- The steps among steps and questions. -/
def stepsIn (acts : List (α ⊕ β)) : List α := acts.filterMap Sum.getLeft?

@[simp] theorem eventsIn_append (seen more : List (ε ⊕ ω)) :
    eventsIn (seen ++ more) = eventsIn seen ++ eventsIn more := List.filterMap_append

@[simp] theorem eventsIn_inl (events : List ε) :
    eventsIn (events.map (Sum.inl : ε → ε ⊕ ω)) = events := by
  induction events with
  | nil => rfl
  | cons e rest ih =>
      rw [List.map_cons]
      exact congrArg (e :: ·) ih

theorem forall₂_eventsIn {E : ε → ε → Prop} {seen seen' : List (ε ⊕ ω)}
    (related : List.Forall₂ (Sum.LiftRel E Eq) seen seen') :
    List.Forall₂ E (eventsIn seen) (eventsIn seen') := by
  induction related with
  | nil => exact .nil
  | cons head tail ih =>
      cases head with
      | inl same => exact .cons same ih
      | inr same => exact ih

variable {step : σ → α → Option (σ × List ε)} {ask : σ → β → ω × σ} {R : σ → σ → Prop}
  {E : ε → ε → Prop}

/-- From related states, a watched run shows what it would show if no question left a trace. -/
theorem watch_agrees (bisimilar : Bisimulation step R E) (silent : Silent ask R)
    (acts : List (α ⊕ β)) {s s' : σ} (related : R s s') :
    Alike R (Sum.LiftRel E Eq) (watch step ask s acts) (watch step (still ask) s' acts) := by
  induction acts generalizing s s' with
  | nil => exact .moved related .nil
  | cons act rest ih =>
      cases act with
      | inl a =>
          apply Alike.bind (bisimilar s s' a related)
          intro m m' events events' states seen
          apply Alike.map (ih states)
          intro last last' later later' states' seen'
          have first : List.Forall₂ (Sum.LiftRel E (Eq : ω → ω → Prop)) (events.map Sum.inl)
              (events'.map Sum.inl) := by
            rw [List.forall₂_map_left_iff, List.forall₂_map_right_iff]
            exact seen.imp fun _ _ same => .inl same
          exact ⟨states', List.rel_append first seen'⟩
      | inr q =>
          apply Alike.map (ih (silent.left s s' q related))
          intro last last' later later' states' seen'
          exact ⟨states', .cons (.inr (silent.answer s s' q related)) seen'⟩

variable (ask) in
/-- Questions that leave no trace can be left out. -/
theorem watch_still (acts : List (α ⊕ β)) (s : σ) :
    (watch step (still ask) s acts).map (fun r => (r.1, eventsIn r.2)) =
      (LabelledRun.exec step s (stepsIn acts)).map fun r => (r.1, LabelledRun.eventsOf r.2) := by
  induction acts generalizing s with
  | nil => rfl
  | cons act rest ih =>
      cases act with
      | inl a =>
          have steps : stepsIn (.inl a :: rest : List (α ⊕ β)) = a :: stepsIn rest := rfl
          rw [steps, watch, LabelledRun.exec]
          cases taken : step s a with
          | none => rfl
          | some r =>
              have later := ih r.1
              simp only [Option.bind_some, Option.map_map] at later ⊢
              cases run : watch step (still ask) r.1 rest with
              | none =>
                  cases ran : LabelledRun.exec step r.1 (stepsIn rest) with
                  | none => rfl
                  | some last => simp [run, ran] at later
              | some last =>
                  cases ran : LabelledRun.exec step r.1 (stepsIn rest) with
                  | none => simp [run, ran] at later
                  | some last' =>
                      simp only [run, ran, Option.map_some, Option.some.injEq, Prod.mk.injEq] at later
                      simp [later.1, later.2, LabelledRun.eventsOf]
      | inr q =>
          have steps : stepsIn (.inr q :: rest : List (α ⊕ β)) = stepsIn rest := rfl
          rw [steps, ← ih s, watch, Option.map_map]
          rfl

/-- So a watched run shows the events of the run that nobody watches. -/
theorem watch_events (bisimilar : Bisimulation step R E) (silent : Silent ask R)
    (acts : List (α ⊕ β)) {s s' : σ} (related : R s s') :
    Alike R E ((watch step ask s acts).map fun r => (r.1, eventsIn r.2))
      ((LabelledRun.exec step s' (stepsIn acts)).map fun r => (r.1, LabelledRun.eventsOf r.2)) := by
  rw [← watch_still ask]
  apply Alike.map (watch_agrees bisimilar silent acts related)
  intro last last' seen seen' states same
  exact ⟨states, forall₂_eventsIn same⟩

end Observation
