import Noxis.Library.LabelledRun

/-! Systems that carry a growing list of tasks. Every step is about one task or about none; a
task that is begun takes the next free number. What a task's own steps preserve holds of the
task in every interleaving with the others. -/
namespace LabelledRun

variable {σ α ε τ : Type*}

section lists
variable {l : List τ} {a b : τ} {i k : ℕ}

/-- What stands in a list with one entry more. -/
theorem found_snoc (found : (l ++ [a])[i]? = some b) :
    l[i]? = some b ∨ (i = l.length ∧ a = b) := by
  rcases Nat.lt_or_ge i l.length with inside | beyond
  · exact .inl (by rwa [List.getElem?_append_left inside] at found)
  · have bound := (List.getElem?_eq_some_iff.mp found).1
    rw [List.length_append, List.length_singleton] at bound
    obtain rfl : i = l.length := by omega
    exact .inr ⟨rfl, by simpa using found⟩

/-- What stands in a list with another entry at one place. -/
theorem found_set (found : (l.set k a)[i]? = some b) :
    (i = k ∧ b = a) ∨ (i ≠ k ∧ l[i]? = some b) := by
  by_cases same : i = k
  · subst same
    have inside := (List.getElem?_eq_some_iff.mp found).1
    rw [List.length_set] at inside
    rw [List.getElem?_set_self inside] at found
    exact .inl ⟨rfl, (Option.some.inj found).symm⟩
  · rw [List.getElem?_set_ne (Ne.symm same)] at found
    exact .inr ⟨same, found⟩

end lists

/-- A list of tasks of which a step begins one, resumes one, or touches none. -/
structure Tasks (step : σ → α → Option (σ × List ε)) (τ : Type*) where
  list : σ → List τ
  owner : σ → α → Option ℕ
  idle : ∀ {s s' a events}, step s a = some (s', events) → owner s a = none → list s' = list s
  own : ∀ {s s' a events i}, step s a = some (s', events) → owner s a = some i →
    (i = (list s).length ∧ ∃ st, list s' = list s ++ [st]) ∨
      ∃ st st', (list s)[i]? = some st ∧ list s' = (list s).set i st'

namespace Tasks

variable {step : σ → α → Option (σ × List ε)} (T : Tasks step τ)

/-- The steps about one task. -/
def stepsOf (i : ℕ) (ts : List (Transition σ α ε)) : List (Transition σ α ε) :=
  ts.filter fun t => T.owner t.before t.action = some i

variable {T} {i : ℕ} {ts : List (Transition σ α ε)} {t : Transition σ α ε}

theorem stepsOf_snoc_own (own : T.owner t.before t.action = some i) :
    T.stepsOf i (ts ++ [t]) = T.stepsOf i ts ++ [t] := by
  simp [stepsOf, List.filter_append, own]

theorem stepsOf_snoc_other (other : T.owner t.before t.action ≠ some i) :
    T.stepsOf i (ts ++ [t]) = T.stepsOf i ts := by
  simp [stepsOf, List.filter_append, other]

variable (T) in
/-- What is known of a task: the step that began it, and a property of its own steps so far. -/
def Known (P : Transition σ α ε → List (Transition σ α ε) → τ → Prop)
    (past : List (Transition σ α ε)) (i : ℕ) (st : τ) : Prop :=
  ∃ earlier t later, past = earlier ++ t :: later ∧ (T.list t.before).length = i ∧
    T.owner t.before t.action = some i ∧ P t (T.stepsOf i past) st

theorem Known.later {P : Transition σ α ε → List (Transition σ α ε) → τ → Prop} {st : τ}
    (known : T.Known P ts i st) (other : T.owner t.before t.action ≠ some i) :
    T.Known P (ts ++ [t]) i st := by
  obtain ⟨earlier, u, later, rfl, number, own, holds⟩ := known
  refine ⟨earlier, u, later ++ [t], by simp, number, own, ?_⟩
  rwa [stepsOf_snoc_other other]

variable (T) in
/-- Where the steps about no task show nothing that is counted, each thing counted is counted for
one task. -/
theorem countP_eventsOf (p : ε → Bool) {n : ℕ}
    (silent : ∀ t ∈ ts, T.owner t.before t.action = none → t.events.countP p = 0)
    (known : ∀ t ∈ ts, ∀ i, T.owner t.before t.action = some i → i < n) :
    (eventsOf ts).countP p = ∑ i ∈ Finset.range n, (eventsOf (T.stepsOf i ts)).countP p := by
  induction ts using List.reverseRecOn with
  | nil => simp [stepsOf]
  | append_singleton ts t ih =>
      have before := ih (fun u member => silent u (List.mem_append_left _ member))
        fun u member => known u (List.mem_append_left _ member)
      rw [eventsOf_snoc, List.countP_append, before]
      cases owned : T.owner t.before t.action with
      | none =>
          have other : ∀ i, T.owner t.before t.action ≠ some i := by simp [owned]
          rw [silent t (by simp) owned, Nat.add_zero]
          simp only [stepsOf_snoc_other (other _)]
      | some k =>
          have inside : k < n := known t (by simp) k owned
          have each : ∀ i, (eventsOf (T.stepsOf i (ts ++ [t]))).countP p =
              (eventsOf (T.stepsOf i ts)).countP p + if i = k then t.events.countP p else 0 := by
            intro i
            by_cases same : i = k
            · subst same
              rw [stepsOf_snoc_own owned, eventsOf_snoc, List.countP_append, if_pos rfl]
            · rw [stepsOf_snoc_other, if_neg same, Nat.add_zero]
              rw [owned]
              exact fun eq => same (Option.some.inj eq).symm
          simp only [each, Finset.sum_add_distrib, Finset.sum_ite_eq', Finset.mem_range, if_pos inside]

end Tasks

/-- A property that a task has when it is begun, and that its own steps preserve, holds of every
task in every state of a run. -/
theorem Run.each_task {step : σ → α → Option (σ × List ε)} (T : Tasks step τ)
    (P : Transition σ α ε → List (Transition σ α ε) → τ → Prop)
    {start s : σ}
    (begun : ∀ (t : Transition σ α ε) st, (∃ us, Run step start us t.before) → t.Valid step →
      T.owner t.before t.action = some (T.list t.before).length →
      T.list t.after = T.list t.before ++ [st] → P t [t] st)
    (resumed : ∀ (first t : Transition σ α ε) i past st st', (∃ us, Run step start us t.before) →
      t.Valid step → T.owner t.before t.action = some i → (T.list t.before)[i]? = some st →
      T.list t.after = (T.list t.before).set i st' → P first past st → P first (past ++ [t]) st')
    (empty : T.list start = []) {ts : List (Transition σ α ε)} (run : Run step start ts s) :
    ∀ i st, (T.list s)[i]? = some st → T.Known P ts i st := by
  have both : (∀ i st, (T.list s)[i]? = some st → T.Known P ts i st) ∧
      ∀ i, (T.list s).length ≤ i → T.stepsOf i ts = [] := by
    refine run.invariant (fun past s => (∀ i st, (T.list s)[i]? = some st → T.Known P past i st) ∧
      ∀ i, (T.list s).length ≤ i → T.stepsOf i past = []) ⟨?_, fun _ _ => rfl⟩ ?_
    · intro i st found
      rw [empty] at found
      cases found
    · rintro past t before ⟨known, quiet⟩ valid
      cases owned : T.owner t.before t.action with
      | none =>
          have other : ∀ i, T.owner t.before t.action ≠ some i := by simp [owned]
          rw [T.idle valid owned]
          refine ⟨fun i st found => (known i st found).later (other i), fun i free => ?_⟩
          rw [Tasks.stepsOf_snoc_other (other i)]
          exact quiet i free
      | some k =>
          have other : ∀ i, i ≠ k → T.owner t.before t.action ≠ some i := by
            intro i apart
            rw [owned]
            exact fun same => apart (Option.some.inj same).symm
          rcases T.own valid owned with ⟨rfl, new, list⟩ | ⟨old, next, found, list⟩
          · have first := begun t new ⟨past, before⟩ valid owned list
            rw [list]
            refine ⟨fun i st here => ?_, fun i free => ?_⟩
            · rcases found_snoc here with old | ⟨rfl, rfl⟩
              · have inside := (List.getElem?_eq_some_iff.mp old).1
                exact (known i st old).later (other i inside.ne)
              · refine ⟨past, t, [], rfl, rfl, owned, ?_⟩
                rw [Tasks.stepsOf_snoc_own owned, quiet _ le_rfl]
                exact first
            · rw [List.length_append, List.length_singleton] at free
              rw [Tasks.stepsOf_snoc_other (other i (by omega))]
              exact quiet i (by omega)
          · rw [list]
            refine ⟨fun i st here => ?_, fun i free => ?_⟩
            · rcases found_set here with ⟨rfl, rfl⟩ | ⟨apart, here⟩
              · obtain ⟨earlier, u, later, rfl, number, own, holds⟩ := known i old found
                refine ⟨earlier, u, later ++ [t], by simp, number, own, ?_⟩
                rw [Tasks.stepsOf_snoc_own owned]
                exact resumed u t i _ old st ⟨_, before⟩ valid owned found list holds
              · exact (known i st here).later (other i apart)
            · have inside := (List.getElem?_eq_some_iff.mp found).1
              rw [List.length_set] at free
              rw [Tasks.stepsOf_snoc_other (other i (by omega))]
              exact quiet i free
  exact both.1

end LabelledRun
