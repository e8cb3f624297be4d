import Mathlib

/-! Exponential averages: the first observation is taken as it is, and each later one moves the
average part of the way. Such an average never leaves a convex set its observations lie in. -/
namespace ExponentialAverage

section Module
variable {K E : Type*} [Field K] [AddCommGroup E] [Module K E]

/-- The average after one more observation; `keep` is the weight of what was there. -/
def step (keep : K) : Option E → E → E
  | none, x => x
  | some prev, x => keep • prev + (1 - keep) • x

def average (keep : K) (xs : List E) : Option E :=
  xs.foldl (fun avg x => some (step keep avg x)) none

@[simp] theorem average_nil (keep : K) : average keep ([] : List E) = none := rfl

theorem average_concat (keep : K) (xs : List E) (x : E) :
    average keep (xs ++ [x]) = some (step keep (average keep xs) x) := by
  simp only [average, List.foldl_append, List.foldl_cons, List.foldl_nil]

variable [LinearOrder K] [IsStrictOrderedRing K] {keep : K} {S : Set E}

theorem step_mem (convex : Convex K S) (nonneg : 0 ≤ keep) (le_one : keep ≤ 1) {x : E}
    (new : x ∈ S) {before : Option E} (old : ∀ prev, before = some prev → prev ∈ S) :
    step keep before x ∈ S := by
  cases before with
  | none => exact new
  | some prev =>
      exact convex (old prev rfl) new nonneg (sub_nonneg.mpr le_one) (add_sub_cancel keep 1)

theorem average_mem (convex : Convex K S) (nonneg : 0 ≤ keep) (le_one : keep ≤ 1)
    {xs : List E} (inside : ∀ x ∈ xs, x ∈ S) {avg : E} (eq : average keep xs = some avg) :
    avg ∈ S := by
  induction xs using List.reverseRecOn generalizing avg with
  | nil => simp at eq
  | append_singleton xs x ih =>
      rw [average_concat, Option.some.injEq] at eq
      subst eq
      apply step_mem convex nonneg le_one (inside x (by simp))
      intro prev before
      exact ih (fun y member => inside y (by simp [member])) before

end Module

section Order
variable {K : Type*} [Field K] [LinearOrder K] [IsStrictOrderedRing K] {keep : K}

/-- An average of numbers lies between the least and the greatest of them. -/
theorem average_between (nonneg : 0 ≤ keep) (le_one : keep ≤ 1) {xs : List K} {avg : K}
    (eq : average keep xs = some avg) :
    ∃ lo hi, xs.min? = some lo ∧ xs.max? = some hi ∧ lo ≤ avg ∧ avg ≤ hi := by
  have observed : xs ≠ [] := by
    intro empty
    simp [empty] at eq
  obtain ⟨lo, least⟩ := Option.ne_none_iff_exists'.mp (mt List.min?_eq_none_iff.mp observed)
  obtain ⟨hi, greatest⟩ := Option.ne_none_iff_exists'.mp (mt List.max?_eq_none_iff.mp observed)
  have inside : ∀ x ∈ xs, x ∈ Set.Icc lo hi := by
    intro x member
    exact ⟨(List.min?_eq_some_iff.mp least).2 x member,
      (List.max?_eq_some_iff.mp greatest).2 x member⟩
  have between := average_mem (convex_Icc lo hi) nonneg le_one inside eq
  exact ⟨lo, hi, least, greatest, between.1, between.2⟩

end Order
end ExponentialAverage
