import Mathlib

/-! Counting into a dictionary: `d[k] = d.get(k, 0) + 1` for one key after the other. The
dictionary keeps its keys in the order in which they were first seen. -/
namespace Tally

variable {κ : Type*} [DecidableEq κ]

def bump (d : List (κ × ℕ)) (k : κ) : List (κ × ℕ) :=
  match d with
  | [] => [(k, 1)]
  | (j, n) :: rest => if j = k then (j, n + 1) :: rest else (j, n) :: bump rest k

def tally (keys : List κ) : List (κ × ℕ) := keys.foldl bump []

/-- `d.get(k, 0)`. -/
def count (d : List (κ × ℕ)) (k : κ) : ℕ :=
  match d with
  | [] => 0
  | (j, n) :: rest => if j = k then n else count rest k

section bump
variable (d : List (κ × ℕ)) (k j : κ)

theorem count_bump : count (bump d k) j = count d j + if k = j then 1 else 0 := by
  induction d with
  | nil => simp [bump, count]
  | cons entry rest ih =>
      obtain ⟨i, n⟩ := entry
      by_cases here : i = k
      · subst here
        by_cases same : i = j <;> simp [bump, count, same]
      · by_cases same : i = j
        · subst same
          simp [bump, count, here, Ne.symm here]
        · simp [bump, count, here, same, ih]

theorem sum_bump : ((bump d k).map Prod.snd).sum = (d.map Prod.snd).sum + 1 := by
  induction d with
  | nil => rfl
  | cons entry rest ih =>
      obtain ⟨i, n⟩ := entry
      by_cases here : i = k
      · simp only [bump, if_pos here, List.map_cons, List.sum_cons]
        omega
      · simp only [bump, if_neg here, List.map_cons, List.sum_cons, ih]
        omega

end bump

section fold
variable (keys : List κ)

theorem tally_snoc (k : κ) : tally (keys ++ [k]) = bump (tally keys) k := by
  simp [tally]

/-- Each value is counted as often as it occurs. -/
theorem count_tally (j : κ) : count (tally keys) j = keys.count j := by
  induction keys using List.reverseRecOn with
  | nil => rfl
  | append_singleton keys k ih =>
      rw [tally_snoc, count_bump, ih, List.count_append, List.count_singleton]
      by_cases same : k = j <;> simp [same]

/-- A key is counted once for every item that has it. -/
theorem count_tally_map {α : Type*} (key : α → κ) (items : List α) (j : κ) :
    count (tally (items.map key)) j = items.countP fun x => key x = j := by
  rw [count_tally, List.count_eq_countP, List.countP_map]
  apply List.countP_congr
  intro x _
  simp

/-- Every occurrence is counted once. -/
theorem sum_tally : ((tally keys).map Prod.snd).sum = keys.length := by
  induction keys using List.reverseRecOn with
  | nil => rfl
  | append_singleton keys k ih =>
      rw [tally_snoc, sum_bump, ih, List.length_append]
      rfl

end fold

section items
variable {α : Type*} (key : α → Option κ) (items : List α)

theorem sum_ite_eq_count (j : κ) (keys : List κ) :
    (keys.map fun k => if j = k then 1 else 0).sum = keys.count j := by
  induction keys with
  | nil => rfl
  | cons k rest ih =>
      rw [List.map_cons, List.sum_cons, ih, List.count_cons, add_comm]
      by_cases same : j = k
      · simp [same]
      · simp [same, Ne.symm same]

/-- An item has one key at most, so distinct keys share the items that have one. -/
theorem sum_countP_le {keys : List κ} (distinct : keys.Nodup) :
    (keys.map fun k => items.countP fun x => key x = some k).sum ≤
      items.countP fun x => (key x).isSome := by
  induction items with
  | nil => simp
  | cons x rest ih =>
      simp only [List.countP_cons, List.sum_map_add]
      refine Nat.add_le_add ih ?_
      cases keyed : key x with
      | none => simp
      | some j =>
          have once := List.nodup_iff_count_le_one.mp distinct j
          simpa [sum_ite_eq_count] using once

variable {items} in
/-- Distinct positions of items that pass a test are no more than such items. -/
theorem length_le_countP {p : α → Bool} {is : List ℕ} (distinct : is.Nodup)
    (passes : ∀ i ∈ is, ∃ x, items[i]? = some x ∧ p x = true) : is.length ≤ items.countP p := by
  induction items using List.reverseRecOn generalizing is with
  | nil =>
      cases is with
      | nil => exact Nat.zero_le _
      | cons i is =>
          obtain ⟨x, found, -⟩ := passes i (by simp)
          simp at found
  | append_singleton items y ih =>
      have inside : ∀ i ∈ is, i ≠ items.length → ∃ x, items[i]? = some x ∧ p x = true := by
        intro i member apart
        obtain ⟨x, found, passed⟩ := passes i member
        have bound := (List.getElem?_eq_some_iff.mp found).1
        rw [List.length_append, List.length_singleton] at bound
        rw [List.getElem?_append_left (by omega)] at found
        exact ⟨x, found, passed⟩
      have others := ih (distinct.erase items.length) fun i member =>
        inside i (List.mem_of_mem_erase member) (distinct.mem_erase_iff.mp member).1
      rw [List.countP_append, List.countP_singleton]
      by_cases last : items.length ∈ is
      · obtain ⟨x, found, passed⟩ := passes _ last
        obtain rfl : y = x := by simpa using found
        rw [if_pos passed]
        have := List.length_erase_add_one last
        omega
      · rw [List.erase_of_not_mem last] at others
        omega

end items
end Tally
