import Mathlib

/-! Insertion sort is stable: of two elements that each may precede the other, the one that
came first in the list comes first in the sorted list. -/
namespace StableSort

variable {α : Type*} (r : α → α → Prop)

/-- `a` may precede `b`, and if `b` may precede `a` as well then `a` came first in `l`. -/
def Before (l : List α) (a b : α) : Prop := r a b ∧ (r b a → [a, b].Sublist l)

variable {r} in
theorem Before.cons {l : List α} {a b : α} (h : Before r l a b) (x : α) :
    Before r (x :: l) a b :=
  ⟨h.1, fun tie => (h.2 tie).cons x⟩

variable {r} in
/-- In a sorted list an element comes first if the other one may not precede it. -/
theorem pair_sublist {l : List α} {a b : α} (sorted : l.Pairwise r) (memberA : a ∈ l)
    (memberB : b ∈ l) (differ : a ≠ b) (never : ¬ r b a) : [a, b].Sublist l := by
  induction l with
  | nil => exact absurd memberA List.not_mem_nil
  | cons x rest ih =>
      obtain ⟨head, tail⟩ := List.pairwise_cons.mp sorted
      rcases List.mem_cons.mp memberA with rfl | laterA
      · have laterB := (List.mem_cons.mp memberB).resolve_left differ.symm
        exact (List.singleton_sublist.mpr laterB).cons_cons a
      · rcases List.mem_cons.mp memberB with rfl | laterB
        · exact absurd (head a laterA) never
        · exact (ih tail laterA laterB).cons x

variable [DecidableRel r]

theorem pairwise_orderedInsert [Std.Total r] [IsTrans α r] {l sorted : List α} {x : α}
    (before : sorted.Pairwise (Before r l)) (first : ∀ y ∈ sorted, [x, y].Sublist l) :
    (sorted.orderedInsert r x).Pairwise (Before r l) := by
  induction sorted with
  | nil => simp
  | cons y rest ih =>
      obtain ⟨head, tail⟩ := List.pairwise_cons.mp before
      by_cases precedes : r x y
      · rw [List.orderedInsert_cons, if_pos precedes]
        apply List.pairwise_cons.mpr ⟨?_, before⟩
        intro z member
        refine ⟨?_, fun _ => first z member⟩
        rcases List.mem_cons.mp member with rfl | later
        · exact precedes
        · exact trans_of r precedes (head z later).1
      · rw [List.orderedInsert_cons, if_neg precedes]
        refine List.pairwise_cons.mpr ⟨?_, ih tail fun z later => first z (.tail y later)⟩
        intro z member
        rcases (List.mem_orderedInsert r).mp member with rfl | later
        · exact ⟨(total_of r y z).resolve_right precedes, fun tie => absurd tie precedes⟩
        · exact head z later

theorem pairwise_insertionSort [Std.Total r] [IsTrans α r] (l : List α) :
    (l.insertionSort r).Pairwise (Before r l) := by
  induction l with
  | nil => simp
  | cons x rest ih =>
      rw [List.insertionSort_cons]
      apply pairwise_orderedInsert
      · exact ih.imp fun before => before.cons x
      · intro y member
        exact (List.singleton_sublist.mpr ((List.mem_insertionSort r).mp member)).cons_cons x

end StableSort
