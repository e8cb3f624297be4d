import Mathlib

/-! Noninterference by purging. A system answers its inputs one after the other, and some of them
are an observer's. Where the others leave the state alike for the observer, all that the observer
is answered is what it would be answered if they had never come. -/
namespace Purge

variable {σ α ω : Type*}

/-- Every input with its answer. -/
def answers (handle : σ → α → ω × σ) : σ → List α → List (α × ω)
  | _, [] => []
  | s, a :: rest => (a, (handle s a).1) :: answers handle (handle s a).2 rest

/-- The state behind a list of inputs. -/
def final (handle : σ → α → ω × σ) : σ → List α → σ
  | s, [] => s
  | s, a :: rest => final handle (handle s a).2 rest

/-- One input at a time: a hidden one leaves the state alike, and a visible one is answered alike in
states that are alike, and keeps them so. -/
structure Unwinding (handle : σ → α → ω × σ) (visible : α → Bool) (Alike : σ → σ → Prop) :
    Prop where
  hidden : ∀ s s' a, visible a = false → Alike s s' → Alike (handle s a).2 s'
  answer : ∀ s s' a, visible a = true → Alike s s' → (handle s a).1 = (handle s' a).1
  next : ∀ s s' a, visible a = true → Alike s s' → Alike (handle s a).2 (handle s' a).2

section purge
variable {handle : σ → α → ω × σ} {visible : α → Bool} {Alike : σ → σ → Prop}

theorem final_purged (unwinding : Unwinding handle visible Alike) (inputs : List α) {s s' : σ}
    (alike : Alike s s') :
    Alike (final handle s inputs) (final handle s' (inputs.filter visible)) := by
  induction inputs generalizing s s' with
  | nil => exact alike
  | cons a rest ih =>
      cases seen : visible a with
      | true =>
          rw [List.filter_cons_of_pos seen]
          exact ih (unwinding.next s s' a seen alike)
      | false =>
          rw [List.filter_cons_of_neg (by simp [seen])]
          exact ih (unwinding.hidden s s' a seen alike)

theorem answers_purged (unwinding : Unwinding handle visible Alike) (inputs : List α) {s s' : σ}
    (alike : Alike s s') :
    (answers handle s inputs).filter (fun entry => visible entry.1) =
      answers handle s' (inputs.filter visible) := by
  induction inputs generalizing s s' with
  | nil => rfl
  | cons a rest ih =>
      cases seen : visible a with
      | true =>
          rw [answers, List.filter_cons_of_pos (by simpa using seen), List.filter_cons_of_pos seen,
            answers, ih (unwinding.next s s' a seen alike), unwinding.answer s s' a seen alike]
      | false =>
          rw [answers, List.filter_cons_of_neg (by simp [seen]),
            List.filter_cons_of_neg (by simp [seen])]
          exact ih (unwinding.hidden s s' a seen alike)

end purge

/-- What holds at the start, and is kept by each input, holds of every answer and at the end. -/
theorem answers_forall {handle : σ → α → ω × σ} (I : σ → Prop) (P : α → ω → Prop)
    (kept : ∀ s a, I s → I (handle s a).2) (good : ∀ s a, I s → P a (handle s a).1)
    (inputs : List α) {s : σ} (start : I s) :
    (∀ entry ∈ answers handle s inputs, P entry.1 entry.2) ∧ I (final handle s inputs) := by
  induction inputs generalizing s with
  | nil => exact ⟨by simp [answers], start⟩
  | cons a rest ih =>
      obtain ⟨later, last⟩ := ih (kept s a start)
      refine ⟨fun entry member => ?_, last⟩
      rcases List.mem_cons.mp member with rfl | member
      · exact good s a start
      · exact later entry member

end Purge
