import Mathlib

/-! Sliding windows over a list of time stamps: what a queue trimmed from its front
still counts, and why an admission test on the window that ends now bounds every window. -/
namespace SlidingWindow

variable {τ : Type*} [AddCommGroup τ] [LinearOrder τ]

/-- The stamps not older than `width` at time `now`. -/
def recent (width now : τ) (stamps : List τ) : ℕ := stamps.countP (fun t => now - t ≤ width)

/-- A queue that keeps a final segment of the stamps, having dropped only expired ones. -/
def Keeps (width now : τ) (stamps queue : List τ) : Prop :=
  ∃ dropped, stamps = dropped ++ queue ∧ ∀ t ∈ dropped, width < now - t

theorem Keeps.refl (width now : τ) (stamps : List τ) : Keeps width now stamps stamps :=
  ⟨[], rfl, by simp⟩

theorem Keeps.later [IsOrderedAddMonoid τ] {width now now' : τ} {stamps queue : List τ}
    (h : Keeps width now stamps queue) (le : now ≤ now') : Keeps width now' stamps queue := by
  obtain ⟨dropped, eq, expired⟩ := h
  exact ⟨dropped, eq, fun t member => (expired t member).trans_le (sub_le_sub_right le t)⟩

theorem Keeps.push {width now : τ} {stamps queue : List τ} (h : Keeps width now stamps queue)
    (t : τ) : Keeps width now (stamps ++ [t]) (queue ++ [t]) := by
  obtain ⟨dropped, rfl, expired⟩ := h
  exact ⟨dropped, by simp, expired⟩

/-- Trimming expired stamps from the front keeps the relation. -/
theorem Keeps.trim {width now : τ} {stamps queue : List τ} (h : Keeps width now stamps queue) :
    Keeps width now stamps (queue.dropWhile (fun t => now - t > width)) := by
  obtain ⟨dropped, rfl, expired⟩ := h
  refine ⟨dropped ++ queue.takeWhile (fun t => now - t > width), ?_, ?_⟩
  · rw [List.append_assoc, List.takeWhile_append_dropWhile]
  · intro t member
    rcases List.mem_append.mp member with old | old
    · exact expired t old
    · simpa using List.mem_takeWhile_imp old

/-- A queue never counts fewer stamps than are recent. -/
theorem Keeps.recent_le {width now : τ} {stamps queue : List τ}
    (h : Keeps width now stamps queue) : recent width now stamps ≤ queue.length := by
  obtain ⟨dropped, rfl, expired⟩ := h
  have none_old : dropped.countP (fun t => decide (now - t ≤ width)) = 0 := by
    rw [List.countP_eq_zero]
    intro t member
    simp only [decide_eq_true_eq, not_le]
    exact expired t member
  rw [recent, List.countP_append, none_old, zero_add]
  exact List.countP_le_length

/-- Each stamp was admitted while fewer than `limit` earlier ones were recent. -/
def Admitted (width : τ) (limit : ℕ) (stamps : List τ) : Prop :=
  ∀ past t later, stamps = past ++ t :: later → recent width t past < limit

theorem Admitted.nil (width : τ) (limit : ℕ) : Admitted width limit ([] : List τ) := by
  intro past t later eq
  simp at eq

theorem Admitted.push {width : τ} {limit : ℕ} {stamps : List τ} (h : Admitted width limit stamps)
    {t : τ} (room : recent width t stamps < limit) : Admitted width limit (stamps ++ [t]) := by
  intro past u later eq
  rcases List.eq_nil_or_concat later with rfl | ⟨init, last, rfl⟩
  · obtain ⟨rfl, same⟩ := List.append_inj' eq rfl
    obtain rfl : t = u := by simpa using same
    exact room
  · have eq' : stamps ++ [t] = (past ++ u :: init) ++ [last] := by simpa using eq
    obtain ⟨rfl, -⟩ := List.append_inj' eq' rfl
    exact h past u init rfl

/-- Then no closed window of that width, wherever it lies, holds more than `limit`. -/
theorem Admitted.window_le [IsOrderedAddMonoid τ] {width : τ} {limit : ℕ} {stamps : List τ}
    (h : Admitted width limit stamps) (a : τ) :
    stamps.countP (fun t => a ≤ t ∧ t ≤ a + width) ≤ limit := by
  induction stamps using List.reverseRecOn with
  | nil => simp
  | append_singleton past t ih =>
      have before : Admitted width limit past := by
        intro earlier u later eq
        exact h earlier u (later ++ [t]) (by simp [eq])
      rw [List.countP_append, List.countP_singleton]
      split_ifs with inside
      · -- every stamp of the window that precedes `t` is recent at `t`
        have subset : past.countP (fun u => decide (a ≤ u ∧ u ≤ a + width)) ≤
            recent width t past := by
          apply List.countP_mono_left
          intro u _ within
          simp only [decide_eq_true_eq] at within inside ⊢
          calc t - u ≤ (a + width) - a := sub_le_sub inside.2 within.1
            _ = width := add_sub_cancel_left a width
        have room := h past t [] rfl
        omega
      · simpa using ih before

/-- A queue that has lost stamps from its front, each of them expired at one of the readings. -/
def Sheds (width : τ) (readings stamps queue : List τ) : Prop :=
  ∃ dropped, stamps = dropped ++ queue ∧ ∀ t ∈ dropped, ∃ now ∈ readings, width < now - t

theorem Sheds.refl (width : τ) (readings stamps : List τ) : Sheds width readings stamps stamps :=
  ⟨[], rfl, by simp⟩

theorem Sheds.trans {width : τ} {readings l₁ l₂ l₃ : List τ} (h₁ : Sheds width readings l₁ l₂)
    (h₂ : Sheds width readings l₂ l₃) : Sheds width readings l₁ l₃ := by
  obtain ⟨first, rfl, expired⟩ := h₁
  obtain ⟨second, rfl, later⟩ := h₂
  refine ⟨first ++ second, by rw [List.append_assoc], ?_⟩
  intro t member
  rcases List.mem_append.mp member with old | old
  · exact expired t old
  · exact later t old

theorem Sheds.trim {width now : τ} {readings : List τ} (reading : now ∈ readings)
    (queue : List τ) :
    Sheds width readings queue (queue.dropWhile (fun t => now - t > width)) := by
  refine ⟨queue.takeWhile (fun t => now - t > width), ?_, ?_⟩
  · rw [List.takeWhile_append_dropWhile]
  · intro t member
    exact ⟨now, reading, by simpa using List.mem_takeWhile_imp member⟩

/-! ### A queue that admits up to a limit -/

/-- Trimming a queue of nondecreasing stamps leaves exactly the recent ones. -/
theorem Keeps.trim_length [IsOrderedAddMonoid τ] {width now : τ} {stamps queue : List τ}
    (h : Keeps width now stamps queue) (sorted : stamps.Pairwise (· ≤ ·)) :
    (queue.dropWhile (fun t => now - t > width)).length = recent width now stamps := by
  obtain ⟨dropped, split, expired⟩ := h.trim
  have head := List.head?_dropWhile_not (fun t => decide (now - t > width)) queue
  generalize queue.dropWhile (fun t => decide (now - t > width)) = kept at split head ⊢
  subst split
  have none_old : dropped.countP (fun t => decide (now - t ≤ width)) = 0 := by
    rw [List.countP_eq_zero]
    intro t member
    simp only [decide_eq_true_eq, not_le]
    exact expired t member
  have all_new : kept.countP (fun t => decide (now - t ≤ width)) = kept.length := by
    rw [List.countP_eq_length]
    intro t member
    cases kept with
    | nil => simp at member
    | cons first rest =>
        have fresh : now - first ≤ width := by simpa using head
        have from_first : first ≤ t := by
          rcases List.mem_cons.mp member with rfl | later
          · exact le_rfl
          · exact (List.pairwise_cons.mp (List.pairwise_append.mp sorted).2.1).1 t later
        exact decide_eq_true ((sub_le_sub_left from_first now).trans fresh)
  rw [recent, List.countP_append, none_old, all_new, zero_add]

/-- At a reading that no stamp exceeds, at most `limit` admitted stamps are recent. -/
theorem Admitted.recent_le [IsOrderedAddMonoid τ] {width : τ} {limit : ℕ} {stamps : List τ}
    (h : Admitted width limit stamps) {now : τ} (past : ∀ t ∈ stamps, t ≤ now) :
    recent width now stamps ≤ limit := by
  apply le_trans _ (h.window_le (now - width))
  apply List.countP_mono_left
  intro t member within
  rw [decide_eq_true_eq] at within ⊢
  rw [sub_add_cancel]
  exact ⟨sub_le_comm.mp within, past t member⟩

section admission
variable (width : τ) (limit : ℕ)

/-- Expired stamps leave from the front; an arrival enters if fewer than `limit` are left. -/
def decideAt (queue : List τ) (now : τ) : Bool × List τ :=
  let queue := queue.dropWhile fun t => now - t > width
  if limit ≤ queue.length then (false, queue) else (true, queue ++ [now])

/-- The arrivals, each with its answer. -/
def serve : List τ → List τ → List (τ × Bool)
  | _, [] => []
  | queue, t :: rest =>
      (t, (decideAt width limit queue t).1) :: serve (decideAt width limit queue t).2 rest

def admitted (log : List (τ × Bool)) : List τ :=
  log.filterMap fun entry => if entry.2 then some entry.1 else none

variable {width limit}

/-- From a queue that keeps the stamps admitted so far: every stamp is admitted while there is
room, and an arrival is refused exactly when `limit` admitted stamps are recent. -/
theorem serve_spec [IsOrderedAddMonoid τ] {times : List τ} :
    ∀ stamps queue : List τ, (∀ t ∈ times, Keeps width t stamps queue) →
      (stamps ++ times).Pairwise (· ≤ ·) → Admitted width limit stamps →
      Admitted width limit (stamps ++ admitted (serve width limit queue times)) ∧
      ∀ past t answer later, serve width limit queue times = past ++ (t, answer) :: later →
        (answer = false ↔ recent width t (stamps ++ admitted past) = limit) := by
  induction times with
  | nil =>
      intro stamps queue _ _ room
      refine ⟨by simpa [serve, admitted] using room, ?_⟩
      intro past t answer later split
      simp [serve] at split
  | cons now rest ih =>
      intro stamps queue keeps sorted room
      have now_keeps := keeps now List.mem_cons_self
      obtain ⟨stamps_sorted, rest_sorted, before⟩ := List.pairwise_append.mp sorted
      have count := now_keeps.trim_length stamps_sorted
      have bound : recent width now stamps ≤ limit :=
        room.recent_le fun t member => before t member now List.mem_cons_self
      have from_now := (List.pairwise_cons.mp rest_sorted).1
      by_cases full : limit ≤ (queue.dropWhile (fun t => now - t > width)).length
      · have refused : decideAt width limit queue now =
            (false, queue.dropWhile (fun t => now - t > width)) := if_pos full
        obtain ⟨admitted_rest, exact_rest⟩ := ih stamps
          (queue.dropWhile (fun t => now - t > width))
          (fun t later => now_keeps.trim.later (from_now t later))
          (sorted.sublist ((List.sublist_cons_self now rest).append_left stamps)) room
        rw [serve, refused]
        refine ⟨by simpa [admitted] using admitted_rest, ?_⟩
        intro past t answer later split
        cases past with
        | nil =>
            obtain ⟨⟨rfl, rfl⟩, -⟩ := by simpa using split
            simp only [admitted, List.filterMap_nil, List.append_nil, true_iff]
            omega
        | cons entry past =>
            obtain ⟨rfl, tail⟩ := List.cons.inj split
            simpa [admitted] using exact_rest past t answer later tail
      · have entered : decideAt width limit queue now =
            (true, queue.dropWhile (fun t => now - t > width) ++ [now]) := if_neg full
        obtain ⟨admitted_rest, exact_rest⟩ := ih (stamps ++ [now])
          (queue.dropWhile (fun t => now - t > width) ++ [now])
          (fun t later => (now_keeps.trim.push now).later (from_now t later))
          (by simpa using sorted) (room.push (by omega))
        rw [serve, entered]
        refine ⟨by simpa [admitted] using admitted_rest, ?_⟩
        intro past t answer later split
        cases past with
        | nil =>
            obtain ⟨⟨rfl, rfl⟩, -⟩ := by simpa using split
            simp only [admitted, List.filterMap_nil, List.append_nil, reduceCtorEq, false_iff]
            omega
        | cons entry past =>
            obtain ⟨rfl, tail⟩ := List.cons.inj split
            simpa [admitted] using exact_rest past t answer later tail

/-- A queue that starts empty. -/
theorem serve_exact [IsOrderedAddMonoid τ] (width : τ) (limit : ℕ) {times : List τ}
    (sorted : times.Pairwise (· ≤ ·)) :
    Admitted width limit (admitted (serve width limit [] times)) ∧
    ∀ past t answer later, serve width limit [] times = past ++ (t, answer) :: later →
      (answer = false ↔ recent width t (admitted past) = limit) := by
  simpa using serve_spec [] [] (fun t _ => Keeps.refl width t [])
    (by simpa using sorted) (Admitted.nil width limit)

end admission
end SlidingWindow
