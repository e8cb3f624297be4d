import Mathlib

/-! Mapping and filtering a list by functions that may fail: the whole succeeds where every
call does, so the outcome does not depend on the order of the list. -/
namespace PartialList

variable {α β : Type}

theorem mapM_eq (f : α → Option β) (l : List α) :
    l.mapM f = if ∀ x ∈ l, (f x).isSome then some (l.filterMap f) else none := by
  induction l with
  | nil => rfl
  | cons x rest ih =>
      cases result : f x with
      | none => simp [result]
      | some y =>
          rw [List.mapM_cons, result, ih]
          by_cases all : ∀ x ∈ rest, (f x).isSome
          · rw [if_pos all, if_pos (by simpa [result] using all)]
            simp [result]
          · rw [if_neg all, if_neg (by simpa [result] using all)]
            rfl

/-- The elements that pass a test which may fail. -/
def keepM (keep : α → Option Bool) : List α → Option (List α)
  | [] => some []
  | x :: rest => do
      let pass ← keep x
      let kept ← keepM keep rest
      return if pass then x :: kept else kept

theorem keepM_eq (keep : α → Option Bool) (l : List α) :
    keepM keep l =
      if ∀ x ∈ l, (keep x).isSome then some (l.filter fun x => keep x = some true) else none := by
  induction l with
  | nil => rfl
  | cons x rest ih =>
      rw [keepM, ih]
      cases result : keep x with
      | none => simp [result]
      | some pass =>
          by_cases all : ∀ x ∈ rest, (keep x).isSome
          · rw [if_pos all, if_pos (by simpa [result] using all)]
            cases pass <;> simp [result]
          · rw [if_neg all, if_neg (by simpa [result] using all)]
            rfl

theorem mapM_congr {f g : α → Option β} {l : List α} (same : ∀ x ∈ l, f x = g x) :
    l.mapM f = l.mapM g := by
  induction l with
  | nil => rfl
  | cons x rest ih =>
      rw [List.mapM_cons, List.mapM_cons, same x List.mem_cons_self,
        ih fun y later => same y (List.mem_cons_of_mem _ later)]

/-- Mapping before the calls and after them can be done around the whole. -/
theorem mapM_map_map {γ δ : Type} {f : α → Option β} {g : γ → Option δ} {before : γ → α}
    {after : δ → β} {l : List γ} (each : ∀ x ∈ l, f (before x) = (g x).map after) :
    (l.map before).mapM f = (l.mapM g).map (List.map after) := by
  induction l with
  | nil => rfl
  | cons x rest ih =>
      have here := each x List.mem_cons_self
      have later := ih fun y member => each y (List.mem_cons_of_mem _ member)
      rw [List.map_cons, List.mapM_cons, List.mapM_cons, here, later]
      cases g x with
      | none => rfl
      | some y => cases rest.mapM g <;> rfl

theorem mem_of_mapM {f : α → Option β} {l : List α} {ys : List β} (eq : l.mapM f = some ys)
    {y : β} (member : y ∈ ys) : ∃ x ∈ l, f x = some y := by
  rw [mapM_eq] at eq
  split at eq
  · obtain rfl := Option.some.inj eq
    exact List.mem_filterMap.mp member
  · cases eq

/-- A function that undoes each call undoes the whole. -/
theorem map_of_mapM {f : α → Option β} {g : β → α} (undo : ∀ x y, f x = some y → g y = x)
    {l : List α} {ys : List β} (eq : l.mapM f = some ys) : ys.map g = l := by
  induction l generalizing ys with
  | nil =>
      obtain rfl : [] = ys := by simpa using eq
      rfl
  | cons x rest ih =>
      rw [List.mapM_cons] at eq
      obtain ⟨y, here, later⟩ := Option.bind_eq_some_iff.mp eq
      obtain ⟨zs, tail, same⟩ := Option.bind_eq_some_iff.mp later
      obtain rfl : y :: zs = ys := Option.some.inj same
      rw [List.map_cons, undo x y here, ih tail]

theorem mem_of_keepM {keep : α → Option Bool} {l kept : List α} (eq : keepM keep l = some kept)
    {x : α} (member : x ∈ kept) : x ∈ l := by
  rw [keepM_eq] at eq
  split at eq
  · obtain rfl := Option.some.inj eq
    exact List.mem_of_mem_filter member
  · cases eq

/-- Two outcomes are the same failure, or lists of the same elements. -/
def SameElements : Option (List α) → Option (List α) → Prop
  | none, none => True
  | some l, some l' => l.Perm l'
  | _, _ => False

theorem SameElements.refl (o : Option (List α)) : SameElements o o := by
  cases o with
  | none => trivial
  | some l => exact List.Perm.refl l

theorem sameElements_ite {P Q : Prop} [Decidable P] [Decidable Q] {l l' : List α} (iff : P ↔ Q)
    (perm : l.Perm l') : SameElements (if P then some l else none) (if Q then some l' else none) := by
  by_cases holds : P
  · rw [if_pos holds, if_pos (iff.mp holds)]
    exact perm
  · rw [if_neg holds, if_neg (iff.not.mp holds)]
    trivial

theorem mapM_perm {l l' : List α} (perm : l.Perm l') (f : α → Option β) :
    SameElements (l.mapM f) (l'.mapM f) := by
  rw [mapM_eq, mapM_eq]
  exact sameElements_ite (by simp only [perm.mem_iff]) (perm.filterMap f)

theorem keepM_perm {l l' : List α} (perm : l.Perm l') (keep : α → Option Bool) :
    SameElements (keepM keep l) (keepM keep l') := by
  rw [keepM_eq, keepM_eq]
  exact sameElements_ite (by simp only [perm.mem_iff]) (perm.filter _)

/-- A continuation that does not look at the order keeps the outcomes the same. -/
theorem SameElements.bind {o o' : Option (List α)} (same : SameElements o o')
    {f f' : List α → Option (List β)}
    (next : ∀ l l', o = some l → o' = some l' → l.Perm l' → SameElements (f l) (f' l')) :
    SameElements (o.bind f) (o'.bind f') := by
  cases o with
  | none =>
      cases o' with
      | none => trivial
      | some l' => exact same.elim
  | some l =>
      cases o' with
      | none => exact same.elim
      | some l' => exact next l l' rfl rfl same

end PartialList
