import Mathlib

/-! A store whose entries expire, against the list of all writes to it. An entry that is past its
deadline may still be there or be dropped; a lookup tells no difference. -/
namespace ExpiringStore

variable {κ α : Type*} [DecidableEq κ]

structure Write (κ α : Type*) where
  time : ℚ
  key : κ
  value : α

/-- The last write under a key. -/
def lastWrite (writes : List (Write κ α)) (key : κ) : Option (Write κ α) :=
  writes.reverse.find? fun w => w.key = key

section writes
variable {writes : List (Write κ α)} {w : Write κ α} {key : κ}

@[simp] theorem lastWrite_nil : lastWrite ([] : List (Write κ α)) key = none := rfl

theorem lastWrite_snoc_self (writes : List (Write κ α)) (w : Write κ α) :
    lastWrite (writes ++ [w]) w.key = some w := by
  simp [lastWrite]

theorem lastWrite_snoc_other (writes : List (Write κ α)) (other : w.key ≠ key) :
    lastWrite (writes ++ [w]) key = lastWrite writes key := by
  simp [lastWrite, other]

/-- What the last write is: one under the key, with none under it behind. -/
theorem lastWrite_eq_some_iff : lastWrite writes key = some w ↔
    w.key = key ∧ ∃ before after, writes = before ++ w :: after ∧ ∀ v ∈ after, v.key ≠ key := by
  induction writes using List.reverseRecOn with
  | nil => simp
  | append_singleton writes last ih =>
      by_cases here : last.key = key
      · subst here
        rw [lastWrite_snoc_self, Option.some.injEq]
        constructor
        · rintro rfl
          exact ⟨rfl, writes, [], rfl, by simp⟩
        · rintro ⟨same, before, after, split, quiet⟩
          rcases List.eq_nil_or_concat after with rfl | ⟨init, v, rfl⟩
          · exact (List.append_inj' split rfl).2 |> List.singleton_inj.mp
          · have ends : writes ++ [last] = (before ++ w :: init) ++ [v] := by simpa using split
            obtain rfl := List.singleton_inj.mp (List.append_inj' ends rfl).2
            exact absurd rfl (quiet last (by simp))
      · rw [lastWrite_snoc_other writes here, ih]
        refine and_congr_right fun same => ⟨?_, ?_⟩
        · rintro ⟨before, after, rfl, quiet⟩
          refine ⟨before, after ++ [last], by simp, fun v member => ?_⟩
          rcases List.mem_append.mp member with old | new
          · exact quiet v old
          · rw [List.mem_singleton.mp new]
            exact here
        · rintro ⟨before, after, split, quiet⟩
          rcases List.eq_nil_or_concat after with rfl | ⟨init, v, rfl⟩
          · obtain rfl := List.singleton_inj.mp (List.append_inj' split rfl).2
            exact absurd same here
          · have ends : writes ++ [last] = (before ++ w :: init) ++ [v] := by simpa using split
            refine ⟨before, init, (List.append_inj' ends rfl).1, fun u member => ?_⟩
            exact quiet u (by simp [member])

end writes

/-- When an entry of a deadline is past it, which stays so. -/
structure Deadline where
  past : ℚ → ℚ → Bool
  stays : ∀ {now later deadline}, now ≤ later → past now deadline = true → past later deadline = true

/-- What a lookup finds among the entries, each with its deadline. -/
def look (d : Deadline) (now : ℚ) (entries : κ → Option (ℚ × α)) (key : κ) : Option α :=
  ((entries key).filter fun e => !d.past now e.1).map Prod.snd

/-- The last write under a key, if it is not past its deadline. -/
def alive (d : Deadline) (ttl now : ℚ) (writes : List (Write κ α)) (key : κ) : Option (Write κ α) :=
  (lastWrite writes key).filter fun w => !d.past now (w.time + ttl)

/-- The entries against the writes: an entry is the last write under its key, and where there is
none, the last write is past its deadline. -/
structure Mirrors (d : Deadline) (ttl now : ℚ) (writes : List (Write κ α))
    (entries : κ → Option (ℚ × α)) : Prop where
  kept : ∀ key e, entries key = some e →
    ∃ w, lastWrite writes key = some w ∧ e = (w.time + ttl, w.value)
  dropped : ∀ key w, entries key = none → lastWrite writes key = some w →
    d.past now (w.time + ttl) = true

section mirrors
variable {d : Deadline} {ttl now : ℚ} {writes : List (Write κ α)} {entries : κ → Option (ℚ × α)}

theorem mirrors_nil (d : Deadline) (ttl now : ℚ) :
    Mirrors d ttl now ([] : List (Write κ α)) fun _ => none where
  kept _ _ found := by cases found
  dropped _ _ _ written := by cases written

theorem Mirrors.later (h : Mirrors d ttl now writes entries) {time : ℚ} (le : now ≤ time) :
    Mirrors d ttl time writes entries where
  kept := h.kept
  dropped key w gone written := d.stays le (h.dropped key w gone written)

/-- A write puts its entry in the place of the one under its key. -/
theorem Mirrors.put (h : Mirrors d ttl now writes entries) (key : κ) (value : α) :
    Mirrors d ttl now (writes ++ [⟨now, key, value⟩])
      (Function.update entries key (some (now + ttl, value))) where
  kept k e found := by
    by_cases same : k = key
    · subst same
      rw [Function.update_self] at found
      exact ⟨_, lastWrite_snoc_self writes ⟨now, k, value⟩, (Option.some.inj found).symm⟩
    · rw [Function.update_of_ne same] at found
      rw [lastWrite_snoc_other writes (Ne.symm same)]
      exact h.kept k e found
  dropped k w gone written := by
    by_cases same : k = key
    · subst same
      rw [Function.update_self] at gone
      cases gone
    · rw [Function.update_of_ne same] at gone
      rw [lastWrite_snoc_other writes (Ne.symm same)] at written
      exact h.dropped k w gone written

/-- An entry past its deadline can be dropped. -/
theorem Mirrors.drop (h : Mirrors d ttl now writes entries) {key : κ} {e : ℚ × α}
    (found : entries key = some e) (past : d.past now e.1 = true) :
    Mirrors d ttl now writes (Function.update entries key none) where
  kept k e' found' := by
    by_cases same : k = key
    · subst same
      rw [Function.update_self] at found'
      cases found'
    · rw [Function.update_of_ne same] at found'
      exact h.kept k e' found'
  dropped k w gone written := by
    by_cases same : k = key
    · subst same
      obtain ⟨v, last, rfl⟩ := h.kept k e found
      obtain rfl : v = w := Option.some.inj (last.symm.trans written)
      exact past
    · rw [Function.update_of_ne same] at gone
      exact h.dropped k w gone written

/-- A lookup finds the last write under its key while that is alive. -/
theorem Mirrors.look_eq (h : Mirrors d ttl now writes entries) (key : κ) :
    look d now entries key = (alive d ttl now writes key).map Write.value := by
  cases found : entries key with
  | some e =>
      obtain ⟨w, last, rfl⟩ := h.kept key e found
      cases past : d.past now (w.time + ttl) <;>
        simp [look, alive, found, last, past, Option.filter_some]
  | none =>
      cases written : lastWrite writes key with
      | none => simp [look, alive, found, written]
      | some w =>
          simp [look, alive, found, written, h.dropped key w found written, Option.filter_some]

end mirrors
end ExpiringStore
