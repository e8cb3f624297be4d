import Mathlib

/-! Texts with quoted parts, escapes inside them, and separators that may only stand inside.
What a cut at the separators does to such a text. -/
namespace QuotedText

/-- Where a reader of the text stands. -/
inductive Mode where
  | outside
  | inside
  | escaped
  deriving DecidableEq

section scan
variable (sep space : Char → Bool)

/-- One character on; no escape and no separator stands outside, no space behind an escape. -/
def next : Mode → Char → Option Mode
  | .outside, c =>
      if c = '"' then some .inside else if c = '\\' ∨ sep c = true then none else some .outside
  | .inside, c =>
      if c = '"' then some .outside else if c = '\\' then some .escaped else some .inside
  | .escaped, c => if space c then none else some .inside

def run : Mode → List Char → Option Mode
  | m, [] => some m
  | m, c :: rest => (next sep space m c).bind fun m => run m rest

end scan

variable {sep space : Char → Bool}

@[simp] theorem run_nil (m : Mode) : run sep space m [] = some m := rfl

@[simp] theorem run_cons (m : Mode) (c : Char) (rest : List Char) :
    run sep space m (c :: rest) = (next sep space m c).bind fun m => run sep space m rest := rfl

theorem run_append (m : Mode) (xs ys : List Char) :
    run sep space m (xs ++ ys) = (run sep space m xs).bind fun m => run sep space m ys := by
  induction xs generalizing m with
  | nil => rfl
  | cons c rest ih =>
      rw [List.cons_append, run_cons, run_cons, Option.bind_assoc]
      congr 1
      funext m
      exact ih m

theorem run_after {m mid : Mode} {xs : List Char} (ran : run sep space m xs = some mid)
    (ys : List Char) : run sep space m (xs ++ ys) = run sep space mid ys := by
  rw [run_append, ran, Option.bind_some]

/-- A text that is read in two parts is read in each. -/
theorem run_split {m e : Mode} {xs ys : List Char} (ran : run sep space m (xs ++ ys) = some e) :
    ∃ mid, run sep space m xs = some mid ∧ run sep space mid ys = some e := by
  rw [run_append] at ran
  exact Option.bind_eq_some_iff.mp ran

/-- Plain characters leave a reader outside where it is. -/
theorem run_outside {t : List Char} (plain : ∀ c ∈ t, c ≠ '"' ∧ c ≠ '\\' ∧ sep c = false) :
    run sep space .outside t = some .outside := by
  induction t with
  | nil => rfl
  | cons c rest ih =>
      obtain ⟨quote, escape, mark⟩ := plain c List.mem_cons_self
      rw [run_cons, next, if_neg quote, if_neg (by simp [escape, mark]), Option.bind_some]
      exact ih fun d member => plain d (List.mem_cons_of_mem _ member)

theorem run_inside {t : List Char} (plain : ∀ c ∈ t, c ≠ '"' ∧ c ≠ '\\') :
    run sep space .inside t = some .inside := by
  induction t with
  | nil => rfl
  | cons c rest ih =>
      obtain ⟨quote, escape⟩ := plain c List.mem_cons_self
      rw [run_cons, next, if_neg quote, if_neg escape, Option.bind_some]
      exact ih fun d member => plain d (List.mem_cons_of_mem _ member)

/-- A class without quote and escape holds neither. -/
theorem apart_of_class {p : Char → Bool} (quote : p '"' = false) (escape : p '\\' = false)
    {c : Char} (here : p c = true) : c ≠ '"' ∧ c ≠ '\\' := by
  constructor
  · rintro rfl
    exact absurd (quote.symm.trans here) (by decide)
  · rintro rfl
    exact absurd (escape.symm.trans here) (by decide)

/-- Spaces never change where the reader stands. -/
theorem run_spaces {m e : Mode} {t : List Char} (quote : space '"' = false)
    (escape : space '\\' = false) (blank : ∀ c ∈ t, space c = true)
    (ran : run sep space m t = some e) : e = m := by
  induction t generalizing m with
  | nil => exact (Option.some.inj ran).symm
  | cons c rest ih =>
      have here := blank c List.mem_cons_self
      have apart := apart_of_class quote escape here
      obtain ⟨mid, moved, rest_ran⟩ := Option.bind_eq_some_iff.mp ran
      have same := ih (fun d member => blank d (List.mem_cons_of_mem _ member)) rest_ran
      cases m with
      | outside =>
          rw [next, if_neg apart.1] at moved
          split_ifs at moved
          exact same.trans (Option.some.inj moved).symm
      | inside =>
          rw [next, if_neg apart.1, if_neg apart.2] at moved
          exact same.trans (Option.some.inj moved).symm
      | escaped => simp [next, here] at moved

/-- A reader moves over a text as it does over the text with spaces around it. -/
theorem run_trim {m e : Mode} {l t r : List Char} (quote : space '"' = false)
    (escape : space '\\' = false) (left : ∀ c ∈ l, space c = true) (right : ∀ c ∈ r, space c = true)
    (ran : run sep space m (l ++ (t ++ r)) = some e) : run sep space m t = some e := by
  obtain ⟨mid, first, ran⟩ := run_split ran
  obtain ⟨mid', second, third⟩ := run_split ran
  rw [run_spaces quote escape left first] at second
  rw [run_spaces quote escape right third]
  exact second

/-- A text that two readers at opposite sides of a quote can read holds no escape. -/
theorem no_escape {m m' e e' : Mode} {t : List Char}
    (opposite : m = .inside ∧ m' = .outside ∨ m = .outside ∧ m' = .inside)
    (ran : run sep space m t = some e) (ran' : run sep space m' t = some e') : '\\' ∉ t := by
  induction t generalizing m m' with
  | nil => exact List.not_mem_nil
  | cons c rest ih =>
      obtain ⟨mid, moved, rest_ran⟩ := Option.bind_eq_some_iff.mp ran
      obtain ⟨mid', moved', rest_ran'⟩ := Option.bind_eq_some_iff.mp ran'
      by_cases quote : c = '"'
      · subst quote
        refine List.not_mem_cons_of_ne_of_not_mem (by decide) (ih ?_ rest_ran rest_ran')
        rcases opposite with ⟨rfl, rfl⟩ | ⟨rfl, rfl⟩
        · exact .inr ⟨(Option.some.inj moved).symm, (Option.some.inj moved').symm⟩
        · exact .inl ⟨(Option.some.inj moved).symm, (Option.some.inj moved').symm⟩
      · -- the reader outside refuses an escape
        have plain : c ≠ '\\' := by
          rintro rfl
          rcases opposite with ⟨-, rfl⟩ | ⟨rfl, -⟩
          · simp [next] at moved'
          · simp [next] at moved
        refine List.not_mem_cons_of_ne_of_not_mem plain.symm (ih ?_ rest_ran rest_ran')
        rcases opposite with ⟨rfl, rfl⟩ | ⟨rfl, rfl⟩
        · rw [next, if_neg quote, if_neg plain] at moved
          rw [next, if_neg quote] at moved'
          split_ifs at moved'
          exact .inl ⟨(Option.some.inj moved).symm, (Option.some.inj moved').symm⟩
        · rw [next, if_neg quote] at moved
          rw [next, if_neg quote, if_neg plain] at moved'
          split_ifs at moved
          exact .inr ⟨(Option.some.inj moved).symm, (Option.some.inj moved').symm⟩

/-- The pieces of a text cut at its separators: the reader stands inside wherever it is cut. -/
theorem pieces_of_run {m e : Mode} {t : List Char} (quote : sep '"' = false)
    (escape : sep '\\' = false) (spaces : ∀ c, sep c = true → space c = true)
    (ran : run sep space m t = some e) :
    ∃ first later, t.splitOnP sep = first :: later ∧
      (∀ piece ∈ later, ∃ e', run sep space .inside piece = some e') ∧
      ∃ e', run sep space m first = some e' ∧ ((∃ c ∈ t, sep c = true) → e' = .inside) := by
  induction t generalizing m with
  | nil => exact ⟨[], [], rfl, by simp, m, rfl, by simp⟩
  | cons c rest ih =>
      obtain ⟨mid, moved, rest_ran⟩ := Option.bind_eq_some_iff.mp ran
      obtain ⟨first, later, split, tail, e', head, cut⟩ := ih rest_ran
      rw [List.splitOnP_cons_eq_if_modifyHead, split]
      by_cases mark : sep c = true
      · -- a separator is read inside only, and leaves the reader there
        have apart := apart_of_class quote escape mark
        have stays : m = .inside ∧ mid = .inside := by
          cases m with
          | outside => simp [next, apart.1, mark] at moved
          | inside =>
              rw [next, if_neg apart.1, if_neg apart.2] at moved
              exact ⟨rfl, (Option.some.inj moved).symm⟩
          | escaped => simp [next, spaces c mark] at moved
        rw [if_pos mark]
        refine ⟨[], first :: later, rfl, ?_, m, rfl, fun _ => stays.1⟩
        intro piece member
        rcases List.mem_cons.mp member with rfl | member
        · exact ⟨e', stays.2 ▸ head⟩
        · exact tail piece member
      · rw [if_neg mark]
        refine ⟨c :: first, later, rfl, tail, e', ?_, ?_⟩
        · rw [run_cons, moved]
          exact head
        · rintro ⟨d, member, marked⟩
          rcases List.mem_cons.mp member with rfl | member
          · exact absurd marked mark
          · exact cut ⟨d, member, marked⟩

end QuotedText
