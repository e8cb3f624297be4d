import Mathlib

/-! Search and replace with patterns that are read greedily from left to right: a lead made
of pieces, then the longest run of body symbols. Where no piece can take a symbol that a
later piece needs, this is what a backtracking matcher finds. -/
namespace GreedyPattern

variable {α : Type*}

/-- The list is empty or starts outside the class. -/
def Foreign (cls : α → Bool) (y : List α) : Prop := ∀ x ∈ y.head?, cls x = false

theorem Foreign.mono {c d : α → Bool} {y : List α} (foreign : Foreign d y)
    (le : ∀ x, c x = true → d x = true) : Foreign c y := by
  intro x first
  by_contra inside
  have wider := le x (by simpa using inside)
  rw [foreign x first] at wider
  contradiction

inductive Piece (α : Type*) where
  | one (cls : α → Bool)
  | opt (cls : α → Bool)
  | many (cls : α → Bool)

namespace Piece

def cls : Piece α → α → Bool
  | .one c | .opt c | .many c => c

/-- What the piece takes from the front of the text, and what it leaves. -/
def take : Piece α → List α → Option (List α × List α)
  | .one _, [] => none
  | .one c, x :: t => if c x then some ([x], t) else none
  | .opt _, [] => some ([], [])
  | .opt c, x :: t => if c x then some ([x], t) else some ([], x :: t)
  | .many c, t => some (t.takeWhile c, t.dropWhile c)

theorem take_split {p : Piece α} {t w r : List α} (taken : p.take t = some (w, r)) : w ++ r = t := by
  cases p with
  | one c =>
      cases t with
      | nil => simp [take] at taken
      | cons x t =>
          by_cases inside : c x = true
          · obtain ⟨rfl, rfl⟩ : [x] = w ∧ t = r := by simpa [take, inside] using taken
            rfl
          · simp [take, inside] at taken
  | opt c =>
      cases t with
      | nil =>
          obtain ⟨rfl, rfl⟩ : [] = w ∧ [] = r := by simpa [take] using taken
          rfl
      | cons x t =>
          by_cases inside : c x = true
          · obtain ⟨rfl, rfl⟩ : [x] = w ∧ t = r := by simpa [take, inside] using taken
            rfl
          · obtain ⟨rfl, rfl⟩ : [] = w ∧ x :: t = r := by simpa [take, inside] using taken
            rfl
  | many c =>
      obtain ⟨rfl, rfl⟩ : t.takeWhile c = w ∧ t.dropWhile c = r := by simpa [take] using taken
      exact List.takeWhile_append_dropWhile

theorem take_inside {p : Piece α} {t w r : List α} (taken : p.take t = some (w, r)) {x : α}
    (member : x ∈ w) : p.cls x = true := by
  have one : ∀ {c : α → Bool} {y : α} {t : List α}, c y = true → [y] = w ∧ t = r → c x = true := by
    rintro c y t inside ⟨rfl, -⟩
    obtain rfl := List.mem_singleton.mp member
    exact inside
  cases p with
  | one c =>
      cases t with
      | nil => simp [take] at taken
      | cons y t =>
          by_cases inside : c y = true
          · exact one inside (by simpa [take, inside] using taken)
          · simp [take, inside] at taken
  | opt c =>
      cases t with
      | nil => simp_all [take]
      | cons y t =>
          by_cases inside : c y = true
          · exact one inside (by simpa [take, inside] using taken)
          · simp_all [take]
  | many c =>
      obtain ⟨rfl, -⟩ : t.takeWhile c = w ∧ t.dropWhile c = r := by simpa [take] using taken
      exact List.mem_takeWhile_imp member

end Piece

theorem takeWhile_foreign {c : α → Bool} {s y : List α} (foreign : Foreign c y) :
    (s ++ y).takeWhile c = s.takeWhile c := by
  induction s with
  | nil =>
      cases y with
      | nil => rfl
      | cons x y => simp [foreign x rfl]
  | cons x s ih => simp only [List.cons_append, List.takeWhile_cons, ih]

theorem dropWhile_foreign {c : α → Bool} {s y : List α} (foreign : Foreign c y) :
    (s ++ y).dropWhile c = s.dropWhile c ++ y := by
  induction s with
  | nil =>
      cases y with
      | nil => rfl
      | cons x y => simp [foreign x rfl]
  | cons x s ih =>
      rw [List.cons_append, List.dropWhile_cons, List.dropWhile_cons, ih]
      split <;> rfl

theorem foreign_dropWhile (c : α → Bool) (t : List α) : Foreign c (t.dropWhile c) := by
  intro x first
  have stop := List.head?_dropWhile_not c t
  rw [Option.mem_def.mp first] at stop
  exact stop

/-- A text that the piece cannot continue into does not change what it takes. -/
theorem Piece.take_foreign {p : Piece α} (s : List α) {y : List α} (foreign : Foreign p.cls y) :
    p.take (s ++ y) = (p.take s).map fun m => (m.1, m.2 ++ y) := by
  cases p with
  | one c =>
      cases s with
      | nil =>
          cases y with
          | nil => rfl
          | cons x y => simp [take, show c x = false from foreign x rfl]
      | cons x s => by_cases inside : c x = true <;> simp [take, inside]
  | opt c =>
      cases s with
      | nil =>
          cases y with
          | nil => rfl
          | cons x y => simp [take, show c x = false from foreign x rfl]
      | cons x s => by_cases inside : c x = true <;> simp [take, inside]
  | many c =>
      have foreign' : Foreign c y := foreign
      simp [take, takeWhile_foreign foreign', dropWhile_foreign foreign']

/-- Reads the pieces one after another. -/
def readLead : List (Piece α) → List α → Option (List α × List α)
  | [], t => some ([], t)
  | p :: ps, t => (p.take t).bind fun m => (readLead ps m.2).map fun k => (m.1 ++ k.1, k.2)

theorem readLead_one_cons (c : α → Bool) (ps : List (Piece α)) (x : α) (t : List α) :
    readLead (.one c :: ps) (x :: t) =
      if c x then (readLead ps t).map (fun k => (x :: k.1, k.2)) else none := by
  by_cases inside : c x = true <;> simp [readLead, Piece.take, inside]

theorem readLead_one_eq_some {c : α → Bool} {ps : List (Piece α)} {t l r : List α} :
    readLead (.one c :: ps) t = some (l, r) ↔
      ∃ x t' l', t = x :: t' ∧ l = x :: l' ∧ c x = true ∧ readLead ps t' = some (l', r) := by
  cases t with
  | nil => simp [readLead, Piece.take]
  | cons x t =>
      rw [readLead_one_cons]
      by_cases inside : c x = true
      · simp only [inside, if_true, Option.map_eq_some_iff, Prod.mk.injEq]
        constructor
        · rintro ⟨⟨l', r'⟩, done, rfl, rfl⟩
          exact ⟨x, t, l', rfl, rfl, inside, done⟩
        · rintro ⟨y, t', l', eq, rfl, -, done⟩
          obtain ⟨rfl, rfl⟩ := List.cons.inj eq
          exact ⟨(l', r), done, rfl, rfl⟩
      · simp only [inside, if_false, Bool.false_eq_true, reduceCtorEq, false_iff]
        rintro ⟨y, t', l', eq, -, inside', -⟩
        obtain ⟨rfl, -⟩ := List.cons.inj eq
        exact inside inside'

theorem readLead_split {ps : List (Piece α)} {t l r : List α} (done : readLead ps t = some (l, r)) :
    l ++ r = t := by
  induction ps generalizing t l with
  | nil =>
      obtain ⟨rfl, rfl⟩ : [] = l ∧ t = r := by simpa [readLead] using done
      rfl
  | cons p ps ih =>
      simp only [readLead, Option.bind_eq_some_iff, Option.map_eq_some_iff] at done
      obtain ⟨⟨w, t'⟩, taken, ⟨l', r'⟩, rest, eq⟩ := done
      obtain ⟨rfl, rfl⟩ : w ++ l' = l ∧ r' = r := by simpa using eq
      rw [List.append_assoc, ih rest, Piece.take_split taken]

/-- Every symbol of a lead was taken by one of its pieces. -/
theorem readLead_inside {ps : List (Piece α)} {t l r : List α} (done : readLead ps t = some (l, r))
    {x : α} (member : x ∈ l) : ∃ p ∈ ps, p.cls x = true := by
  induction ps generalizing t l with
  | nil =>
      obtain ⟨rfl, -⟩ : [] = l ∧ t = r := by simpa [readLead] using done
      simp at member
  | cons p ps ih =>
      simp only [readLead, Option.bind_eq_some_iff, Option.map_eq_some_iff] at done
      obtain ⟨⟨w, t'⟩, taken, ⟨l', r'⟩, rest, eq⟩ := done
      obtain ⟨rfl, rfl⟩ : w ++ l' = l ∧ r' = r := by simpa using eq
      rcases List.mem_append.mp member with first | later
      · exact ⟨p, List.mem_cons_self, Piece.take_inside taken first⟩
      · obtain ⟨q, inPieces, inside⟩ := ih rest later
        exact ⟨q, List.mem_cons_of_mem p inPieces, inside⟩

theorem readLead_foreign {ps : List (Piece α)} (s : List α) {y : List α}
    (foreign : ∀ p ∈ ps, Foreign p.cls y) :
    readLead ps (s ++ y) = (readLead ps s).map fun m => (m.1, m.2 ++ y) := by
  induction ps generalizing s with
  | nil => rfl
  | cons p ps ih =>
      simp only [readLead, Piece.take_foreign s (foreign p List.mem_cons_self), Option.bind_map]
      cases p.take s with
      | none => rfl
      | some m =>
          simp only [Function.comp, Option.bind_some, ih m.2 fun q member => foreign q (by simp [member])]
          cases readLead ps m.2 <;> rfl

/-- The pieces take at most one symbol each from texts over the symbols of `s`. -/
def Single (ps : List (Piece α)) (s : List α) : Prop :=
  ∀ c, Piece.many c ∈ ps → ∀ x ∈ s, c x = false

theorem Single.mono {ps : List (Piece α)} {s s' : List α} (single : Single ps s)
    (within : ∀ x ∈ s', x ∈ s) : Single ps s' :=
  fun c member x inside => single c member x (within x inside)

theorem Single.tail {q : Piece α} {ps : List (Piece α)} {s : List α} (single : Single (q :: ps) s) :
    Single ps s := fun c member => single c (List.mem_cons_of_mem q member)

/-- Such a lead is read within a text that is long enough. -/
theorem readLead_long {ps : List (Piece α)} {s : List α} (single : Single ps s)
    (long : ps.length ≤ s.length) (y : List α) :
    readLead ps (s ++ y) = (readLead ps s).map fun m => (m.1, m.2 ++ y) := by
  induction ps generalizing s with
  | nil => rfl
  | cons q ps ih =>
      cases s with
      | nil => simp at long
      | cons x s =>
          have rest := ih (single.tail.mono fun z inside => List.mem_cons_of_mem x inside)
            (Nat.le_of_succ_le_succ long)
          have skip := ih single.tail (Nat.le_of_succ_le long)
          rw [List.cons_append] at skip ⊢
          cases q with
          | one c =>
              rw [readLead_one_cons, readLead_one_cons, rest]
              split_ifs
              · cases readLead ps s <;> rfl
              · rfl
          | opt c =>
              by_cases inside : c x = true
              · simp only [readLead, Piece.take, inside, if_true, Option.bind_some, rest]
                cases readLead ps s <;> rfl
              · simp only [readLead, Piece.take, inside, if_false, Bool.false_eq_true,
                  Option.bind_some, skip]
                cases readLead ps (x :: s) <;> rfl
          | many c =>
              have outside := single c List.mem_cons_self x List.mem_cons_self
              simp only [readLead, Piece.take, List.takeWhile_cons, List.dropWhile_cons, outside,
                Bool.false_eq_true, if_false, Option.bind_some, skip]
              cases readLead ps (x :: s) <;> rfl

theorem readLead_append (ps qs : List (Piece α)) (t : List α) :
    readLead (ps ++ qs) t =
      (readLead ps t).bind fun m => (readLead qs m.2).map fun k => (m.1 ++ k.1, k.2) := by
  induction ps generalizing t with
  | nil => cases h : readLead qs t <;> simp [readLead, h]
  | cons p ps ih =>
      simp only [List.cons_append, readLead]
      cases p.take t with
      | none => rfl
      | some m =>
          simp only [Option.bind_some, ih]
          cases readLead ps m.2 with
          | none => rfl
          | some k => cases h : readLead qs k.2 <;> simp [h]

/-- A required piece has taken one of its symbols. -/
theorem readLead_mem {ps : List (Piece α)} {t l r : List α} (done : readLead ps t = some (l, r))
    {c : α → Bool} (required : Piece.one c ∈ ps) : ∃ x ∈ l, c x = true := by
  induction ps generalizing t l with
  | nil => simp at required
  | cons p ps ih =>
      simp only [readLead, Option.bind_eq_some_iff, Option.map_eq_some_iff] at done
      obtain ⟨⟨w, t'⟩, taken, ⟨l', r'⟩, rest, eq⟩ := done
      obtain ⟨rfl, rfl⟩ : w ++ l' = l ∧ r' = r := by simpa using eq
      rcases List.mem_cons.mp required with rfl | later
      · cases t with
        | nil => simp [Piece.take] at taken
        | cons x t =>
            by_cases inside : c x = true
            · obtain ⟨rfl, -⟩ : [x] = w ∧ t = t' := by simpa [Piece.take, inside] using taken
              exact ⟨x, by simp, inside⟩
            · simp [Piece.take, inside] at taken
      · obtain ⟨x, member, inside⟩ := ih rest later
        exact ⟨x, List.mem_append_right _ member, inside⟩

def Piece.fewest : Piece α → ℕ
  | .one _ => 1
  | .opt _ | .many _ => 0

theorem Piece.take_fewest {p : Piece α} {t w r : List α} (taken : p.take t = some (w, r)) :
    p.fewest ≤ w.length := by
  cases p with
  | one c =>
      cases t with
      | nil => simp [take] at taken
      | cons x t =>
          by_cases inside : c x = true
          · obtain ⟨rfl, -⟩ : [x] = w ∧ t = r := by simpa [take, inside] using taken
            exact Nat.le_refl 1
          · simp [take, inside] at taken
  | opt c => exact Nat.zero_le _
  | many c => exact Nat.zero_le _

theorem readLead_fewest {ps : List (Piece α)} {t l r : List α}
    (done : readLead ps t = some (l, r)) : (ps.map Piece.fewest).sum ≤ l.length := by
  induction ps generalizing t l with
  | nil => simp
  | cons p ps ih =>
      simp only [readLead, Option.bind_eq_some_iff, Option.map_eq_some_iff] at done
      obtain ⟨⟨w, t'⟩, taken, ⟨l', r'⟩, rest, eq⟩ := done
      obtain ⟨rfl, rfl⟩ : w ++ l' = l ∧ r' = r := by simpa using eq
      rw [List.map_cons, List.sum_cons, List.length_append]
      exact Nat.add_le_add (Piece.take_fewest taken) (ih rest)

/-- A piece looks at most one symbol ahead of what it takes. -/
theorem Piece.take_ahead {p : Piece α} {w y y' : List α} (taken : p.take (w ++ y) = some (w, y))
    (ahead : y'.head? = y.head?) : p.take (w ++ y') = some (w, y') := by
  cases p with
  | one c =>
      cases w with
      | nil => cases y <;> simp [take] at taken
      | cons x w =>
          by_cases inside : c x = true
          · obtain rfl : w = [] := by simpa [take, inside] using taken
            simp [take, inside]
          · simp [take, inside] at taken
  | opt c =>
      cases w with
      | nil =>
          cases y with
          | nil => simp_all [take]
          | cons x y =>
              cases y' with
              | nil => simp at ahead
              | cons x' y' =>
                  obtain rfl : x' = x := by simpa using ahead
                  by_cases inside : c x' = true
                  · simp [take, inside] at taken
                  · simp [take, inside]
      | cons x w =>
          by_cases inside : c x = true
          · obtain rfl : w = [] := by simpa [take, inside] using taken
            simp [take, inside]
          · simp [take, inside] at taken
  | many c =>
      obtain ⟨run, left⟩ : (w ++ y).takeWhile c = w ∧ (w ++ y).dropWhile c = y := by
        simpa [take] using taken
      have inside : ∀ x ∈ w, c x = true := fun x member => List.mem_takeWhile_imp (run.symm ▸ member)
      have stops : Foreign c y := left ▸ foreign_dropWhile c (w ++ y)
      have stops' : Foreign c y' := fun x first => stops x (ahead ▸ first)
      have run' : w.takeWhile c = w := List.takeWhile_eq_self_iff.mpr inside
      have left' : w.dropWhile c = [] := List.dropWhile_eq_nil_iff.mpr inside
      simp [take, takeWhile_foreign stops', dropWhile_foreign stops', run', left']

theorem readLead_ahead {ps : List (Piece α)} {l y y' : List α} (done : readLead ps (l ++ y) = some (l, y))
    (ahead : y'.head? = y.head?) : readLead ps (l ++ y') = some (l, y') := by
  induction ps generalizing l with
  | nil =>
      obtain rfl : l = [] := by simpa [readLead] using done
      rfl
  | cons p ps ih =>
      simp only [readLead, Option.bind_eq_some_iff, Option.map_eq_some_iff] at done
      obtain ⟨⟨w, t⟩, taken, ⟨l', r⟩, rest, eq⟩ := done
      obtain ⟨rfl, rfl⟩ : w ++ l' = l ∧ r = y := by simpa using eq
      obtain rfl : t = l' ++ r := by
        have split := Piece.take_split taken
        rw [List.append_assoc] at split
        exact List.append_cancel_left split
      have first : (l' ++ y').head? = (l' ++ r).head? := by
        cases l' with
        | nil => exact ahead
        | cons x l' => rfl
      rw [List.append_assoc] at taken ⊢
      simp [readLead, Piece.take_ahead taken first, ih rest]

/-- A lead of pieces and a run of at least `least` body symbols. `keepsBody` says whether a
replacement keeps the body with the lead. -/
structure Pattern (α : Type*) where
  lead : List (Piece α)
  body : α → Bool
  least : ℕ
  keepsBody : Bool
  positive : 0 < least

structure Match (α : Type*) where
  lead : List α
  body : List α
  rest : List α

def Match.extend (m : Match α) (y : List α) : Match α := { m with rest := m.rest ++ y }

namespace Pattern

variable (p : Pattern α)

/-- The match that starts at the front of the text. -/
def matchAt (t : List α) : Option (Match α) :=
  (readLead p.lead t).bind fun m =>
    if p.least ≤ (m.2.takeWhile p.body).length then
      some ⟨m.1, m.2.takeWhile p.body, m.2.dropWhile p.body⟩
    else none

/-- The leftmost match, with the text before it. -/
def search : List α → Option (List α × Match α)
  | [] => none
  | x :: t =>
      match p.matchAt (x :: t) with
      | some m => some ([], m)
      | none => (search t).map fun k => (x :: k.1, k.2)

def replaced (mark : List α) (m : Match α) : List α :=
  m.lead ++ (if p.keepsBody then m.body else []) ++ mark

/-- Replaces from left to right, inside a match for the next `skip` symbols. -/
def subFrom (mark : List α) : ℕ → List α → List α
  | _, [] => []
  | skip + 1, _ :: t => subFrom mark skip t
  | 0, x :: t =>
      match p.matchAt (x :: t) with
      | some m => p.replaced mark m ++ subFrom mark (m.lead.length + m.body.length - 1) t
      | none => x :: subFrom mark 0 t

/-- Replaces every match, leftmost first and without overlaps. -/
def sub (mark t : List α) : List α := p.subFrom mark 0 t

/-- No match starts inside `s` when `y` follows it. -/
def Passes : List α → List α → Prop
  | [], _ => True
  | x :: s, y => p.matchAt (x :: s ++ y) = none ∧ Passes s y

instance decidablePasses : (s y : List α) → Decidable (p.Passes s y)
  | [], _ => isTrue trivial
  | x :: s, y =>
      have := decidablePasses s y
      inferInstanceAs (Decidable (p.matchAt (x :: s ++ y) = none ∧ p.Passes s y))

/-- No match starts anywhere in the text. -/
def Free (t : List α) : Prop := p.Passes t []

instance decidableFree (t : List α) : Decidable (p.Free t) := decidablePasses p t []

variable {p} {mark s s' t u y y' : List α}

/-- A match is a lead and the whole run of body symbols after it. -/
theorem matchAt_eq_some {m : Match α} : p.matchAt t = some m ↔
    readLead p.lead t = some (m.lead, m.body ++ m.rest) ∧ (∀ x ∈ m.body, p.body x = true) ∧
      Foreign p.body m.rest ∧ p.least ≤ m.body.length := by
  constructor
  · intro found
    simp only [matchAt, Option.bind_eq_some_iff] at found
    obtain ⟨⟨l, r⟩, done, eq⟩ := found
    split_ifs at eq with enough
    obtain rfl := Option.some.inj eq
    refine ⟨?_, fun x member => List.mem_takeWhile_imp member, foreign_dropWhile p.body r, enough⟩
    rw [List.takeWhile_append_dropWhile]
    exact done
  · rintro ⟨done, run, ends, enough⟩
    have body : (m.body ++ m.rest).takeWhile p.body = m.body := by
      rw [takeWhile_foreign ends, List.takeWhile_eq_self_iff.mpr run]
    have rest : (m.body ++ m.rest).dropWhile p.body = m.rest := by
      rw [dropWhile_foreign ends, List.dropWhile_eq_nil_iff.mpr run, List.nil_append]
    simp [matchAt, done, body, rest, enough]

theorem matchAt_split {m : Match α} (found : p.matchAt t = some m) :
    t = m.lead ++ (m.body ++ m.rest) := (readLead_split (matchAt_eq_some.mp found).1).symm

theorem matchAt_body {m : Match α} (found : p.matchAt t = some m) : p.least ≤ m.body.length :=
  (matchAt_eq_some.mp found).2.2.2

theorem subFrom_eq (mark : List α) (skip : ℕ) (t : List α) :
    p.subFrom mark skip t = p.sub mark (t.drop skip) := by
  induction t generalizing skip with
  | nil => cases skip <;> rfl
  | cons x t ih =>
      cases skip with
      | zero => rfl
      | succ skip => exact ih skip

@[simp] theorem sub_nil (mark : List α) : p.sub mark [] = [] := rfl

theorem sub_cons_of_none {x : α} (absent : p.matchAt (x :: t) = none) :
    p.sub mark (x :: t) = x :: p.sub mark t := by
  simp only [sub, subFrom, absent]

theorem sub_of_match {m : Match α} (found : p.matchAt t = some m) :
    p.sub mark t = p.replaced mark m ++ p.sub mark m.rest := by
  have split := matchAt_split found
  have enough := matchAt_body found
  have positive := p.positive
  cases t with
  | nil =>
      have empty : m.body = [] := (List.append_eq_nil_iff.mp (List.append_eq_nil_iff.mp split.symm).2).1
      rw [empty, List.length_nil] at enough
      omega
  | cons x t =>
      have left : t.drop (m.lead.length + m.body.length - 1) = m.rest := by
        have total : m.lead.length + m.body.length - 1 + 1 = (m.lead ++ m.body).length := by
          rw [List.length_append]
          omega
        rw [← List.drop_succ_cons (a := x), total, split, ← List.append_assoc, List.drop_left]
      simp only [sub, subFrom, found]
      rw [subFrom_eq, left]
      rfl

theorem sub_passes (passes : p.Passes s y) : p.sub mark (s ++ y) = s ++ p.sub mark y := by
  induction s with
  | nil => rfl
  | cons x s ih =>
      have absent : p.matchAt (x :: (s ++ y)) = none := passes.1
      rw [List.cons_append, sub_cons_of_none absent, ih passes.2, List.cons_append]

theorem passes_append : p.Passes (s ++ s') y ↔ p.Passes s (s' ++ y) ∧ p.Passes s' y := by
  induction s with
  | nil => simp [Passes]
  | cons x s ih => simp [Passes, ih, and_assoc]

theorem sub_free (free : p.Free t) : p.sub mark t = t := by
  have whole : p.sub mark (t ++ []) = t ++ p.sub mark [] := sub_passes free
  simpa using whole

theorem search_spec {k : List α × Match α} (found : p.search t = some k) :
    t = k.1 ++ (k.2.lead ++ (k.2.body ++ k.2.rest)) ∧
      p.Passes k.1 (k.2.lead ++ (k.2.body ++ k.2.rest)) ∧
      p.matchAt (k.2.lead ++ (k.2.body ++ k.2.rest)) = some k.2 := by
  induction t generalizing k with
  | nil => simp [search] at found
  | cons x t ih =>
      cases here : p.matchAt (x :: t) with
      | some m =>
          obtain rfl : ([], m) = k := by simpa [search, here] using found
          exact ⟨matchAt_split here, trivial, matchAt_split here ▸ here⟩
      | none =>
          simp only [search, here, Option.map_eq_some_iff] at found
          obtain ⟨j, later, rfl⟩ := found
          obtain ⟨split, passes, matched⟩ := ih later
          have absent : p.matchAt (x :: (j.1 ++ (j.2.lead ++ (j.2.body ++ j.2.rest)))) = none :=
            split ▸ here
          exact ⟨congrArg (x :: ·) split, ⟨absent, passes⟩, matched⟩

theorem search_eq_none : p.search t = none ↔ p.Free t := by
  induction t with
  | nil => simp [search, Free, Passes]
  | cons x t ih =>
      cases here : p.matchAt (x :: t) with
      | some m => simp [search, here, Free, Passes]
      | none =>
          simp only [search, here, Option.map_eq_none_iff, ih]
          simp [Free, Passes, here]

variable (mark) in
/-- The text before the leftmost match stays as it is. -/
theorem sub_search {k : List α × Match α} (found : p.search t = some k) :
    p.sub mark t = k.1 ++ (p.replaced mark k.2 ++ p.sub mark k.2.rest) := by
  obtain ⟨split, passes, matched⟩ := search_spec found
  rw [split, sub_passes passes, sub_of_match matched]

/-- Matches are found one after another, each in what the one before it leaves. -/
theorem search_induction {P : List α → Prop} (free : ∀ t, p.Free t → P t)
    (found : ∀ t k, p.search t = some k → P k.2.rest → P t) (t : List α) : P t := by
  induction hn : t.length using Nat.strong_induction_on generalizing t with
  | _ n ih =>
      cases first : p.search t with
      | none => exact free t (search_eq_none.mp first)
      | some k =>
          obtain ⟨split, -, matched⟩ := search_spec first
          have enough := matchAt_body matched
          have positive := p.positive
          refine found t k first (ih k.2.rest.length ?_ k.2.rest rfl)
          have total := congrArg List.length split
          simp only [List.length_append] at total
          omega

theorem Free.of_append (free : p.Free (s ++ t)) : p.Free t := (passes_append.mp free).2

theorem Free.dropWhile (free : p.Free t) (c : α → Bool) : p.Free (t.dropWhile c) := by
  rw [← List.takeWhile_append_dropWhile (p := c) (l := t)] at free
  exact free.of_append

/-! ### Texts that follow -/

/-- A text that starts outside every class of the lead changes no reading of the lead. -/
theorem matchAt_lead_foreign (s : List α) (lead : ∀ q ∈ p.lead, Foreign q.cls y) :
    p.matchAt (s ++ y) = (readLead p.lead s).bind fun m =>
      if p.least ≤ ((m.2 ++ y).takeWhile p.body).length then
        some ⟨m.1, (m.2 ++ y).takeWhile p.body, (m.2 ++ y).dropWhile p.body⟩
      else none := by
  rw [matchAt, readLead_foreign s lead, Option.bind_map]
  rfl

/-- If it starts outside the body as well, it follows the match. -/
theorem matchAt_foreign (s : List α) (lead : ∀ q ∈ p.lead, Foreign q.cls y)
    (body : Foreign p.body y) : p.matchAt (s ++ y) = (p.matchAt s).map (·.extend y) := by
  rw [matchAt_lead_foreign s lead, matchAt]
  cases readLead p.lead s with
  | none => rfl
  | some m =>
      simp only [Option.bind_some, takeWhile_foreign body, dropWhile_foreign body]
      split_ifs <;> rfl

/-- So does it after a text in which the lead has room. -/
theorem matchAt_long (single : Single p.lead s) (long : p.lead.length ≤ s.length)
    (body : Foreign p.body y) : p.matchAt (s ++ y) = (p.matchAt s).map (·.extend y) := by
  rw [matchAt, readLead_long single long, matchAt]
  cases readLead p.lead s with
  | none => rfl
  | some m =>
      simp only [Option.map_some, Option.bind_some, takeWhile_foreign body, dropWhile_foreign body]
      split_ifs <;> rfl

theorem passes_foreign (lead : ∀ q ∈ p.lead, Foreign q.cls y) (body : Foreign p.body y) :
    p.Passes s y ↔ p.Free s := by
  induction s with
  | nil => simp [Free, Passes]
  | cons x s ih =>
      simp only [Passes, Free, ih, matchAt_foreign _ lead body, Option.map_eq_none_iff,
        List.append_nil]

/-- A symbol outside the lead decides at once whether a body of one symbol follows. -/
theorem passes_through (one : p.least = 1) {k : α} (outside : ∀ q ∈ p.lead, q.cls k = false)
    (passes : p.Passes s (k :: y)) (y' : List α) : p.Passes s (k :: y') := by
  have foreign : ∀ z, ∀ q ∈ p.lead, Foreign q.cls (k :: z) := by
    intro z q member x first
    obtain rfl : k = x := by simpa using first
    exact outside q member
  induction s with
  | nil => trivial
  | cons x s ih =>
      refine ⟨?_, ih passes.2⟩
      have here := passes.1
      rw [matchAt_lead_foreign (x :: s) (foreign y)] at here
      rw [matchAt_lead_foreign (x :: s) (foreign y')]
      cases done : readLead p.lead (x :: s) with
      | none => rfl
      | some m =>
          simp only [done, Option.bind_some, one] at here ⊢
          have outsideBody : ∀ z : List α, 1 ≤ ((m.2 ++ k :: z).takeWhile p.body).length ↔
              p.body (m.2.head?.getD k) = true := by
            intro z
            cases m.2 with
            | nil => by_cases inside : p.body k = true <;> simp [inside]
            | cons w m' => by_cases inside : p.body w = true <;> simp [inside]
          split_ifs at here with runs
          rw [if_neg]
          rwa [outsideBody, ← outsideBody y]

/-- Behind its first symbol, a text that the other pieces cannot take up changes no reading. -/
theorem matchAt_behind {c : α → Bool} {ps : List (Piece α)} (lead : p.lead = .one c :: ps) (x : α)
    (s : List α) (rest : ∀ q ∈ ps, Foreign q.cls y) :
    p.matchAt (x :: s ++ y) = (readLead p.lead (x :: s)).bind fun m =>
      if p.least ≤ ((m.2 ++ y).takeWhile p.body).length then
        some ⟨m.1, (m.2 ++ y).takeWhile p.body, (m.2 ++ y).dropWhile p.body⟩
      else none := by
  have read : readLead p.lead (x :: s ++ y) =
      (readLead p.lead (x :: s)).map fun m => (m.1, m.2 ++ y) := by
    rw [lead, List.cons_append, readLead_one_cons, readLead_one_cons, readLead_foreign s rest]
    split_ifs
    · cases readLead ps s <;> rfl
    · rfl
  rw [matchAt, read, Option.bind_map]
  rfl

theorem sub_append_foreign (lead : ∀ q ∈ p.lead, Foreign q.cls y) (body : Foreign p.body y)
    (s : List α) : p.sub mark (s ++ y) = p.sub mark s ++ p.sub mark y := by
  induction hn : s.length using Nat.strong_induction_on generalizing s with
  | _ n ih =>
      cases s with
      | nil => rfl
      | cons x s =>
          have follows := matchAt_foreign (x :: s) lead body
          cases here : p.matchAt (x :: s) with
          | none =>
              rw [here] at follows
              have rest := ih s.length (by simp [← hn]) s rfl
              rw [List.cons_append] at follows ⊢
              rw [sub_cons_of_none follows, sub_cons_of_none here, rest, List.cons_append]
          | some m =>
              rw [here] at follows
              have split := matchAt_split here
              have enough := matchAt_body here
              have positive := p.positive
              have shorter : m.rest.length < n := by
                have total := congrArg List.length split
                simp only [List.length_append] at total
                omega
              rw [sub_of_match follows, sub_of_match here, List.append_assoc]
              exact congrArg _ (ih _ shorter m.rest rfl)

/-- The leftmost match stays where it is when a text follows that cannot lengthen it. -/
theorem sub_search_append {k : List α × Match α} (found : p.search t = some k)
    (single : Single p.lead t) (long : p.lead.length ≤ (k.2.lead ++ k.2.body).length)
    (body : Foreign p.body y) :
    p.sub mark (t ++ y) = k.1 ++ (p.replaced mark k.2 ++ p.sub mark (k.2.rest ++ y)) := by
  obtain ⟨split, before, matched⟩ := search_spec found
  rw [List.length_append] at long
  have passes : ∀ s, (∀ x ∈ s, x ∈ t) → p.Passes s (k.2.lead ++ (k.2.body ++ k.2.rest)) →
      p.Passes s (k.2.lead ++ (k.2.body ++ k.2.rest) ++ y) := by
    intro s within passes
    induction s with
    | nil => trivial
    | cons x s ih =>
        refine ⟨?_, ih (fun z inside => within z (List.mem_cons_of_mem x inside)) passes.2⟩
        have room : Single p.lead (x :: s ++ (k.2.lead ++ (k.2.body ++ k.2.rest))) := by
          refine single.mono fun z inside => ?_
          rcases List.mem_append.mp inside with first | later
          · exact within z first
          · exact split ▸ List.mem_append_right _ later
        rw [← List.append_assoc, matchAt_long room (by simp only [List.length_append]; omega) body,
          passes.1, Option.map_none]
  have here : p.matchAt (k.2.lead ++ (k.2.body ++ k.2.rest) ++ y) = some (k.2.extend y) := by
    have room : Single p.lead (k.2.lead ++ (k.2.body ++ k.2.rest)) :=
      single.mono fun z inside => split ▸ List.mem_append_right _ inside
    rw [matchAt_long room (by simp only [List.length_append]; omega) body, matched,
      Option.map_some]
  rw [split, List.append_assoc, sub_passes (passes k.1 (fun z inside =>
    split ▸ List.mem_append_left _ inside) before), sub_of_match here]
  rfl

/-- A replacement keeps the lead, and with it the first symbol. -/
theorem sub_head? {c : α → Bool} {ps : List (Piece α)} (lead : p.lead = .one c :: ps) :
    (p.sub mark t).head? = t.head? := by
  cases t with
  | nil => rfl
  | cons x t =>
      cases here : p.matchAt (x :: t) with
      | none => rw [sub_cons_of_none here, List.head?_cons, List.head?_cons]
      | some m =>
          obtain ⟨done, -⟩ := matchAt_eq_some.mp here
          rw [lead] at done
          obtain ⟨z, t', l, same, first, -⟩ := readLead_one_eq_some.mp done
          obtain ⟨rfl, -⟩ := List.cons.inj same
          rw [sub_of_match here, replaced, first]
          rfl

variable (mark) in
/-- A text without a match stays as it is, also where one begins in it and takes its body from
what follows. -/
theorem sub_append_free {c : α → Bool} {ps : List (Piece α)} (lead : p.lead = .one c :: ps)
    (free : p.Free t) (body : Foreign p.body y) :
    ∃ w, p.sub mark (t ++ y) = t ++ w ∧ w.head? = y.head? := by
  induction t with
  | nil => exact ⟨p.sub mark y, rfl, sub_head? lead⟩
  | cons x t ih =>
      cases here : p.matchAt (x :: t ++ y) with
      | none =>
          obtain ⟨w, same, first⟩ := ih free.2
          rw [List.cons_append] at here ⊢
          exact ⟨w, by rw [sub_cons_of_none here, same, List.cons_append], first⟩
      | some m =>
          obtain ⟨done, run, ends, enough⟩ := matchAt_eq_some.mp here
          have positive := p.positive
          have unreached : y ≠ m.body ++ m.rest := by
            rintro rfl
            cases inside : m.body with
            | nil => simp only [inside, List.length_nil] at enough; omega
            | cons z b =>
                have first := run z (by simp [inside])
                rw [body z (by simp [inside])] at first
                contradiction
          rcases List.append_eq_append_iff.mp (matchAt_split here) with
            ⟨l, shape, follows⟩ | ⟨s, shape, follows⟩
          · -- the lead reaches into what follows
            cases l with
            | nil => exact absurd follows unreached
            | cons h l =>
                refine ⟨h :: l ++ ((if p.keepsBody then m.body else []) ++ (mark ++ p.sub mark m.rest)),
                  ?_, by simp [follows]⟩
                rw [sub_of_match here, replaced, shape]
                simp only [List.append_assoc]
          · -- the lead ends in the text, which then holds the body as well
            cases s with
            | nil => exact absurd follows.symm unreached
            | cons h s =>
                rw [matchAt_split here, follows] at done
                have alone : readLead p.lead (m.lead ++ h :: s) = some (m.lead, h :: s) :=
                  readLead_ahead done rfl
                have whole : (h :: s).takeWhile p.body = m.body := by
                  rw [← takeWhile_foreign body, ← follows, takeWhile_foreign ends,
                    List.takeWhile_eq_self_iff.mpr run]
                have absent := free.1
                rw [List.append_nil, matchAt, shape, alone, Option.bind_some, whole,
                  if_pos enough] at absent
                contradiction

/-- No match starts at a symbol that the first piece cannot take. -/
theorem passes_of_head {c : α → Bool} {ps : List (Piece α)} (lead : p.lead = .one c :: ps)
    (outside : ∀ x ∈ s, c x = false) : p.Passes s y := by
  induction s with
  | nil => trivial
  | cons x s ih =>
      refine ⟨?_, ih fun z member => outside z (by simp [member])⟩
      simp [matchAt, lead, readLead, Piece.take, outside x List.mem_cons_self]

/-- No match starts in a text without the symbols of a required piece. -/
theorem passes_of_required {c : α → Bool} (required : .one c ∈ p.lead)
    (outside : ∀ x ∈ s, c x = false) (lead : ∀ q ∈ p.lead, Foreign q.cls y) : p.Passes s y := by
  induction s with
  | nil => trivial
  | cons x s ih =>
      refine ⟨?_, ih fun z member => outside z (by simp [member])⟩
      rw [matchAt_lead_foreign (x :: s) lead]
      cases done : readLead p.lead (x :: s) with
      | none => rfl
      | some m =>
          obtain ⟨z, member, inside⟩ := readLead_mem (l := m.1) (r := m.2) done required
          have within : z ∈ x :: s := readLead_split (l := m.1) (r := m.2) done ▸ List.mem_append_left _ member
          simp [outside z within] at inside

/-- The text ends in a lead and perhaps some of its body, for which the rest can follow. -/
def openAt (p : Pattern α) (s : List α) : Bool :=
  match readLead p.lead s with
  | some m => m.2.all p.body
  | none => false

def opens (p : Pattern α) : List α → Bool
  | [] => p.openAt []
  | x :: u => p.openAt (x :: u) || opens p u

theorem matchAt_unopened (s : List α) (lead : ∀ q ∈ p.lead, Foreign q.cls y)
    (closed : p.openAt s = false) (absent : p.matchAt s = none) : p.matchAt (s ++ y) = none := by
  rw [matchAt_lead_foreign s lead]
  rw [matchAt] at absent
  rw [openAt] at closed
  cases done : readLead p.lead s with
  | none => rfl
  | some m =>
      simp only [done, Option.bind_some] at absent closed ⊢
      -- the body ends inside `s`, so what follows does not lengthen it
      have stops : (m.2 ++ y).takeWhile p.body = m.2.takeWhile p.body := by
        rw [List.takeWhile_append, if_neg]
        intro whole
        have all := List.takeWhile_eq_self_iff.mp
          ((List.takeWhile_prefix p.body).eq_of_length whole)
        simp [List.all_eq_true.mpr all] at closed
      rw [stops]
      split_ifs at absent ⊢
      rfl

theorem passes_unopened (lead : ∀ q ∈ p.lead, Foreign q.cls y) (free : p.Free u)
    (closed : p.opens u = false) : p.Passes u y := by
  induction u with
  | nil => trivial
  | cons x u ih =>
      simp only [opens, Bool.or_eq_false_iff] at closed
      have absent : p.matchAt (x :: u) = none := by simpa using free.1
      exact ⟨matchAt_unopened (x :: u) lead closed.1 absent, ih free.2 closed.2⟩

variable (mark) in
/-- A text that ends in a lead hides all the body symbols that follow it. -/
theorem sub_opened (hides : p.keepsBody = false) (free : p.Free u) (opens : p.opens u = true) :
    ∃ shown, ∀ y, (∀ q ∈ p.lead, Foreign q.cls y) → p.least ≤ (y.takeWhile p.body).length →
      p.sub mark (u ++ y) = shown ++ (mark ++ p.sub mark (y.dropWhile p.body)) := by
  have here : ∀ s, p.openAt s = true → ∃ shown, ∀ y, (∀ q ∈ p.lead, Foreign q.cls y) →
      p.least ≤ (y.takeWhile p.body).length →
      p.sub mark (s ++ y) = shown ++ (mark ++ p.sub mark (y.dropWhile p.body)) := by
    intro s opened
    unfold openAt at opened
    split at opened
    · rename_i m done
      refine ⟨m.1, fun y lead enough => ?_⟩
      have all := List.all_eq_true.mp opened
      have run : (m.2 ++ y).takeWhile p.body = m.2 ++ y.takeWhile p.body :=
        List.takeWhile_append_of_pos all
      have left : (m.2 ++ y).dropWhile p.body = y.dropWhile p.body :=
        List.dropWhile_append_of_pos all
      have found := matchAt_lead_foreign s lead
      rw [done, Option.bind_some, run, left, if_pos (by rw [List.length_append]; omega)] at found
      rw [sub_of_match found, replaced, hides]
      simp
    · simp at opened
  induction u with
  | nil => exact here [] opens
  | cons x u ih =>
      cases opened : p.openAt (x :: u) with
      | true => exact here (x :: u) opened
      | false =>
          have absent : p.matchAt (x :: u) = none := by simpa using free.1
          obtain ⟨shown, hidden⟩ := ih free.2 (by simpa [Pattern.opens, opened] using opens)
          refine ⟨x :: shown, fun y lead enough => ?_⟩
          have passed : p.matchAt (x :: (u ++ y)) = none :=
            matchAt_unopened (x :: u) lead opened absent
          rw [List.cons_append, sub_cons_of_none passed, hidden y lead enough, List.cons_append]

end Pattern
end GreedyPattern
