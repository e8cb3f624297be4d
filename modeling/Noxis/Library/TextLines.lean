import Mathlib

/-! Cutting a text into lines where more characters than the line feed end a line. -/
namespace TextLines

/-- The lines of a text, without their ends; a carriage return and the line feed behind it are
one end, and a text that stops at an end has no further line. -/
def splitlines (isBreak : Char → Bool) : List Char → List (List Char)
  | [] => []
  | '\r' :: '\n' :: rest => [] :: splitlines isBreak rest
  | c :: rest =>
      if isBreak c then [] :: splitlines isBreak rest
      else match splitlines isBreak rest with
        | [] => [[c]]
        | line :: lines => (c :: line) :: lines

inductive LineEnd where
  | lf
  | crlf

def LineEnd.text : LineEnd → List Char
  | .lf => ['\n']
  | .crlf => ['\r', '\n']

/-- Neither a line feed nor a carriage return is in the text. -/
def OneLine (t : List Char) : Prop := ∀ c ∈ t, c ≠ '\n' ∧ c ≠ '\r'

/-- No separator is in the pieces. -/
theorem piece_clean {p : Char → Bool} {t piece : List Char} (member : piece ∈ t.splitOnP p) :
    ∀ c ∈ piece, c ∈ t ∧ p c = false := by
  induction t generalizing piece with
  | nil =>
      rw [List.splitOnP_nil, List.mem_singleton] at member
      simp [member]
  | cons x rest ih =>
      rw [List.splitOnP_cons_eq_if_modifyHead] at member
      obtain ⟨first, later, split⟩ := List.exists_cons_of_ne_nil (List.splitOnP_ne_nil p rest)
      rw [split] at member ih
      intro c inside
      by_cases mark : p x = true
      · rw [if_pos mark] at member
        rcases List.mem_cons.mp member with rfl | member
        · cases inside
        · exact ⟨List.mem_cons_of_mem _ (ih member c inside).1, (ih member c inside).2⟩
      · rw [if_neg mark, List.modifyHead_cons] at member
        rcases List.mem_cons.mp member with rfl | member
        · rcases List.mem_cons.mp inside with rfl | inside
          · exact ⟨List.mem_cons_self, by simpa using mark⟩
          · have here := ih List.mem_cons_self c inside
            exact ⟨List.mem_cons_of_mem _ here.1, here.2⟩
        · have here := ih (List.mem_cons_of_mem _ member) c inside
          exact ⟨List.mem_cons_of_mem _ here.1, here.2⟩

/-- A clean front stays in front of the first piece. -/
theorem splitOnP_append {p : Char → Bool} {front : List Char} (clean : ∀ c ∈ front, p c = false)
    (t : List Char) : (front ++ t).splitOnP p = (t.splitOnP p).modifyHead (front ++ ·) := by
  induction front with
  | nil =>
      obtain ⟨first, later, split⟩ := List.exists_cons_of_ne_nil (List.splitOnP_ne_nil p t)
      simp [split]
  | cons c rest ih =>
      have here := clean c List.mem_cons_self
      rw [List.cons_append, List.splitOnP_cons_eq_if_modifyHead, if_neg (by simp [here]),
        ih fun d member => clean d (List.mem_cons_of_mem _ member), List.modifyHead_modifyHead]
      rfl

theorem splitOnP_clean {p : Char → Bool} {t : List Char} (clean : ∀ c ∈ t, p c = false) :
    t.splitOnP p = [t] := by
  have front := splitOnP_append clean []
  rwa [List.append_nil, List.splitOnP_nil, List.modifyHead_cons, List.append_nil] at front

/-- On a text where two classes agree, they cut alike. -/
theorem splitOnP_congr {p q : Char → Bool} {t : List Char} (same : ∀ c ∈ t, p c = q c) :
    t.splitOnP p = t.splitOnP q := by
  induction t with
  | nil => rfl
  | cons c rest ih =>
      rw [List.splitOnP_cons_eq_if_modifyHead, List.splitOnP_cons_eq_if_modifyHead,
        same c List.mem_cons_self, ih fun d member => same d (List.mem_cons_of_mem _ member)]

variable {isBreak : Char → Bool}

theorem splitlines_cons {c : Char} (apart : c ≠ '\r') (rest : List Char) :
    splitlines isBreak (c :: rest) =
      if isBreak c then [] :: splitlines isBreak rest
      else match splitlines isBreak rest with
        | [] => [[c]]
        | line :: lines => (c :: line) :: lines := by
  rw [splitlines.eq_def]
  split
  · next eq => cases eq
  · next eq => exact absurd (List.cons.inj eq).1 apart
  · next eq =>
    obtain ⟨rfl, rfl⟩ := List.cons.inj eq
    rfl

/-- A line in front of a text, cut wherever it holds another line end. -/
theorem splitlines_line {line : List Char} (oneLine : OneLine line) (lf : isBreak '\n' = true)
    (ending : LineEnd) (rest : List Char) :
    splitlines isBreak (line ++ ending.text ++ rest) =
      line.splitOnP isBreak ++ splitlines isBreak rest := by
  induction line with
  | nil =>
      cases ending with
      | lf =>
          rw [List.nil_append, LineEnd.text, List.singleton_append, splitlines_cons (by decide),
            if_pos lf]
          rfl
      | crlf => rfl
  | cons c line ih =>
      have tail := ih fun d member => oneLine d (List.mem_cons_of_mem _ member)
      have apart := (oneLine c List.mem_cons_self).2
      rw [List.cons_append, List.cons_append, splitlines_cons apart, tail,
        List.splitOnP_cons_eq_if_modifyHead]
      obtain ⟨first, later, split⟩ := List.exists_cons_of_ne_nil (List.splitOnP_ne_nil isBreak line)
      rw [split]
      by_cases mark : isBreak c = true
      · rw [if_pos mark, if_pos mark]
        rfl
      · rw [if_neg mark, if_neg mark]
        rfl

/-- A clean line at the end of a text. -/
theorem splitlines_last {line : List Char} (oneLine : OneLine line)
    (clean : ∀ c ∈ line, isBreak c = false) (nonempty : line ≠ []) :
    splitlines isBreak line = [line] := by
  induction line with
  | nil => exact absurd rfl nonempty
  | cons c line ih =>
      rw [splitlines_cons (oneLine c List.mem_cons_self).2,
        if_neg (by simp [clean c List.mem_cons_self])]
      cases line with
      | nil => rfl
      | cons d line =>
          rw [ih (fun x member => oneLine x (List.mem_cons_of_mem _ member))
            (fun x member => clean x (List.mem_cons_of_mem _ member)) (List.cons_ne_nil _ _)]

end TextLines
