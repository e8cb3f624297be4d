import Noxis.JsonText
import Noxis.OpenAICompatible
import Noxis.Library.TextLines

/-! What `stream_completion` makes of a body of server-sent events: one data line per object,
other lines between them, `[DONE]` at the end. -/
namespace Noxis
open TextLines QuotedText

/-- What one line does to the stream. -/
inductive Heard where
  | nothing
  | value (v : Json)
  | stop

def heardLine (lib : Libraries) (line : String) : Heard :=
  match dataField line with
  | none => .nothing
  | some data =>
      if data = "[DONE]" then .stop
      else match lib.loads data with
        | .ok v => .value v
        | .error .decode => .nothing
        | .error .other => .stop

def Heard.value? : Heard → Option Json
  | .value v => some v
  | _ => none

def collected : List Heard → List Json
  | [] => []
  | .nothing :: rest => collected rest
  | .value v :: rest => v :: collected rest
  | .stop :: _ => []

theorem readLines_eq_collected (lib : Libraries) (name : String) (broken : Option TransportError)
    (lines : List String) :
    (readLines lib name broken lines).1 = collected (lines.map (heardLine lib)) := by
  induction lines with
  | nil => rfl
  | cons line rest ih =>
      rw [readLines, List.map_cons]
      cases field : dataField line with
      | none => simpa [heardLine, field, collected] using ih
      | some data =>
          by_cases last : data = "[DONE]"
          · simp [heardLine, field, last, collected]
          · cases loaded : lib.loads data with
            | ok value => simpa [heardLine, field, last, loaded, collected] using ih
            | error reason =>
                cases reason with
                | decode => simpa [heardLine, field, last, loaded, collected] using ih
                | other => simp [heardLine, field, last, loaded, collected]

section collecting
variable {heard : List Heard}

theorem collected_sublist (heard : List Heard) :
    (collected heard).Sublist (heard.filterMap Heard.value?) := by
  induction heard with
  | nil => exact .slnil
  | cons h rest ih =>
      cases h with
      | nothing => exact ih
      | value v => exact ih.cons_cons v
      | stop => exact List.nil_sublist _

/-- Nothing is heard behind a stop. -/
theorem collected_stop (heard rest : List Heard) :
    collected (heard ++ .stop :: rest) = collected heard := by
  induction heard with
  | nil => rfl
  | cons h heard ih =>
      cases h with
      | nothing => exact ih
      | value v => exact congrArg (v :: ·) ih
      | stop => rfl

theorem collected_going (going : Heard.stop ∉ heard) (rest : List Heard) :
    collected (heard ++ rest) = heard.filterMap Heard.value? ++ collected rest := by
  induction heard with
  | nil => rfl
  | cons h heard ih =>
      have tail := ih fun member => going (List.mem_cons_of_mem _ member)
      cases h with
      | nothing => exact tail
      | value v => exact congrArg (v :: ·) tail
      | stop => exact absurd List.mem_cons_self going

theorem filterMap_silent (silent : ∀ v, Heard.value v ∉ heard) :
    heard.filterMap Heard.value? = [] := by
  rw [List.filterMap_eq_nil_iff]
  intro h member
  cases h with
  | value v => exact absurd member (silent v)
  | nothing => rfl
  | stop => rfl

theorem collected_stopped (silent : ∀ v, Heard.value v ∉ heard) (stops : Heard.stop ∈ heard)
    (rest : List Heard) : collected (heard ++ rest) = [] := by
  obtain ⟨before, after, rfl⟩ := List.append_of_mem stops
  rw [List.append_assoc, List.cons_append, collected_stop]
  have sub := collected_sublist before
  rw [filterMap_silent fun v member => silent v (List.mem_append_left _ member)] at sub
  exact List.sublist_nil.mp sub

end collecting

/-- An object sent on a data line of its own, with or without a space behind the colon. -/
structure SentObject (word : List Char → Option Scalar) where
  text : List Char
  members : List (String × Json)
  spaced : Bool
  ending : LineEnd
  spells : Spells word True text (.value (.obj members))
  oneLine : OneLine text

/-- What stands in front of the object on its line. -/
def SentObject.front {word : List Char → Option Scalar} (o : SentObject word) : List Char :=
  "data:".toList ++ if o.spaced then [' '] else []

/-- Any other line: a blank one, a comment, another field. -/
structure OtherLine where
  line : List Char
  ending : LineEnd
  oneLine : OneLine line
  apart : ¬ "data:".toList <+: line

inductive SseItem (word : List Char → Option Scalar) where
  | object (o : SentObject word)
  | other (l : OtherLine)

namespace SseItem
variable {word : List Char → Option Scalar}

def line : SseItem word → List Char
  | .object o => o.front ++ o.text
  | .other l => l.line

def ending : SseItem word → LineEnd
  | .object o => o.ending
  | .other l => l.ending

def sent : SseItem word → List Json
  | .object o => [.obj o.members]
  | .other _ => []

/-- The lines that the client is shown for this one. -/
def pieces (item : SseItem word) : List (List Char) := item.line.splitOnP isLineBreak

def heard (lib : Libraries) (item : SseItem word) : List Heard :=
  item.pieces.map fun piece => heardLine lib (.ofList piece)

end SseItem

/-- A body: the items, the `[DONE]` line, and any further text behind that line. -/
structure SseBody (word : List Char → Option Scalar) where
  items : List (SseItem word)
  further : List Char
  lineEnds : further = [] ∨ ∃ (ending : LineEnd) (rest : List Char), further = ending.text ++ rest

namespace SseBody
variable {word : List Char → Option Scalar}

def text (body : SseBody word) : List Char :=
  (body.items.flatMap fun item => item.line ++ item.ending.text) ++ "data: [DONE]".toList ++
    body.further

def sent (body : SseBody word) : List Json := body.items.flatMap SseItem.sent

/-- The lines of the body as `aiter_lines` yields them. -/
def lines (body : SseBody word) : List String := (splitlines isLineBreak body.text).map .ofList

end SseBody

section cutting
variable {word : List Char → Option Scalar}

theorem isLineBreak_of_oneLine {t : List Char} (oneLine : OneLine t) :
    ∀ c ∈ t, isLineBreak c = isHiddenBreak c := by
  intro c member
  simp [isLineBreak, (oneLine c member).1, (oneLine c member).2]

theorem OneLine.append {s t : List Char} (first : OneLine s) (second : OneLine t) :
    OneLine (s ++ t) := by
  intro c member
  rcases List.mem_append.mp member with member | member
  · exact first c member
  · exact second c member

theorem done_clean : ∀ c ∈ "data: [DONE]".toList, isLineBreak c = false := by
  have clean : ("data: [DONE]".toList.all fun c => !isLineBreak c) = true := by decide
  intro c member
  simpa using List.all_eq_true.mp clean c member

theorem SentObject.front_clean (o : SentObject word) : ∀ c ∈ o.front, isLineBreak c = false := by
  have data : ("data: ".toList.all fun c => !isLineBreak c) = true := by decide
  have among : o.front ⊆ "data: ".toList := by
    unfold SentObject.front
    cases o.spaced <;> decide
  intro c member
  simpa using List.all_eq_true.mp data c (among member)

theorem oneLine_of_clean {t : List Char} (clean : ∀ c ∈ t, isLineBreak c = false) : OneLine t := by
  intro c member
  have this := clean c member
  simp only [isLineBreak, Bool.or_eq_false_iff, beq_eq_false_iff_ne] at this
  exact this.1

theorem SseItem.oneLine (item : SseItem word) : OneLine item.line := by
  cases item with
  | object o => exact OneLine.append (oneLine_of_clean o.front_clean) o.oneLine
  | other l => exact l.oneLine

/-- A separator cuts the line of an object inside its text. -/
theorem SentObject.pieces_eq (o : SentObject word) :
    (SseItem.object o).pieces = (o.text.splitOnP isHiddenBreak).modifyHead (o.front ++ ·) := by
  rw [SseItem.pieces, SseItem.line, splitOnP_append o.front_clean,
    splitOnP_congr (isLineBreak_of_oneLine o.oneLine)]

theorem splitlines_items (items : List (SseItem word)) (rest : List Char) :
    splitlines isLineBreak ((items.flatMap fun item => item.line ++ item.ending.text) ++ rest) =
      items.flatMap SseItem.pieces ++ splitlines isLineBreak rest := by
  induction items with
  | nil => rfl
  | cons item items ih =>
      rw [List.flatMap_cons, List.append_assoc, splitlines_line item.oneLine (by decide), ih,
        List.flatMap_cons, List.append_assoc]
      rfl

theorem splitlines_done (body : SseBody word) :
    ∃ after, splitlines isLineBreak ("data: [DONE]".toList ++ body.further) =
      "data: [DONE]".toList :: after := by
  have oneLine := oneLine_of_clean done_clean
  rcases body.lineEnds with none | ⟨ending, rest, eq⟩
  · rw [none, List.append_nil]
    exact ⟨[], splitlines_last oneLine done_clean (by decide)⟩
  · rw [eq, ← List.append_assoc, splitlines_line oneLine (by decide)]
    rw [splitOnP_clean done_clean]
    exact ⟨splitlines isLineBreak rest, rfl⟩

theorem heardLine_done (lib : Libraries) :
    heardLine lib (.ofList "data: [DONE]".toList) = .stop := by
  have field : dataField "data: [DONE]" = some "[DONE]" := by decide
  rw [String.ofList_toList, heardLine, field]
  rfl

/-- The stream yields what is heard up to the first stop. -/
theorem yielded_eq_collected (lib : Libraries) (name : String) {status : ℕ}
    (accepted : status < 400) (header : Option String) (error : Except TransportError String)
    (broken : Option TransportError) (body : SseBody word) :
    (streamCompletion lib name (.answered status header error body.lines broken)).1 =
      collected (body.items.flatMap (SseItem.heard lib)) := by
  obtain ⟨after, done⟩ := splitlines_done body
  have lines : (body.lines.map (heardLine lib)) =
      body.items.flatMap (SseItem.heard lib) ++
        .stop :: after.map (fun piece => heardLine lib (.ofList piece)) := by
    rw [SseBody.lines, SseBody.text, List.append_assoc, splitlines_items, done, List.map_map,
      List.map_append, List.map_cons, List.map_flatMap]
    change _ ++ heardLine lib (.ofList "data: [DONE]".toList) :: _ = _
    rw [heardLine_done]
    rfl
  have read : ¬ 400 ≤ status := by omega
  simp only [streamCompletion, if_neg read, readLines_eq_collected, lines, collected_stop]

end cutting

section fields

/-- What `strip` takes off is white space. -/
theorem strip_split (cs : List Char) : ∃ l r : List Char, cs = l ++ ((strip cs).toList ++ r) ∧
    (∀ c ∈ l, isPySpace c = true) ∧ ∀ c ∈ r, isPySpace c = true := by
  refine ⟨cs.takeWhile isPySpace, ((cs.dropWhile isPySpace).reverse.takeWhile isPySpace).reverse,
    ?_, fun c member => List.mem_takeWhile_imp member,
    fun c member => List.mem_takeWhile_imp (List.mem_reverse.mp member)⟩
  rw [strip, String.toList_ofList, ← List.reverse_append, List.takeWhile_append_dropWhile,
    List.reverse_reverse, List.takeWhile_append_dropWhile]

/-- An object has nothing to take off but the blanks in front of it. -/
theorem strip_object {l m : List Char} (blank : ∀ c ∈ l, isPySpace c = true) :
    strip (l ++ '{' :: (m ++ ['}'])) = .ofList ('{' :: (m ++ ['}'])) := by
  rw [strip, List.dropWhile_append_of_pos blank, List.dropWhile_cons_of_neg (by decide),
    List.reverse_cons, List.reverse_append, List.reverse_singleton, List.singleton_append,
    List.cons_append, List.dropWhile_cons_of_neg (by decide)]
  simp

theorem dataField_data (rest : List Char) :
    dataField (.ofList ("data:".toList ++ rest)) = some (strip rest) := by
  simp [dataField]

theorem dataField_some {piece : List Char} {data : String}
    (field : dataField (.ofList piece) = some data) :
    ∃ rest, piece = "data:".toList ++ rest ∧ data = strip rest := by
  simp only [dataField, String.toList_ofList] at field
  split_ifs at field with starts
  obtain ⟨rest, eq⟩ := List.isPrefixOf_iff_prefix.mp starts
  refine ⟨rest, eq.symm, ?_⟩
  rw [← eq, List.drop_left] at field
  exact (Option.some.inj field).symm

theorem heardLine_value {lib : Libraries} {line : String} {v : Json}
    (heard : heardLine lib line = .value v) :
    ∃ data, dataField line = some data ∧ lib.loads data = .ok v := by
  unfold heardLine at heard
  split at heard
  · cases heard
  · next data field =>
    split_ifs at heard
    split at heard
    · next loaded =>
      cases heard
      exact ⟨data, field, loaded⟩
    · cases heard
    · cases heard

variable {word : List Char → Option Scalar}

theorem Spells.braces {strict : Prop} {t : List Char} {ms : List (String × Json)}
    (h : Spells word strict t (.value (.obj ms))) : ∃ m, t = '{' :: (m ++ ['}']) := by
  cases h with
  | object names members => exact ⟨_, rfl⟩

theorem SentObject.spaces (o : SentObject word) :
    ∀ c ∈ (if o.spaced then [' '] else []), isPySpace c = true := by
  intro c member
  split_ifs at member
  · cases List.mem_singleton.mp member
    decide
  · cases member

end fields

section items
variable {word : List Char → Option Scalar} {lib : Libraries}

/-- An object without separators is yielded as it was sent. -/
theorem heard_of_clean {o : SentObject word} (clean : ∀ c ∈ o.text, isHiddenBreak c = false)
    (reads : lib.loads (.ofList o.text) = .ok (.obj o.members)) :
    (SseItem.object o).heard lib = [.value (.obj o.members)] := by
  obtain ⟨m, braces⟩ := o.spells.braces
  have field : dataField (.ofList (o.front ++ o.text)) = some (.ofList o.text) := by
    rw [SentObject.front, List.append_assoc, dataField_data, braces, strip_object o.spaces]
  have started : String.ofList o.text ≠ "[DONE]" := by
    intro eq
    have chars := congrArg String.toList eq
    rw [String.toList_ofList, braces] at chars
    exact absurd (List.cons.inj (chars.trans (by decide : _ = ['[', 'D', 'O', 'N', 'E', ']']))).1
      (by decide)
  rw [SseItem.heard, o.pieces_eq, splitOnP_clean clean, List.modifyHead_cons, List.map_singleton,
    heardLine, field]
  simp only [started, if_false, reads]

/-- So is any other line without separators: nothing is heard. -/
theorem heard_of_plain {l : OtherLine} (clean : ∀ c ∈ l.line, isHiddenBreak c = false) :
    (SseItem.other l : SseItem word).heard lib = [.nothing] := by
  have line : ∀ c ∈ l.line, isLineBreak c = false := by
    intro c member
    rw [isLineBreak_of_oneLine l.oneLine c member]
    exact clean c member
  have field : dataField (.ofList l.line) = none := by
    rw [Option.eq_none_iff_forall_not_mem]
    intro data here
    obtain ⟨rest, eq, -⟩ := dataField_some here
    exact l.apart ⟨rest, eq.symm⟩
  rw [SseItem.heard, SseItem.pieces, SseItem.line, splitOnP_clean line, List.map_singleton,
    heardLine, field]

/-- What is heard of an object that a separator cuts has no separator in its strings. -/
theorem heard_of_cut (sound : ∀ t v, lib.loads t = .ok v → Spells word False t.toList (.element v))
    {o : SentObject word} (cut : ∃ c ∈ o.text, isHiddenBreak c = true) {v : Json}
    (heard : Heard.value v ∈ (SseItem.object o).heard lib) : ¬ v.Mentions isHiddenBreak := by
  obtain ⟨piece, member, heard⟩ := List.mem_map.mp heard
  obtain ⟨data, field, loaded⟩ := heardLine_value heard
  obtain ⟨rest, line, rfl⟩ := dataField_some field
  have spelled := sound _ v loaded
  obtain ⟨l, r, trimmed, left, right⟩ := strip_split rest
  obtain ⟨first, later, split, insideLater, e, ranFirst, ends⟩ :=
    pieces_of_run (by decide) (by decide) (fun c => isHiddenBreak_space) o.spells.reads
  rw [o.pieces_eq, split, List.modifyHead_cons] at member
  rcases List.mem_cons.mp member with rfl | member
  · -- the front of the object ends inside a string, so it is not a value
    rw [SentObject.front, List.append_assoc, List.append_cancel_left_eq] at line
    have ran : readJson .outside rest = some .inside := by
      rw [← line, ← ends cut]
      refine readJson_append ?_ ranFirst
      cases o.spaced <;> rfl
    rw [trimmed] at ran
    have inside := run_trim (by decide) (by decide) left right ran
    cases spelled.reads.symm.trans inside
  · -- the rest starts inside a string: what reads as a value from there has no escape
    obtain ⟨e', ran⟩ := insideLater piece member
    have clean := piece_clean (split ▸ List.mem_cons_of_mem _ member : piece ∈ o.text.splitOnP _)
    rw [line, trimmed] at ran clean
    obtain ⟨mid, tag, ran⟩ := run_split ran
    cases Option.some.inj tag
    have inside := run_trim (by decide) (by decide) left right ran
    intro mentions
    rcases spelled.mentioned mentions with escape | ⟨c, here, marked⟩
    · exact no_escape (.inl ⟨rfl, rfl⟩) inside spelled.reads escape
    · have plain := (clean c (by simp [here])).2
      exact absurd (plain.symm.trans marked) (by decide)

end items

namespace SseItem
variable {word : List Char → Option Scalar} (lib : Libraries)

def values (item : SseItem word) : List Json := (item.heard lib).filterMap Heard.value?

/-- A value is heard behind a separator of the line. -/
def Gives (item : SseItem word) : Prop := ∃ v, Heard.value v ∈ item.heard lib

/-- A `[DONE]` is heard there, or data that stops the reader with an exception. -/
def Stops (item : SseItem word) : Prop := Heard.stop ∈ item.heard lib

/-- No separator stands in an object. No other line gives a value, and none stops the stream
before the last object. -/
def Intact : List (SseItem word) → Prop
  | [] => True
  | .object o :: rest => (∀ c ∈ o.text, isHiddenBreak c = false) ∧ Intact rest
  | .other l :: rest =>
      ¬ (SseItem.other l : SseItem word).Gives lib ∧
        ((SseItem.other l : SseItem word).Stops lib → rest.flatMap sent = []) ∧ Intact rest

/-- A value behind a separator of another line can stand in for an object that is lost. -/
def Masked (items : List (SseItem word)) : Prop :=
  (∃ l, .other l ∈ items ∧ (SseItem.other l : SseItem word).Gives lib) ∧
    ((∃ o, .object o ∈ items ∧ ∃ c ∈ o.text, isHiddenBreak c = true) ∨
      ∃ l, .other l ∈ items ∧ (SseItem.other l : SseItem word).Stops lib)

/-- `json.loads` parses the texts of the objects. -/
def Read (items : List (SseItem word)) : Prop :=
  ∀ o, .object o ∈ items → lib.loads (.ofList o.text) = .ok (.obj o.members)

end SseItem

section bodies
open SseItem
variable {word : List Char → Option Scalar} {lib : Libraries} {item : SseItem word}
  {items : List (SseItem word)}

theorem SseItem.Read.tail (reads : SseItem.Read lib (item :: items)) : SseItem.Read lib items :=
  fun o member => reads o (List.mem_cons_of_mem _ member)

/-- An intact body is yielded as it was sent. -/
theorem collected_of_intact (reads : SseItem.Read lib items) (intact : Intact lib items) :
    collected (items.flatMap (heard lib)) = items.flatMap sent := by
  induction items with
  | nil => rfl
  | cons item items ih =>
      have tail := SseItem.Read.tail reads
      rw [List.flatMap_cons, List.flatMap_cons]
      cases item with
      | object o =>
          rw [heard_of_clean intact.1 (reads o List.mem_cons_self)]
          exact congrArg (Json.obj o.members :: ·) (ih tail intact.2)
      | other l =>
          have silent := not_exists.mp intact.1
          by_cases stops : (SseItem.other l : SseItem word).Stops lib
          · rw [collected_stopped silent stops]
            exact (intact.2.1 stops).symm
          · rw [collected_going stops, filterMap_silent silent]
            exact ih tail intact.2.2

/-- What an object says survives its cuts, or loses a string with a separator. -/
theorem count_object (sound : ∀ t v, lib.loads t = .ok v → Spells word False t.toList (.element v))
    {marked : Json → Bool} (marks : ∀ v, marked v = true ↔ v.Mentions isHiddenBreak)
    {o : SentObject word} (reads : lib.loads (.ofList o.text) = .ok (.obj o.members)) :
    ((SseItem.object o).values lib).countP marked ≤ (SseItem.object o).sent.countP marked ∧
      ((SseItem.object o).sent.countP marked ≤ ((SseItem.object o).values lib).countP marked →
        ∀ c ∈ o.text, isHiddenBreak c = false) := by
  by_cases cut : ∃ c ∈ o.text, isHiddenBreak c = true
  · have lost : ((SseItem.object o).values lib).countP marked = 0 := by
      rw [List.countP_eq_zero]
      intro v member here
      obtain ⟨h, heard, value⟩ := List.mem_filterMap.mp member
      cases h with
      | value w =>
          cases value
          exact heard_of_cut sound cut heard ((marks _).mp here)
      | nothing => cases value
      | stop => cases value
    have sent : (SseItem.object o).sent.countP marked = 1 := by
      rw [SseItem.sent, List.countP_singleton, if_pos]
      exact (marks _).mpr (o.spells.mentions cut)
    omega
  · have clean : ∀ c ∈ o.text, isHiddenBreak c = false := by
      intro c member
      by_contra marked
      exact cut ⟨c, member, Bool.eq_true_of_not_eq_false marked⟩
    rw [SseItem.values, heard_of_clean clean reads]
    exact ⟨le_rfl, fun _ => clean⟩

/-- Where nothing is larger and the whole is not smaller, nothing is smaller. -/
theorem le_of_sum_le {f g : SseItem word → ℕ} (le : ∀ i ∈ items, f i ≤ g i)
    (whole : (items.map g).sum ≤ (items.map f).sum) : ∀ i ∈ items, g i ≤ f i := by
  intro i member
  by_contra less
  exact not_lt_of_ge whole (List.sum_lt_sum f g le ⟨i, member, not_le.mp less⟩)

/-- Where no other line gives a value, every string with a separator that is yielded was sent,
and all are only where nothing is cut. -/
theorem clean_of_count
    (sound : ∀ t v, lib.loads t = .ok v → Spells word False t.toList (.element v))
    {marked : Json → Bool} (marks : ∀ v, marked v = true ↔ v.Mentions isHiddenBreak)
    (reads : SseItem.Read lib items)
    (silent : ∀ l, .other l ∈ items → ¬ (SseItem.other l : SseItem word).Gives lib)
    (kept : (items.flatMap sent).countP marked ≤ (items.flatMap (values lib)).countP marked) :
    ∀ o, .object o ∈ items → ∀ c ∈ o.text, isHiddenBreak c = false := by
  have fewer : ∀ i ∈ items, (i.values lib).countP marked ≤ i.sent.countP marked := by
    intro i member
    cases i with
    | object o => exact (count_object sound marks (reads o member)).1
    | other l =>
        rw [SseItem.values, filterMap_silent (not_exists.mp (silent l member))]
        exact Nat.zero_le _
  rw [List.countP_flatMap, List.countP_flatMap] at kept
  intro o member
  exact (count_object sound marks (reads o member)).2 (le_of_sum_le fewer kept _ member)

/-- Where no object is cut, a value in another line makes the answer longer. -/
theorem silent_of_length (reads : SseItem.Read lib items)
    (clean : ∀ o, .object o ∈ items → ∀ c ∈ o.text, isHiddenBreak c = false)
    (short : (items.flatMap (values lib)).length ≤ (items.flatMap sent).length) :
    ∀ l, .other l ∈ items → ¬ (SseItem.other l : SseItem word).Gives lib := by
  have more : ∀ i ∈ items, i.sent.length ≤ (i.values lib).length := by
    intro i member
    cases i with
    | object o =>
        rw [SseItem.values, heard_of_clean (clean o member) (reads o member)]
        exact le_rfl
    | other l => exact Nat.zero_le _
  rw [List.length_flatMap, List.length_flatMap] at short
  rintro l member ⟨v, heard⟩
  have none := le_of_sum_le more short _ member
  have one : 0 < ((SseItem.other l : SseItem word).values lib).length :=
    List.length_pos_of_mem (List.mem_filterMap.mpr ⟨_, heard, rfl⟩)
  exact absurd none (not_le.mpr one)

theorem intact_of_sent_nil
    (silent : ∀ l, .other l ∈ items → ¬ (SseItem.other l : SseItem word).Gives lib)
    (none : items.flatMap sent = []) : Intact lib items := by
  induction items with
  | nil => trivial
  | cons item items ih =>
      rw [List.flatMap_cons, List.append_eq_nil_iff] at none
      cases item with
      | object o => cases none.1
      | other l =>
          exact ⟨silent l List.mem_cons_self, fun _ => none.2,
            ih (fun l member => silent l (List.mem_cons_of_mem _ member)) none.2⟩

/-- Where objects are clean and other lines silent, only an early stop can lose anything. -/
theorem intact_of_collected (reads : SseItem.Read lib items)
    (clean : ∀ o, .object o ∈ items → ∀ c ∈ o.text, isHiddenBreak c = false)
    (silent : ∀ l, .other l ∈ items → ¬ (SseItem.other l : SseItem word).Gives lib)
    (same : collected (items.flatMap (heard lib)) = items.flatMap sent) : Intact lib items := by
  induction items with
  | nil => trivial
  | cons item items ih =>
      have silentTail := fun l member => silent l (List.mem_cons_of_mem item member)
      have cleanTail := fun o member => clean o (List.mem_cons_of_mem item member)
      have tail := ih (SseItem.Read.tail reads) cleanTail silentTail
      rw [List.flatMap_cons, List.flatMap_cons] at same
      cases item with
      | object o =>
          have here := clean o List.mem_cons_self
          rw [heard_of_clean here (reads o List.mem_cons_self)] at same
          exact ⟨here, tail (List.cons.inj same).2⟩
      | other l =>
          have here := not_exists.mp (silent l List.mem_cons_self)
          by_cases stops : (SseItem.other l : SseItem word).Stops lib
          · rw [collected_stopped here stops] at same
            exact ⟨silent l List.mem_cons_self, fun _ => same.symm,
              intact_of_sent_nil silentTail same.symm⟩
          · rw [collected_going stops, filterMap_silent here] at same
            exact ⟨silent l List.mem_cons_self, fun stopped => absurd stopped stops, tail same⟩

/-- A body that is yielded as it was sent is intact, or a value in another line stands in. -/
theorem intact_or_masked
    (sound : ∀ t v, lib.loads t = .ok v → Spells word False t.toList (.element v))
    (reads : SseItem.Read lib items)
    (same : collected (items.flatMap (heard lib)) = items.flatMap sent) :
    Intact lib items ∨ Masked lib items := by
  classical
  by_cases gives : ∃ l, .other l ∈ items ∧ (SseItem.other l : SseItem word).Gives lib
  · right
    refine ⟨gives, ?_⟩
    by_contra apart
    rw [not_or, not_exists, not_exists] at apart
    -- with clean objects and without a stop, a value too many is seen
    have clean : ∀ o, .object o ∈ items → ∀ c ∈ o.text, isHiddenBreak c = false :=
      fun o member c inside => by
        by_contra marked
        exact apart.1 o ⟨member, c, inside, Bool.eq_true_of_not_eq_false marked⟩
    have going : Heard.stop ∉ items.flatMap (heard lib) := by
      intro member
      obtain ⟨item, inside, stops⟩ := List.mem_flatMap.mp member
      cases item with
      | object o => simp [heard_of_clean (clean o inside) (reads o inside)] at stops
      | other l => exact apart.2 l ⟨inside, stops⟩
    have all := collected_going going []
    rw [List.append_nil, same, List.filterMap_flatMap] at all
    obtain ⟨l, member, here⟩ := gives
    refine silent_of_length reads clean ?_ l member here
    rw [all, collected, List.append_nil]
    rfl
  · left
    have silent : ∀ l, .other l ∈ items → ¬ (SseItem.other l : SseItem word).Gives lib :=
      fun l member here => gives ⟨l, member, here⟩
    let marked : Json → Bool := fun v => decide (v.Mentions isHiddenBreak)
    have marks : ∀ v, marked v = true ↔ v.Mentions isHiddenBreak := fun v => decide_eq_true_iff
    have kept :
        (items.flatMap sent).countP marked ≤ (items.flatMap (values lib)).countP marked := by
      have sub := collected_sublist (items.flatMap (heard lib))
      rw [same, List.filterMap_flatMap] at sub
      exact sub.countP_le
    exact intact_of_collected reads (clean_of_count sound marks reads silent kept) silent same

/-- Where no separator stands in an object, where no other line gives a value and none stops the
stream early, exactly the objects are yielded. Nowhere else, unless a value in another line
stands in for an object. -/
theorem objects_yielded_exactly (lib : Libraries) (word : List Char → Option Scalar)
    (sound : ∀ t v, lib.loads t = .ok v → Spells word False t.toList (.element v)) (name : String)
    {status : ℕ} (accepted : status < 400) (header : Option String)
    (error : Except TransportError String) (broken : Option TransportError)
    (body : SseBody word) (reads : SseItem.Read lib body.items) :
    (Intact lib body.items →
      (streamCompletion lib name (.answered status header error body.lines broken)).1 = body.sent) ∧
    ((streamCompletion lib name (.answered status header error body.lines broken)).1 = body.sent →
      Intact lib body.items ∨ Masked lib body.items) := by
  rw [yielded_eq_collected lib name accepted]
  exact ⟨collected_of_intact reads, intact_or_masked sound reads⟩

end bodies

section demo

theorem spells_chars {word : List Char → Option Scalar} {strict : Prop} {cs : List Char}
    (plain : (cs.all fun c => c != '"' && c != '\\' && decide (32 ≤ c.toNat)) = true) :
    Spells word strict cs (.chars cs) := by
  induction cs with
  | nil => exact .noChars
  | cons c cs ih =>
      simp only [List.all_cons, Bool.and_eq_true, bne_iff_ne, decide_eq_true_eq] at plain
      exact .plain plain.1.1 plain.1.2 (ih plain.2)

def Demo.word : List Char → Option Scalar := fun _ => none

/-- A text that is an object, and its members. -/
structure Demo.Known where
  text : List Char
  members : List (String × Json)
  spells : ∀ strict, Spells Demo.word strict text (.value (.obj members))

/-- `json.loads` on some texts, each of which it takes for an object. -/
def Demo.loadsEach (known : List Demo.Known) : Libraries :=
  { Demo.libraries with
    loads := fun t => match known.find? (fun o => t = .ofList o.text) with
      | some o => .ok (.obj o.members)
      | none => .error .decode }

theorem Demo.loadsEach_sound (known : List Demo.Known) (t : String) (v : Json)
    (loaded : (Demo.loadsEach known).loads t = .ok v) :
    Spells Demo.word False t.toList (.element v) := by
  simp only [Demo.loadsEach] at loaded
  split at loaded
  · rename_i o first
    cases loaded
    have same : t = .ofList o.text := by simpa using List.find?_some first
    have element := Spells.element (l := []) (r := []) nofun nofun (o.spells False)
    rw [List.nil_append, List.append_nil] at element
    rwa [same, String.toList_ofList]
  · cases loaded

theorem Demo.oneLine {t : List Char} (apart : (t.all fun c => c != '\n' && c != '\r') = true) :
    OneLine t := by
  intro c member
  simpa using List.all_eq_true.mp apart c member

theorem Demo.plain {t : List Char} (clean : (t.all fun c => !isHiddenBreak c) = true) :
    ∀ c ∈ t, isHiddenBreak c = false := by
  intro c member
  simpa using List.all_eq_true.mp clean c member

def Demo.comment : OtherLine where
  line := ": hi".toList
  ending := .lf
  oneLine := Demo.oneLine (by decide)
  apart := by decide

/-- The object with one member `a`, a text without quotes and backslashes. -/
def Demo.holding (t : List Char)
    (plain : (t.all fun c => c != '"' && c != '\\' && decide (32 ≤ c.toNat)) = true) :
    Demo.Known where
  text := '{' :: ('"' :: ('a' :: '"' :: ':' :: '"' :: (t ++ ['"'])) ++ ['}'])
  members := [("a", .str (.ofList t))]
  spells := fun strict => by
    have text : Spells Demo.word strict ('"' :: (t ++ ['"'])) (.value (.str (.ofList t))) :=
      .text (spells_chars plain)
    have element := Spells.element (l := []) (r := []) nofun nofun text
    rw [List.append_nil, List.nil_append] at element
    exact .object (fun _ => by simp) (.lastMember (.member (l := []) (k := ['a']) (r := []) nofun nofun
      (spells_chars (by decide)) element))

def Demo.Known.sent (o : Demo.Known) (spaced : Bool) (ending : LineEnd)
    (oneLine : OneLine o.text) : SentObject Demo.word :=
  { text := o.text, members := o.members, spaced, ending, spells := o.spells True, oneLine }

def Demo.plainText : Demo.Known := Demo.holding "b".toList (by decide)

def Demo.umlauts : Demo.Known := Demo.holding "gr\u00fc\u00dfe, \u4e16".toList (by decide)

def Demo.body : SseBody Demo.word where
  items := [.other Demo.comment, .object (Demo.plainText.sent true .crlf (Demo.oneLine (by decide))),
    .object (Demo.umlauts.sent false .lf (Demo.oneLine (by decide)))]
  further := ['\n']
  lineEnds := .inr ⟨.lf, [], rfl⟩

def Demo.bodyLibraries : Libraries := Demo.loadsEach [Demo.plainText, Demo.umlauts]

theorem objects_yielded_exactly_two_objects :
    (streamCompletion Demo.bodyLibraries "a"
      (.answered 200 none (.ok "") Demo.body.lines none)).1 =
      [.obj [("a", .str "b")], .obj [("a", .str "gr\u00fc\u00dfe, \u4e16")]] := by
  have comment : (SseItem.other Demo.comment : SseItem Demo.word).heard Demo.bodyLibraries =
      [.nothing] := heard_of_plain (Demo.plain (by decide))
  refine (objects_yielded_exactly Demo.bodyLibraries Demo.word
    (Demo.loadsEach_sound _) "a" (by decide) none (.ok "") none Demo.body ?_).1 ?_
  · intro o member
    simp only [Demo.body, List.mem_cons, List.not_mem_nil, or_false, reduceCtorEq, false_or,
      SseItem.object.injEq] at member
    rcases member with rfl | rfl
    · rfl
    · rfl
  · refine ⟨?_, ?_, Demo.plain (by decide), Demo.plain (by decide), trivial⟩
    · rintro ⟨v, heard⟩
      simp [comment] at heard
    · intro stops
      simp [SseItem.Stops, comment] at stops

def Demo.divided : Demo.Known := Demo.holding "x\u2028y".toList (by decide)

def Demo.cut : SentObject Demo.word := Demo.divided.sent true .lf (Demo.oneLine (by decide))

def Demo.cutBody : SseBody Demo.word where
  items := [.object Demo.cut]
  further := []
  lineEnds := .inl rfl

def Demo.cutLibraries : Libraries := Demo.loadsEach [Demo.divided]

theorem object_lost :
    (∀ t v, Demo.cutLibraries.loads t = .ok v → Spells Demo.word False t.toList (.element v)) ∧
    SseItem.Read Demo.cutLibraries Demo.cutBody.items ∧
    Demo.cutBody.sent = [.obj [("a", .str "x\u2028y")]] ∧
    (streamCompletion Demo.cutLibraries "a"
      (.answered 200 none (.ok "") Demo.cutBody.lines none)).1 = [] := by
  refine ⟨Demo.loadsEach_sound _, ?_, rfl, ?_⟩
  · intro o member
    simp only [Demo.cutBody, List.mem_cons, List.not_mem_nil, or_false,
      SseItem.object.injEq] at member
    subst member
    rfl
  · rw [yielded_eq_collected _ _ (by decide)]
    have pieces : (SseItem.object Demo.cut).pieces =
        ["data: \x7b\"a\":\"x".toList, "y\"\x7d".toList] := by decide
    have first : dataField "data: \x7b\"a\":\"x" = some "\x7b\"a\":\"x" := by decide
    have second : dataField "y\"\x7d" = none := by decide
    have heard : (SseItem.object Demo.cut).heard Demo.cutLibraries = [.nothing, .nothing] := by
      rw [SseItem.heard, pieces]
      simp only [List.map_cons, List.map_nil, String.ofList_toList, heardLine, first, second]
      rfl
    change collected ((SseItem.object Demo.cut).heard Demo.cutLibraries ++ []) = []
    rw [heard]
    rfl

end demo

end Noxis
