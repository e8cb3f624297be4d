import Noxis.Logging
import Noxis.Library.QuotedText

/-! JSON texts. Which text spells which value, where in it a line separator can stand, and
whether the value then has it too. -/
namespace Noxis
open QuotedText

/-- Where `str.splitlines` ends a line besides the line feed and the carriage return. -/
def isHiddenBreak (c : Char) : Bool :=
  let n := c.toNat
  n == 0x0B || n == 0x0C || (0x1C ≤ n && n ≤ 0x1E) || n == 0x85 || n == 0x2028 || n == 0x2029

def isLineBreak (c : Char) : Bool := c == '\n' || c == '\r' || isHiddenBreak c

def isJsonBlank (c : Char) : Bool := c == ' ' || c == '\t' || c == '\n' || c == '\r'

/-- The characters of numbers and of words such as `true` and `NaN`. -/
def isLiteralChar (c : Char) : Bool := c.isAlphanum || c == '+' || c == '-' || c == '.'

def hexDigit (c : Char) : Option ℕ :=
  let n := c.toNat
  if 48 ≤ n ∧ n ≤ 57 then some (n - 48)
  else if 65 ≤ n ∧ n ≤ 70 then some (n - 55)
  else if 97 ≤ n ∧ n ≤ 102 then some (n - 87)
  else none

/-- The number of four hexadecimal digits. -/
def hexNumber : List Char → Option ℕ
  | [a, b, c, d] => do
      return (((← hexDigit a) * 16 + (← hexDigit b)) * 16 + (← hexDigit c)) * 16 + (← hexDigit d)
  | _ => none

def shortEscapes : List (Char × Char) :=
  [('"', '"'), ('\\', '\\'), ('/', '/'), ('b', .ofNat 8), ('f', .ofNat 12), ('n', '\n'),
    ('r', '\r'), ('t', '\t')]

/-- What may follow a backslash, and the character it stands for. Characters beyond the basic
plane take two units; one of the two alone, which `strict` excludes, has no character and is
shown as the replacement character. -/
inductive Escapes (strict : Prop) : List Char → Char → Prop
  | short {e c : Char} (known : (e, c) ∈ shortEscapes) : Escapes strict [e] c
  | unit {digits : List Char} {c : Char} (number : hexNumber digits = some c.toNat) :
      Escapes strict ('u' :: digits) c
  | half {digits : List Char} {h : ℕ} (number : hexNumber digits = some h)
      (range : 0xD800 ≤ h ∧ h < 0xE000) (lenient : ¬ strict) :
      Escapes strict ('u' :: digits) (.ofNat 0xFFFD)
  | pair {high low : List Char} {h l : ℕ} {c : Char} (first : hexNumber high = some h)
      (second : hexNumber low = some l) (highRange : 0xD800 ≤ h ∧ h < 0xDC00)
      (lowRange : 0xDC00 ≤ l ∧ l < 0xE000)
      (number : c.toNat = 0x10000 + (h - 0xD800) * 0x400 + (l - 0xDC00)) :
      Escapes strict ('u' :: (high ++ '\\' :: 'u' :: low)) c

/-- A phrase of the grammar: a value, one with blanks around it, the items of an array, one
member or the members of an object, or the characters of a string. -/
inductive Phrase where
  | value (v : Json)
  | element (v : Json)
  | items (vs : List Json)
  | member (name : String) (v : Json)
  | members (ms : List (String × Json))
  | chars (cs : List Char)

/-- The text spells the phrase, given what the interpreter makes of a number or a word. In a
dictionary the last of several members of one name counts; `strict` excludes them too. -/
inductive Spells (word : List Char → Option Scalar) (strict : Prop) : List Char → Phrase → Prop
  | word {t : List Char} {v : Scalar} (token : word t = some v)
      (plain : ∀ c ∈ t, isLiteralChar c = true) (noText : ∀ s, v ≠ .str s) :
      Spells word strict t (.value (.scalar v))
  | text {t cs : List Char} (chars : Spells word strict t (.chars cs)) :
      Spells word strict ('"' :: (t ++ ['"'])) (.value (.str (.ofList cs)))
  | array {t : List Char} {vs : List Json} (items : Spells word strict t (.items vs)) :
      Spells word strict ('[' :: (t ++ [']'])) (.value (.arr vs))
  | object {t : List Char} {ms : List (String × Json)}
      (names : strict → (ms.map Prod.fst).Nodup) (members : Spells word strict t (.members ms)) :
      Spells word strict ('{' :: (t ++ ['}'])) (.value (.obj (Json.update [] ms)))
  | element {t l r : List Char} {v : Json} (left : ∀ c ∈ l, isJsonBlank c = true)
      (right : ∀ c ∈ r, isJsonBlank c = true) (value : Spells word strict t (.value v)) :
      Spells word strict (l ++ (t ++ r)) (.element v)
  | noItems {l : List Char} (blank : ∀ c ∈ l, isJsonBlank c = true) :
      Spells word strict l (.items [])
  | lastItem {t : List Char} {v : Json} (last : Spells word strict t (.element v)) :
      Spells word strict t (.items [v])
  | moreItems {t rest : List Char} {v w : Json} {vs : List Json}
      (first : Spells word strict t (.element v))
      (others : Spells word strict rest (.items (w :: vs))) :
      Spells word strict (t ++ ',' :: rest) (.items (v :: w :: vs))
  | member {l k r t cs : List Char} {v : Json} (left : ∀ c ∈ l, isJsonBlank c = true)
      (right : ∀ c ∈ r, isJsonBlank c = true) (name : Spells word strict k (.chars cs))
      (value : Spells word strict t (.element v)) :
      Spells word strict (l ++ '"' :: (k ++ '"' :: (r ++ ':' :: t))) (.member (.ofList cs) v)
  | noMembers {l : List Char} (blank : ∀ c ∈ l, isJsonBlank c = true) :
      Spells word strict l (.members [])
  | lastMember {t : List Char} {name : String} {v : Json}
      (last : Spells word strict t (.member name v)) :
      Spells word strict t (.members [(name, v)])
  | moreMembers {t rest : List Char} {name : String} {v : Json} {m : String × Json}
      {ms : List (String × Json)} (first : Spells word strict t (.member name v))
      (others : Spells word strict rest (.members (m :: ms))) :
      Spells word strict (t ++ ',' :: rest) (.members ((name, v) :: m :: ms))
  | noChars : Spells word strict [] (.chars [])
  | plain {c : Char} {t cs : List Char} (apart : c ≠ '"' ∧ c ≠ '\\') (printed : 32 ≤ c.toNat)
      (others : Spells word strict t (.chars cs)) : Spells word strict (c :: t) (.chars (c :: cs))
  | escape {e t cs : List Char} {c : Char} (sequence : Escapes strict e c)
      (others : Spells word strict t (.chars cs)) :
      Spells word strict ('\\' :: (e ++ t)) (.chars (c :: cs))

/-- Where a reader of the phrase starts and ends. -/
def Phrase.mode : Phrase → Mode
  | .chars _ => .inside
  | _ => .outside

section reading

theorem hexDigit_plain {c : Char} {n : ℕ} (digit : hexDigit c = some n) :
    c ≠ '"' ∧ c ≠ '\\' ∧ isHiddenBreak c = false := by
  have quote : hexDigit '"' = none := by decide
  have escape : hexDigit '\\' = none := by decide
  refine ⟨?_, ?_, ?_⟩
  · rintro rfl
    cases quote.symm.trans digit
  · rintro rfl
    cases escape.symm.trans digit
  · simp only [hexDigit] at digit
    simp only [isHiddenBreak, Bool.or_eq_false_iff, Bool.and_eq_false_iff, beq_eq_false_iff_ne,
      decide_eq_false_iff_not]
    split_ifs at digit <;> omega

theorem hexNumber_plain {digits : List Char} {n : ℕ} (number : hexNumber digits = some n) :
    ∀ c ∈ digits, c ≠ '"' ∧ c ≠ '\\' ∧ isHiddenBreak c = false := by
  unfold hexNumber at number
  split at number
  · next a b c d =>
    simp only [Option.bind_eq_bind, Option.bind_eq_some_iff] at number
    obtain ⟨_, first, _, second, _, third, _, fourth, -⟩ := number
    simp only [List.forall_mem_cons, List.not_mem_nil, false_implies, implies_true, and_true]
    exact ⟨hexDigit_plain first, hexDigit_plain second, hexDigit_plain third,
      hexDigit_plain fourth⟩
  · cases number

theorem isHiddenBreak_cases {c : Char} (hidden : isHiddenBreak c = true) :
    c.toNat ∈ [0x0B, 0x0C, 0x1C, 0x1D, 0x1E, 0x85, 0x2028, 0x2029] := by
  simp only [isHiddenBreak, Bool.or_eq_true, Bool.and_eq_true, beq_iff_eq, decide_eq_true_eq]
    at hidden
  simp only [List.mem_cons, List.not_mem_nil, or_false]
  omega

theorem isHiddenBreak_space {c : Char} (hidden : isHiddenBreak c = true) : isPySpace c = true := by
  have which := isHiddenBreak_cases hidden
  simp only [List.mem_cons, List.not_mem_nil, or_false] at which
  simp only [isPySpace, Bool.or_eq_true, Bool.and_eq_true, beq_iff_eq, decide_eq_true_eq]
  omega

theorem isLiteralChar_plain {c : Char} (token : isLiteralChar c = true) :
    c ≠ '"' ∧ c ≠ '\\' ∧ isHiddenBreak c = false := by
  have apart := apart_of_class (p := isLiteralChar) (by decide) (by decide) token
  refine ⟨apart.1, apart.2, ?_⟩
  by_contra hidden
  have which := isHiddenBreak_cases (Bool.eq_true_of_not_eq_false hidden)
  have none : ([0x0B, 0x0C, 0x1C, 0x1D, 0x1E, 0x85, 0x2028, 0x2029].all
      fun n => !isLiteralChar (Char.ofNat n)) = true := by decide
  have this := List.all_eq_true.mp none _ which
  rw [Char.ofNat_toNat, token] at this
  cases this

theorem isJsonBlank_plain {c : Char} (blank : isJsonBlank c = true) :
    c ≠ '"' ∧ c ≠ '\\' ∧ isHiddenBreak c = false := by
  simp only [isJsonBlank, Bool.or_eq_true, beq_iff_eq] at blank
  rcases blank with ((rfl | rfl) | rfl) | rfl <;> decide

abbrev readJson : Mode → List Char → Option Mode := run isHiddenBreak isPySpace

theorem readJson_append {m mid e : Mode} {xs ys : List Char} (first : readJson m xs = some mid)
    (second : readJson mid ys = some e) : readJson m (xs ++ ys) = some e :=
  (run_after first ys).trans second

theorem readJson_plain {t : List Char} {c : Char} (apart : c ≠ '"' ∧ c ≠ '\\') :
    readJson .inside (c :: t) = readJson .inside t := by
  rw [readJson, run_cons, next, if_neg apart.1, if_neg apart.2, Option.bind_some]

/-- A sign of the grammar between two phrases. -/
theorem readJson_sign {t : List Char} {c : Char} (sign : c ∈ [',', ':', '[', ']', '{', '}']) :
    readJson .outside (c :: t) = readJson .outside t := by
  simp only [List.mem_cons, List.not_mem_nil, or_false] at sign
  rcases sign with rfl | rfl | rfl | rfl | rfl | rfl <;> rfl

theorem readJson_after {t rest : List Char} {c : Char} {m : Mode} {e : Option Mode}
    (first : readJson m t = some .outside) (sign : c ∈ [',', ':', '[', ']', '{', '}'])
    (second : readJson .outside rest = e) : readJson m (t ++ c :: rest) = e :=
  (run_after first _).trans ((readJson_sign sign).trans second)

/-- A string with its quotes. -/
theorem readJson_quoted {t rest : List Char} (inside : readJson .inside t = some .inside) :
    readJson .outside ('"' :: (t ++ '"' :: rest)) = readJson .outside rest := by
  rw [readJson, run_cons, next, if_pos rfl, Option.bind_some, run_after inside]
  rfl

theorem readJson_blank {t : List Char} (blank : ∀ c ∈ t, isJsonBlank c = true) :
    readJson .outside t = some .outside :=
  run_outside fun c member => isJsonBlank_plain (blank c member)

theorem readJson_unit {digits : List Char} {n : ℕ} (number : hexNumber digits = some n) :
    readJson .inside ('\\' :: 'u' :: digits) = some .inside := by
  rw [readJson, run_cons, next, if_neg (by decide), if_pos rfl, Option.bind_some, run_cons, next,
    if_neg (by decide), Option.bind_some]
  exact run_inside fun c member => ⟨(hexNumber_plain number c member).1,
    (hexNumber_plain number c member).2.1⟩

theorem shortEscapes_apart : (shortEscapes.all fun p => !isPySpace p.1) = true := by decide

variable {strict : Prop}

theorem readJson_escape {e : List Char} {c : Char} (sequence : Escapes strict e c) :
    readJson .inside ('\\' :: e) = some .inside := by
  cases sequence with
  | short known =>
      have apart := List.all_eq_true.mp shortEscapes_apart _ known
      rw [readJson, run_cons, next, if_neg (by decide), if_pos rfl, Option.bind_some, run_cons,
        next, if_neg (by simpa using apart), Option.bind_some, run_nil]
  | unit number => exact readJson_unit number
  | half number range lenient => exact readJson_unit number
  | pair first second =>
      rw [← List.cons_append, ← List.cons_append]
      exact readJson_append (readJson_unit first) (readJson_unit second)

theorem shortEscapes_plain : (shortEscapes.all fun p => !isHiddenBreak p.1) = true := by decide

/-- No separator stands in an escape. -/
theorem Escapes.plain {e : List Char} {c : Char} (sequence : Escapes strict e c) :
    ∀ d ∈ e, isHiddenBreak d = false := by
  have unit : ∀ {digits : List Char} {n : ℕ}, hexNumber digits = some n →
      ∀ d ∈ 'u' :: digits, isHiddenBreak d = false := by
    intro digits n number d member
    rcases List.mem_cons.mp member with rfl | member
    · decide
    · exact (hexNumber_plain number d member).2.2
  intro d member
  cases sequence with
  | short known =>
      cases List.mem_singleton.mp member
      simpa using List.all_eq_true.mp shortEscapes_plain _ known
  | unit number => exact unit number d member
  | half number range lenient => exact unit number d member
  | pair first second =>
      rw [← List.cons_append] at member
      rcases List.mem_append.mp member with member | member
      · exact unit first d member
      · rcases List.mem_cons.mp member with rfl | member
        · decide
        · exact unit second d member

variable {word : List Char → Option Scalar} {t : List Char} {p : Phrase}

/-- Every spelling can be read from end to end. -/
theorem Spells.reads (h : Spells word strict t p) : readJson p.mode t = some p.mode := by
  induction h with
  | word token plain noText =>
      exact run_outside fun c member => isLiteralChar_plain (plain c member)
  | text chars ih => exact readJson_quoted ih
  | array items ih => exact (readJson_sign (by simp)).trans (readJson_after ih (by simp) rfl)
  | object names members ih =>
      exact (readJson_sign (by simp)).trans (readJson_after ih (by simp) rfl)
  | element left right value ih =>
      exact readJson_append (readJson_blank left) (readJson_append ih (readJson_blank right))
  | noItems blank => exact readJson_blank blank
  | lastItem last ih => exact ih
  | moreItems first others ihFirst ihOthers => exact readJson_after ihFirst (by simp) ihOthers
  | member left right name value ihName ihValue =>
      refine readJson_append (readJson_blank left) ((readJson_quoted ihName).trans ?_)
      exact readJson_after (readJson_blank right) (by simp) ihValue
  | noMembers blank => exact readJson_blank blank
  | lastMember last ih => exact ih
  | moreMembers first others ihFirst ihOthers => exact readJson_after ihFirst (by simp) ihOthers
  | noChars => rfl
  | plain apart printed others ih => exact (readJson_plain apart).trans ih
  | escape sequence others ih => exact readJson_append (readJson_escape sequence) ih

end reading

section mentions

/-- A string in the value, or a name, has a character of the class. -/
inductive Json.Mentions (p : Char → Bool) : Json → Prop
  | text {s : String} {c : Char} (member : c ∈ s.toList) (marked : p c = true) :
      Json.Mentions p (.scalar (.str s))
  | item {v : Json} {vs : List Json} (member : v ∈ vs) (here : Json.Mentions p v) :
      Json.Mentions p (.arr vs)
  | name {name : String} {v : Json} {ms : List (String × Json)} {c : Char}
      (member : (name, v) ∈ ms) (inside : c ∈ name.toList) (marked : p c = true) :
      Json.Mentions p (.obj ms)
  | value {name : String} {v : Json} {ms : List (String × Json)} (member : (name, v) ∈ ms)
      (here : Json.Mentions p v) : Json.Mentions p (.obj ms)

/-- A string in the phrase, or a name, has a character of the class. -/
def Phrase.Mentions (p : Char → Bool) : Phrase → Prop
  | .value v | .element v => v.Mentions p
  | .items vs => (Json.arr vs).Mentions p
  | .member name v => (Json.obj [(name, v)]).Mentions p
  | .members ms => (Json.obj ms).Mentions p
  | .chars cs => ∃ c ∈ cs, p c = true

variable {p : Char → Bool}

theorem mentions_obj_of_subset {ms ms' : List (String × Json)} (subset : ms ⊆ ms')
    (here : (Json.obj ms).Mentions p) : (Json.obj ms').Mentions p := by
  cases here with
  | name member inside marked => exact .name (subset member) inside marked
  | value member here => exact .value (subset member) here

theorem mentions_arr_cons {v : Json} {vs : List Json} :
    (Json.arr (v :: vs)).Mentions p ↔ v.Mentions p ∨ (Json.arr vs).Mentions p := by
  constructor
  · intro here
    cases here with
    | item member here =>
        rcases List.mem_cons.mp member with rfl | member
        · exact .inl here
        · exact .inr (.item member here)
  · rintro (here | here)
    · exact .item List.mem_cons_self here
    · cases here with
      | item member here => exact .item (List.mem_cons_of_mem _ member) here

theorem mentions_obj_cons {m : String × Json} {ms : List (String × Json)} :
    (Json.obj (m :: ms)).Mentions p ↔ (Json.obj [m]).Mentions p ∨ (Json.obj ms).Mentions p := by
  constructor
  · intro here
    cases here with
    | name member inside marked =>
        rcases List.mem_cons.mp member with rfl | member
        · exact .inl (.name (List.mem_singleton_self _) inside marked)
        · exact .inr (.name member inside marked)
    | value member here =>
        rcases List.mem_cons.mp member with rfl | member
        · exact .inl (.value (List.mem_singleton_self _) here)
        · exact .inr (.value member here)
  · rintro (here | here)
    · exact mentions_obj_of_subset (by simp) here
    · exact mentions_obj_of_subset (List.subset_cons_self _ _) here

theorem mentions_member {name : String} {v : Json} :
    (Json.obj [(name, v)]).Mentions p ↔ (∃ c ∈ name.toList, p c = true) ∨ v.Mentions p := by
  constructor
  · intro here
    cases here with
    | name member inside marked =>
        cases List.mem_singleton.mp member
        exact .inl ⟨_, inside, marked⟩
    | value member here =>
        cases List.mem_singleton.mp member
        exact .inr here
  · rintro (⟨c, inside, marked⟩ | here)
    · exact .name (List.mem_singleton_self _) inside marked
    · exact .value (List.mem_singleton_self _) here

theorem not_mentions_arr_nil : ¬ (Json.arr []).Mentions p := by
  intro here
  cases here with
  | item member here => exact List.not_mem_nil member

theorem not_mentions_obj_nil : ¬ (Json.obj []).Mentions p := by
  intro here
  cases here with
  | name member inside marked => exact List.not_mem_nil member
  | value member here => exact List.not_mem_nil member

theorem setMember_subset (ms : List (String × Json)) (name : String) (v : Json) :
    Json.setMember ms name v ⊆ (name, v) :: ms := by
  intro m member
  unfold Json.setMember at member
  split_ifs at member
  · obtain ⟨m', member', eq⟩ := List.mem_map.mp member
    split_ifs at eq
    · exact eq ▸ List.mem_cons_self
    · exact eq ▸ List.mem_cons_of_mem _ member'
  · rcases List.mem_append.mp member with member | member
    · exact List.mem_cons_of_mem _ member
    · exact List.mem_singleton.mp member ▸ List.mem_cons_self

theorem update_subset (front ms : List (String × Json)) : Json.update front ms ⊆ front ++ ms := by
  induction ms generalizing front with
  | nil => simp [Json.update]
  | cons m ms ih =>
      intro x member
      rcases List.mem_append.mp (ih (Json.setMember front m.1 m.2) member) with first | later
      · rcases List.mem_cons.mp (setMember_subset front m.1 m.2 first) with rfl | inside
        · simp
        · exact List.mem_append_left _ inside
      · exact List.mem_append_right _ (List.mem_cons_of_mem _ later)

/-- Members of different names are all kept, in their order. -/
theorem update_distinct {front ms : List (String × Json)}
    (names : ((front ++ ms).map Prod.fst).Nodup) : Json.update front ms = front ++ ms := by
  induction ms generalizing front with
  | nil => simp [Json.update]
  | cons m ms ih =>
      have unset : front.any (fun d => d.1 = m.1) = false := by
        rw [List.any_eq_false]
        intro d member same
        rw [List.map_append, List.nodup_append] at names
        exact names.2.2 _ (List.mem_map_of_mem member) _ (by simp) (of_decide_eq_true same)
      have set : Json.setMember front m.1 m.2 = front ++ [m] := by
        rw [Json.setMember, unset]
        rfl
      have eq : Json.update front (m :: ms) = Json.update (Json.setMember front m.1 m.2) ms := rfl
      rw [eq, set, ih (by simpa using names), List.append_assoc]
      rfl

variable {word : List Char → Option Scalar} {strict : Prop} {t : List Char} {f : Phrase}

/-- What a phrase mentions stands in its text, or is escaped there. -/
theorem Spells.mentioned (h : Spells word strict t f) (here : f.Mentions p) :
    '\\' ∈ t ∨ ∃ c ∈ t, p c = true := by
  -- with the same fact about a part of the text, the whole text has it
  have part : ∀ {t t' : List Char}, t' ⊆ t → ('\\' ∈ t' ∨ ∃ c ∈ t', p c = true) →
      '\\' ∈ t ∨ ∃ c ∈ t, p c = true := by
    rintro t t' subset (escape | ⟨c, member, marked⟩)
    · exact .inl (subset escape)
    · exact .inr ⟨c, subset member, marked⟩
  induction h with
  | word token plain noText =>
      cases here with
      | text member marked => exact absurd rfl (noText _)
  | text chars ih =>
      cases here with
      | text member marked =>
          rw [String.toList_ofList] at member
          exact part (by simp) (ih ⟨_, member, marked⟩)
  | array items ih => exact part (by simp) (ih here)
  | object names members ih =>
      exact part (by simp) (ih (mentions_obj_of_subset (update_subset [] _) here))
  | element left right value ih => exact part (by simp) (ih here)
  | noItems blank => exact absurd here not_mentions_arr_nil
  | lastItem last ih =>
      rcases mentions_arr_cons.mp here with here | here
      · exact ih here
      · exact absurd here not_mentions_arr_nil
  | moreItems first others ihFirst ihOthers =>
      rcases mentions_arr_cons.mp here with here | here
      · exact part (by simp) (ihFirst here)
      · exact part (by simp) (ihOthers here)
  | member left right name value ihName ihValue =>
      rcases mentions_member.mp here with here | here
      · rw [String.toList_ofList] at here
        exact part (fun c inside => by simp [inside]) (ihName here)
      · exact part (fun c inside => by simp [inside]) (ihValue here)
  | noMembers blank => exact absurd here not_mentions_obj_nil
  | lastMember last ih => exact ih here
  | moreMembers first others ihFirst ihOthers =>
      rcases mentions_obj_cons.mp here with here | here
      · exact part (by simp) (ihFirst here)
      · exact part (by simp) (ihOthers here)
  | noChars =>
      obtain ⟨c, member, -⟩ := here
      cases member
  | plain apart printed others ih =>
      obtain ⟨d, member, marked⟩ := here
      rcases List.mem_cons.mp member with rfl | member
      · exact .inr ⟨d, List.mem_cons_self, marked⟩
      · exact part (List.subset_cons_self _ _) (ih ⟨d, member, marked⟩)
  | escape sequence others ih => exact .inl List.mem_cons_self

/-- A separator of the text stands in a string of what it spells. -/
theorem Spells.mentions (h : Spells word True t f) (here : ∃ c ∈ t, isHiddenBreak c = true) :
    f.Mentions isHiddenBreak := by
  obtain ⟨c, member, marked⟩ := here
  have notBlank : ∀ {l : List Char}, (∀ c ∈ l, isJsonBlank c = true) → c ∉ l := by
    intro l blank member
    exact absurd ((isJsonBlank_plain (blank c member)).2.2.symm.trans marked) (by decide)
  have notSign : ∀ {x : Char}, isHiddenBreak x = false → c ≠ x := by
    rintro x plain rfl
    exact absurd (plain.symm.trans marked) (by decide)
  induction h with
  | word token plain noText =>
      exact absurd ((isLiteralChar_plain (plain c member)).2.2.symm.trans marked) (by decide)
  | text chars ih =>
      simp only [List.mem_cons, List.mem_append, List.not_mem_nil, or_false,
        notSign (x := '"') (by decide), false_or] at member
      obtain ⟨d, inside, marked⟩ := ih member
      exact .text (by rwa [String.toList_ofList]) marked
  | array items ih =>
      simp only [List.mem_cons, List.mem_append, List.not_mem_nil, or_false,
        notSign (x := '[') (by decide), notSign (x := ']') (by decide), false_or] at member
      exact ih member
  | @object t ms names members ih =>
      simp only [List.mem_cons, List.mem_append, List.not_mem_nil, or_false,
        notSign (x := '{') (by decide), notSign (x := '}') (by decide), false_or] at member
      have kept : Json.update [] ms = [] ++ ms := update_distinct (names trivial)
      rw [kept]
      exact ih member
  | element left right value ih =>
      simp only [List.mem_append, notBlank left, notBlank right, false_or, or_false] at member
      exact ih member
  | noItems blank => exact absurd member (notBlank blank)
  | lastItem last ih => exact mentions_arr_cons.mpr (.inl (ih member))
  | moreItems first others ihFirst ihOthers =>
      simp only [List.mem_append, List.mem_cons, notSign (x := ',') (by decide), false_or] at member
      exact mentions_arr_cons.mpr (member.imp ihFirst ihOthers)
  | member left right name value ihName ihValue =>
      simp only [List.mem_append, List.mem_cons, notSign (x := '"') (by decide),
        notSign (x := ':') (by decide), notBlank left, notBlank right, false_or] at member
      refine mentions_member.mpr (member.imp (fun inside => ?_) ihValue)
      rw [String.toList_ofList]
      exact ihName inside
  | noMembers blank => exact absurd member (notBlank blank)
  | lastMember last ih => exact ih member
  | moreMembers first others ihFirst ihOthers =>
      simp only [List.mem_append, List.mem_cons, notSign (x := ',') (by decide), false_or] at member
      exact mentions_obj_cons.mpr (member.imp ihFirst ihOthers)
  | noChars => cases member
  | plain apart printed others ih =>
      rcases List.mem_cons.mp member with rfl | member
      · exact ⟨c, List.mem_cons_self, marked⟩
      · obtain ⟨d, inside, marked⟩ := ih member
        exact ⟨d, List.mem_cons_of_mem _ inside, marked⟩
  | escape sequence others ih =>
      simp only [List.mem_append, List.mem_cons, notSign (x := '\\') (by decide), false_or]
        at member
      rcases member with member | member
      · exact absurd ((Escapes.plain sequence c member).symm.trans marked) (by decide)
      · obtain ⟨d, inside, marked⟩ := ih member
        exact ⟨d, List.mem_cons_of_mem _ inside, marked⟩

end mentions
end Noxis
