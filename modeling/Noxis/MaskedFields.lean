import Noxis.Logging

/-! What `redact` keeps and what it hides in a value built from dicts, lists and scalars. -/
namespace Noxis

/-- A value handed to `redact`. The keys of a dict are distinct and of any type. -/
inductive LogValue (κ σ : Type) where
  | str (s : String)
  | scalar (v : σ)
  | list (items : List (LogValue κ σ))
  | dict (members : List (κ × LogValue κ σ))

namespace LogValue

section Keys
variable {κ σ : Type} (text : κ → String)

def mark : LogValue κ σ := .str (String.ofList redactMark)

mutual

/-- `redact`, where `text k` is `str(k)`. -/
def redact : LogValue κ σ → LogValue κ σ
  | .str s => .str (redactText s)
  | .dict members => .dict (redactMembers members)
  | .list items => .list (redactItems items)
  | .scalar v => .scalar v

def redactItems : List (LogValue κ σ) → List (LogValue κ σ)
  | [] => []
  | v :: rest => redact v :: redactItems rest

-- The keys are distinct, so each `out[k] = …` comes after the ones before.
def redactMembers : List (κ × LogValue κ σ) → List (κ × LogValue κ σ)
  | [] => []
  | (k, v) :: rest =>
      (k, if isSensitiveKey (text k) then mark else redact v) :: redactMembers rest

end

/-! ### Two values of one shape -/

mutual

/-- The same lists, keys and scalars. `texts` relates the strings, and what a sensitive key
holds is related by `masked` only. -/
inductive Matches (texts : String → String → Prop)
    (masked : LogValue κ σ → LogValue κ σ → Prop) : LogValue κ σ → LogValue κ σ → Prop
  | str {s t : String} (same : texts s t) : Matches texts masked (.str s) (.str t)
  | scalar (v : σ) : Matches texts masked (.scalar v) (.scalar v)
  | list {vs ws : List (LogValue κ σ)} (items : ItemsMatch texts masked vs ws) :
      Matches texts masked (.list vs) (.list ws)
  | dict {ms ns : List (κ × LogValue κ σ)} (members : MembersMatch texts masked ms ns) :
      Matches texts masked (.dict ms) (.dict ns)

inductive ItemsMatch (texts : String → String → Prop)
    (masked : LogValue κ σ → LogValue κ σ → Prop) :
    List (LogValue κ σ) → List (LogValue κ σ) → Prop
  | nil : ItemsMatch texts masked [] []
  | cons {v w : LogValue κ σ} {vs ws : List (LogValue κ σ)} (item : Matches texts masked v w)
      (rest : ItemsMatch texts masked vs ws) : ItemsMatch texts masked (v :: vs) (w :: ws)

inductive MembersMatch (texts : String → String → Prop)
    (masked : LogValue κ σ → LogValue κ σ → Prop) :
    List (κ × LogValue κ σ) → List (κ × LogValue κ σ) → Prop
  | empty : MembersMatch texts masked [] []
  | hidden {k : κ} {v w : LogValue κ σ} {ms ns : List (κ × LogValue κ σ)}
      (sensitive : isSensitiveKey (text k) = true) (field : masked v w)
      (rest : MembersMatch texts masked ms ns) :
      MembersMatch texts masked ((k, v) :: ms) ((k, w) :: ns)
  | shown {k : κ} {v w : LogValue κ σ} {ms ns : List (κ × LogValue κ σ)}
      (sensitive : isSensitiveKey (text k) = false) (field : Matches texts masked v w)
      (rest : MembersMatch texts masked ms ns) :
      MembersMatch texts masked ((k, v) :: ms) ((k, w) :: ns)

end

/-- The keys, the lengths and the scalars of `v`, with the mark in every sensitive field. -/
def SameShape : LogValue κ σ → LogValue κ σ → Prop :=
  Matches text (fun _ _ => True) (fun _ w => w = mark)

/-- The values differ only in what sensitive keys hold. -/
def EqualOutside : LogValue κ σ → LogValue κ σ → Prop :=
  Matches text Eq (fun _ _ => True)

def MembersEqualOutside : List (κ × LogValue κ σ) → List (κ × LogValue κ σ) → Prop :=
  MembersMatch text Eq (fun _ _ => True)

/-! ### The two properties -/

mutual

theorem sameShape_redact : ∀ v : LogValue κ σ, SameShape text v (redact text v)
  | .str _ => Matches.str trivial
  | .scalar v => Matches.scalar v
  | .list items => Matches.list (itemsMatch_redactItems items)
  | .dict members => Matches.dict (membersMatch_redactMembers members)

theorem itemsMatch_redactItems : ∀ items : List (LogValue κ σ),
    ItemsMatch text (fun _ _ => True) (fun _ w => w = mark) items (redactItems text items)
  | [] => ItemsMatch.nil
  | v :: rest => ItemsMatch.cons (sameShape_redact v) (itemsMatch_redactItems rest)

theorem membersMatch_redactMembers : ∀ members : List (κ × LogValue κ σ),
    MembersMatch text (fun _ _ => True) (fun _ w => w = mark) members
      (redactMembers text members)
  | [] => MembersMatch.empty
  | (k, v) :: rest => by
      have tail := membersMatch_redactMembers rest
      cases sensitive : isSensitiveKey (text k) with
      | true =>
          simp only [redactMembers, sensitive, if_true]
          exact MembersMatch.hidden sensitive rfl tail
      | false =>
          simp only [redactMembers, sensitive, Bool.false_eq_true, if_false]
          exact MembersMatch.shown sensitive (sameShape_redact v) tail

end

variable {text}

theorem redact_eq_of_equalOutside {v w : LogValue κ σ} (same : EqualOutside text v w) :
    redact text v = redact text w := by
  unfold EqualOutside at same
  induction same using Matches.rec
    (motive_2 := fun vs ws _ => redactItems text vs = redactItems text ws)
    (motive_3 := fun ms ns _ => redactMembers text ms = redactMembers text ns) with
    | str same => rw [same]
    | scalar v => rfl
    | list items ih => simp only [redact, ih]
    | dict members ih => simp only [redact, ih]
    | nil => rfl
    | empty => rfl
    | cons item rest head tail => simp only [redactItems, head, tail]
    | hidden sensitive field rest ih => simp only [redactMembers, sensitive, if_true, ih]
    | shown sensitive field rest head tail =>
        simp only [redactMembers, sensitive, Bool.false_eq_true, if_false, head, tail]

/-- Every structure is kept, whatever its depth, and no result depends on what a sensitive key
holds. -/
theorem masked_at_every_depth (text : κ → String) :
    (∀ v : LogValue κ σ, SameShape text v (redact text v)) ∧
      ∀ v w : LogValue κ σ, EqualOutside text v w → redact text v = redact text w :=
  ⟨sameShape_redact text, fun _ _ same => redact_eq_of_equalOutside same⟩

end Keys

/-- A key in another case, two containers down, over a text and over a list. -/
theorem masked_at_every_depth_nested :
    redact id (.dict [("users", .list [.dict [("API_Key", .str "n"), ("age", .scalar 3)]])]) =
      redact id (.dict [("users", .list [.dict [("API_Key", .list [.scalar 7]),
        ("age", .scalar 3)]])]) := by
  apply (masked_at_every_depth id).2
  have field : isSensitiveKey "API_Key" = true := by decide
  exact .dict (.shown (by decide) (.list (.cons (.dict (.hidden field trivial
    (.shown (by decide) (.scalar 3) .empty))) .nil)) .empty)

/-! ### The values of a log line -/

mutual

/-- A JSON value as `redact` meets it. -/
def ofJson : Json → LogValue String Scalar
  | .scalar (.str s) => .str s
  | .scalar v => .scalar v
  | .arr items => .list (ofItems items)
  | .obj members => .dict (ofMembers members)

def ofItems : List Json → List (LogValue String Scalar)
  | [] => []
  | v :: rest => ofJson v :: ofItems rest

def ofMembers : List (String × Json) → List (String × LogValue String Scalar)
  | [] => []
  | (k, v) :: rest => (k, ofJson v) :: ofMembers rest

end

theorem ofJson_str (s : String) : ofJson (.str s) = .str s := by
  rw [Json.str, ofJson]

mutual

theorem ofJson_redact : ∀ v : Json, ofJson (Noxis.redact v) = redact id (ofJson v)
  | .scalar v => by cases v <;> simp only [Noxis.redact, ofJson, redact]
  | .arr items => by simp only [Noxis.redact, ofJson, redact, ofItems_redact items]
  | .obj members => by simp only [Noxis.redact, ofJson, redact, ofMembers_redact members]

theorem ofItems_redact : ∀ items : List Json,
    ofItems (Noxis.redactItems items) = redactItems id (ofItems items)
  | [] => rfl
  | v :: rest => by
      simp only [Noxis.redactItems, ofItems, redactItems, ofJson_redact v, ofItems_redact rest]

theorem ofMembers_redact : ∀ members : List (String × Json),
    ofMembers (Noxis.redactMembers members) = redactMembers id (ofMembers members)
  | [] => rfl
  | (k, v) :: rest => by
      have tail := ofMembers_redact rest
      cases sensitive : isSensitiveKey k with
      | true =>
          simp [Noxis.redactMembers, ofMembers, redactMembers, sensitive, tail, mark, ofJson_str]
      | false =>
          simp [Noxis.redactMembers, ofMembers, redactMembers, sensitive, tail, ofJson_redact v]

end

mutual

def toJson : LogValue String Scalar → Json
  | .str s => .str s
  | .scalar v => .scalar v
  | .list items => .arr (toItems items)
  | .dict members => .obj (toMembers members)

def toItems : List (LogValue String Scalar) → List Json
  | [] => []
  | v :: rest => toJson v :: toItems rest

def toMembers : List (String × LogValue String Scalar) → List (String × Json)
  | [] => []
  | (k, v) :: rest => (k, toJson v) :: toMembers rest

end

mutual

theorem toJson_ofJson : ∀ v : Json, toJson (ofJson v) = v
  | .scalar v => by cases v <;> rfl
  | .arr items => by simp only [ofJson, toJson, toItems_ofItems items]
  | .obj members => by simp only [ofJson, toJson, toMembers_ofMembers members]

theorem toItems_ofItems : ∀ items : List Json, toItems (ofItems items) = items
  | [] => rfl
  | v :: rest => by simp only [ofItems, toItems, toJson_ofJson v, toItems_ofItems rest]

theorem toMembers_ofMembers : ∀ members : List (String × Json),
    toMembers (ofMembers members) = members
  | [] => rfl
  | (k, v) :: rest => by
      simp only [ofMembers, toMembers, toJson_ofJson v, toMembers_ofMembers rest]

end

theorem ofMembers_injective : Function.Injective ofMembers :=
  Function.LeftInverse.injective toMembers_ofMembers

end LogValue

/-- The line of a record does not depend on what its sensitive extra fields hold. -/
theorem LogRecord.format_eq_of_equalOutside (dumps : Json → String) (r : LogRecord)
    {extra other : List (String × Json)}
    (same : LogValue.MembersEqualOutside id (LogValue.ofMembers extra)
      (LogValue.ofMembers other)) :
    LogRecord.format dumps { r with extraFields := some extra } =
      LogRecord.format dumps { r with extraFields := some other } := by
  have hidden : redactMembers extra = redactMembers other := by
    apply LogValue.ofMembers_injective
    rw [LogValue.ofMembers_redact, LogValue.ofMembers_redact]
    have whole := LogValue.redact_eq_of_equalOutside (LogValue.Matches.dict same)
    simpa only [LogValue.redact, LogValue.dict.injEq] using whole
  have empty : extra.isEmpty = other.isEmpty := by
    cases extra with
    | nil =>
        cases other with
        | nil => rfl
        | cons m ms => cases same
    | cons m ms =>
        cases other with
        | nil => cases same
        | cons n ns => rfl
  simp only [LogRecord.format, LogRecord.payload, hidden, empty]

end Noxis
