import Noxis.KeyTokens

/-! Log lines and secrets: two runs that differ in one secret, at any depth of a logged
value and in any part of a log record. -/
namespace Noxis

/-- One level around a value: its place in a list, or its key in a dictionary. -/
inductive Frame where
  | item (before after : List Json)
  | member (before : List (String × Json)) (key : String) (after : List (String × Json))

def Frame.plug : Frame → Json → Json
  | .item before after, v => .arr (before ++ v :: after)
  | .member before key after, v => .obj (before ++ (key, v) :: after)

/-- The value inside all the levels, the outermost first. -/
def plug (frames : List Frame) (v : Json) : Json := frames.foldr Frame.plug v

/-- Where in a log record the text stands: its message, the text of its exception, or
anywhere in its extra fields. -/
inductive LogPlace where
  | message (record : LogRecord)
  | exception (record : LogRecord)
  | extra (record : LogRecord) (before : List (String × Json)) (key : String)
      (frames : List Frame) (after : List (String × Json))

def LogPlace.record : LogPlace → String → LogRecord
  | .message record, text => { record with message := text }
  | .exception record, text => { record with excInfo := some text }
  | .extra record before key frames after, text =>
      { record with extraFields := some (before ++ (key, plug frames (.str text)) :: after) }

/-- No logged value and no line tells which of the two secrets stands between `u` and `v`. -/
structure NonInterfering (u v a b : String) : Prop where
  values : ∀ frames, redact (plug frames (.str (u ++ (a ++ v)))) =
    redact (plug frames (.str (u ++ (b ++ v))))
  lines : ∀ (dumps : Json → String) (place : LogPlace),
    (place.record (u ++ (a ++ v))).format dumps = (place.record (u ++ (b ++ v))).format dumps

theorem redactItems_eq_map (items : List Json) : redactItems items = items.map redact := by
  induction items with
  | nil => rfl
  | cons v rest ih => rw [redactItems, ih, List.map_cons]

theorem redactMembers_eq_map (members : List (String × Json)) : redactMembers members =
    members.map fun m => (m.1, if isSensitiveKey m.1 then .str (String.ofList redactMark)
      else redact m.2) := by
  induction members with
  | nil => rfl
  | cons m rest ih => rw [redactMembers, ih, List.map_cons]

section values
variable {x y : Json} (same : redact x = redact y)
include same

theorem redactMembers_congr (before : List (String × Json)) (key : String)
    (after : List (String × Json)) :
    redactMembers (before ++ (key, x) :: after) = redactMembers (before ++ (key, y) :: after) := by
  simp only [redactMembers_eq_map, List.map_append, List.map_cons, same]

theorem redact_plug (frames : List Frame) : redact (plug frames x) = redact (plug frames y) := by
  induction frames with
  | nil => exact same
  | cons frame frames ih =>
      cases frame with
      | item before after =>
          change Json.arr (redactItems (before ++ plug frames x :: after)) =
            Json.arr (redactItems (before ++ plug frames y :: after))
          simp only [redactItems_eq_map, List.map_append, List.map_cons, ih]
      | member before key after =>
          change Json.obj (redactMembers (before ++ (key, plug frames x) :: after)) =
            Json.obj (redactMembers (before ++ (key, plug frames y) :: after))
          rw [redactMembers_congr ih]

end values

/-- A line is built from redacted texts only. -/
theorem format_congr {s t : String} (same : redactText s = redactText t)
    (dumps : Json → String) (place : LogPlace) :
    (place.record s).format dumps = (place.record t).format dumps := by
  have value : redact (.str s) = redact (.str t) := congrArg Json.str same
  refine congrArg (fun payload => dumps (.obj payload)) ?_
  cases place with
  | message record => simp only [LogPlace.record, LogRecord.payload, same]
  | exception record => simp only [LogPlace.record, LogRecord.payload, same]
  | extra record before key frames after =>
      have members := redactMembers_congr (redact_plug value frames) before key after
      simp [LogPlace.record, LogRecord.payload, members]

/-- Two secrets of one kind in the same surroundings cannot be told apart in any logged value
or line if and only if they are concealed from each other. -/
theorem redaction_noninterfering_iff (kind : SecretKind) (u v a b : String)
    (clear : Clear u.toList) (clear' : Clear v.toList)
    (first : Delimited kind u.toList a.toList v.toList)
    (second : Delimited kind u.toList b.toList v.toList) :
    NonInterfering u v a b ↔ Concealed kind u.toList v.toList a.toList b.toList := by
  rw [← redactChars_eq_iff clear clear' first second]
  have text : ∀ s : String, redactText (u ++ (s ++ v)) =
      String.ofList (redactChars (u.toList ++ (s.toList ++ v.toList))) := by
    intro s
    rw [redactText, String.toList_append, String.toList_append]
  constructor
  · intro hidden
    have same : Json.str (redactText (u ++ (a ++ v))) = Json.str (redactText (u ++ (b ++ v))) :=
      hidden.values []
    rw [text, text] at same
    exact String.ofList_injective (Scalar.str.inj (Json.scalar.inj same))
  · intro same
    have texts : redactText (u ++ (a ++ v)) = redactText (u ++ (b ++ v)) := by
      rw [text, text, same]
    exact ⟨redact_plug (congrArg Json.str texts), format_congr texts⟩

theorem redaction_noninterfering_iff_bearer :
    NonInterfering "Authorization: Bearer " "" "abc" "def" ↔
      Concealed .bearer "Authorization: Bearer ".toList "".toList "abc".toList "def".toList :=
  redaction_noninterfering_iff .bearer "Authorization: Bearer " "" "abc" "def"
    (by decide +kernel) (by decide +kernel) ⟨_, rfl, rfl, rfl, rfl⟩ ⟨_, rfl, rfl, rfl, rfl⟩

/-- The whole token is in the redacted text, with the mark behind it. -/
theorem sk_token_logged :
    Clear "key ".toList ∧ Clear "".toList ∧
      Delimited .sk "key ".toList "sk-aaaaaaaaaa".toList "".toList ∧
      Delimited .sk "key ".toList "sk-bbbbbbbbbb".toList "".toList ∧
      redactText "key sk-aaaaaaaaaa" = "key sk-aaaaaaaaaa***REDACTED***" ∧
      redactText "key sk-bbbbbbbbbb" = "key sk-bbbbbbbbbb***REDACTED***" ∧
      ¬ NonInterfering "key " "" "sk-aaaaaaaaaa" "sk-bbbbbbbbbb" := by
  have first : redactText "key sk-aaaaaaaaaa" = "key sk-aaaaaaaaaa***REDACTED***" := by
    decide +kernel
  have second : redactText "key sk-bbbbbbbbbb" = "key sk-bbbbbbbbbb***REDACTED***" := by
    decide +kernel
  refine ⟨by decide +kernel, by decide +kernel, ⟨_, rfl, rfl, rfl, rfl⟩, ⟨_, rfl, rfl, rfl, rfl⟩,
    first, second, fun hidden => ?_⟩
  have same : Json.str (redactText "key sk-aaaaaaaaaa") = Json.str (redactText "key sk-bbbbbbbbbb") :=
    hidden.values []
  rw [first, second] at same
  simp at same

end Noxis
