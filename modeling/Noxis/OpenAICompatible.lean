import Noxis.Drain

/-! The generic adapter: what an HTTP upstream does, and what the scheduler sees of it. -/
namespace Noxis

/-- `json.loads` fails with a `JSONDecodeError` or, on values it cannot hold, another error. -/
inductive LoadsError where
  | decode | other

/-- Functions of the interpreter and of the validation library. Nothing is assumed about them but
that a chunk can be written out at any time if it can at one. -/
structure Libraries where
  loads : String → Except LoadsError Json
  float : String → Option PyFloat
  str : Json → String
  coerceInt : Json → Option ℤ
  dumpJson : ChatCompletionChunk → Option String
  stamped : ∀ c t, (dumpJson { c with created := t }).isSome = (dumpJson c).isSome

/-- Exceptions of the HTTP client, and of the decoders that it reads a body with. Only the first
two families are mapped. -/
inductive TransportError where
  | timeout (text : String)
  | connect (text : String)
  | other

/-- `contacting` on the non-streaming path, `streaming from` on the other. -/
def TransportError.mapped (doing name : String) : TransportError → Option ProviderAPIError
  | .timeout text => some
      { statusCode := 504, message := "Timeout " ++ doing ++ " " ++ name ++ ": " ++ text,
        retryable := true }
  | .connect text => some
      { statusCode := 502, message := "Connection error to " ++ name ++ ": " ++ text,
        retryable := true }
  | .other => none

def TransportError.outcome (doing name : String) (exc : TransportError) : CallOutcome :=
  match exc.mapped doing name with
  | some e => .apiError e
  | none => .otherError

/-- `message[:500]` counts code points. -/
def firstChars (n : ℕ) (s : String) : String := String.ofList (s.toList.take n)

/-- The error that `_raise_for_status` raises for a status of 400 and above. -/
def statusError (lib : Libraries) (status : ℕ) (retryAfterHeader : Option String)
    (bodyText : String) : ProviderAPIError :=
  { statusCode := status
    message := firstChars 500
      (if bodyText = "" then "Upstream returned HTTP " ++ toString status else bodyText)
    retryable := decide (status ∈ transientStatusCodes ∧ status ∉ terminalProviderStatusCodes)
    retryAfter := match retryAfterHeader with
      | none => none
      | some header => if header = "" then none else lib.float header }

/-- `str.strip` removes every character that Python counts as white space. -/
def isPySpace (c : Char) : Bool :=
  let n := c.toNat
  (9 ≤ n && n ≤ 13) || (28 ≤ n && n ≤ 32) || n == 0x85 || n == 0xA0 || n == 0x1680 ||
    (0x2000 ≤ n && n ≤ 0x200A) || n == 0x2028 || n == 0x2029 || n == 0x202F || n == 0x205F ||
    n == 0x3000

def strip (cs : List Char) : String :=
  String.ofList ((cs.dropWhile isPySpace).reverse.dropWhile isPySpace).reverse

/-- The stripped rest of a line that starts with `data:`. -/
def dataField (line : String) : Option String :=
  let tag := "data:".toList
  if tag.isPrefixOf line.toList then some (strip (line.toList.drop tag.length)) else none

/-- The answer to a non-streaming call: its body as the declared charset decodes it, unless that
codec raises, and as `json.loads` decodes the bytes, unless they cannot be decoded. -/
structure HttpAnswer where
  status : ℕ
  retryAfterHeader : Option String
  text : Option String
  body : Option String

/-- The answer to a streaming call: refused, or answered with a status, a body that is read
on an error status only, and lines after which the transport may break. -/
inductive StreamAnswer where
  | refused (exc : TransportError)
  | answered (status : ℕ) (retryAfterHeader : Option String) (body : Except TransportError String)
      (lines : List String) (broken : Option TransportError)

/-- `resp.json()`; an error of the decoding is a `ValueError`, but no `JSONDecodeError`. -/
def HttpAnswer.json (lib : Libraries) (answer : HttpAnswer) : Except LoadsError Json :=
  match answer.body with
  | none => .error .other
  | some body => lib.loads body

section adapter
variable (lib : Libraries) (name : String)

/-- `chat_completion`: `resp.text` and `resp.json()` stand outside the `try`, so that nothing maps
what they raise. -/
def chatCompletion (latencyMs : ℚ) : Except TransportError HttpAnswer → CallOutcome
  | .error exc => exc.outcome "contacting" name
  | .ok answer =>
      if 400 ≤ answer.status then match answer.text with
        | none => .otherError
        | some text => .apiError (statusError lib answer.status answer.retryAfterHeader text)
      else match answer.json lib with
        | .ok raw => .success { raw, latencyMs, providerName := name }
        | .error _ => .otherError

/-- The end of a stream carries no result; the streaming path asks for none. -/
def streamEnded : CallOutcome := .success { raw := .null, latencyMs := 0, providerName := name }

/-- The `async for` over the lines of an accepted stream. -/
def readLines (broken : Option TransportError) : List String → List Json × CallOutcome
  | [] => ([], match broken with
      | none => streamEnded name
      | some exc => exc.outcome "streaming from" name)
  | line :: rest =>
      match dataField line with
      | none => readLines broken rest
      | some data =>
          if data = "[DONE]" then ([], streamEnded name)
          else match lib.loads data with
            | .ok value =>
                let (values, outcome) := readLines broken rest
                (value :: values, outcome)
            | .error .decode => readLines broken rest
            | .error .other => ([], .otherError)

/-- `stream_completion`: the values it yields and how it ends. -/
def streamCompletion : StreamAnswer → List Json × CallOutcome
  | .refused exc => ([], exc.outcome "streaming from" name)
  | .answered status retryAfterHeader body lines broken =>
      if 400 ≤ status then match body with
        | .error exc => ([], exc.outcome "streaming from" name)
        | .ok text => ([], .apiError (statusError lib status retryAfterHeader text))
      else readLines lib name broken lines

end adapter

/-- The providers of a run, reached over HTTP. -/
def Upstreams.overHttp (env : Upstreams) (lib : Libraries) (answers : String → StreamAnswer) :
    Upstreams := fun name =>
  { env name with
    chunks := (streamCompletion lib name (answers name)).1
    outcome := (streamCompletion lib name (answers name)).2 }

/-- A transport exception that the adapter lets through as it is. -/
def TransportError.Unmapped (exc : TransportError) : Prop := exc = .other

/-- Up to a `[DONE]` or their end the lines raise nothing but a `ProviderAPIError`, and send
only values that pass the test. -/
def LinesClean (lib : Libraries) (sends : Json → Prop) (broken : Option TransportError) :
    List String → Prop
  | [] => ∀ exc ∈ broken, ¬ exc.Unmapped
  | line :: rest =>
      match dataField line with
      | none => LinesClean lib sends broken rest
      | some data => data = "[DONE]" ∨
          match lib.loads data with
          | .ok value => sends value ∧ LinesClean lib sends broken rest
          | .error .decode => LinesClean lib sends broken rest
          | .error .other => False

/-- The delay that the answer's failure asks for. -/
def StreamAnswer.retryAfter (lib : Libraries) : StreamAnswer → Option PyFloat
  | .answered status (some header) (.ok _) _ _ =>
      if status < 400 ∨ header = "" then none else lib.float header
  | _ => none

/-- The answer as a whole raises nothing but a `ProviderAPIError`, and sends only values
that pass the test. -/
def StreamAnswer.Clean (lib : Libraries) (sends : Json → Prop) : StreamAnswer → Prop
  | .refused exc => ¬ exc.Unmapped
  | .answered status _ body lines broken =>
      if 400 ≤ status then (match body with
        | .error exc => ¬ exc.Unmapped
        | .ok _ => True)
      else LinesClean lib sends broken lines

/-- The lines carry no value and no `[DONE]`, and then the transport breaks in a mapped way. -/
def LinesSilent (lib : Libraries) (broken : Option TransportError) : List String → Prop
  | [] => ∃ exc ∈ broken, ¬ exc.Unmapped
  | line :: rest =>
      match dataField line with
      | none => LinesSilent lib broken rest
      | some data => data ≠ "[DONE]" ∧
          match lib.loads data with
          | .error .decode => LinesSilent lib broken rest
          | _ => False

/-- The answer fails before any output, in a way that may be retried. -/
def StreamAnswer.Silent (lib : Libraries) : StreamAnswer → Prop
  | .refused exc => ¬ exc.Unmapped
  | .answered status _ body lines broken =>
      if 400 ≤ status then (match body with
        | .error exc => ¬ exc.Unmapped
        | .ok _ => status ∈ transientStatusCodes)
      else LinesSilent lib broken lines

/-- It does, and a delay can be computed behind the attempt with this number. -/
def StreamAnswer.Retried (lib : Libraries) (answer : StreamAnswer) (attempt : ℕ) : Prop :=
  answer.Silent lib ∧ ¬ Overflows attempt (answer.retryAfter lib)

theorem outcome_clean_iff (doing name : String) (exc : TransportError) :
    exc.outcome doing name ≠ .otherError ↔ ¬ exc.Unmapped := by
  cases exc <;> simp [TransportError.outcome, TransportError.mapped, TransportError.Unmapped]

/-- Every mapped transport error may be retried. -/
theorem outcome_retryable_iff (doing name : String) (exc : TransportError) :
    (∃ e, exc.outcome doing name = .apiError e ∧ e.retryable = true) ↔ ¬ exc.Unmapped := by
  cases exc <;> simp [TransportError.outcome, TransportError.mapped, TransportError.Unmapped]

theorem statusError_retryable_iff (lib : Libraries) (status : ℕ) (header : Option String)
    (text : String) :
    (statusError lib status header text).retryable = true ↔ status ∈ transientStatusCodes := by
  have disjoint : ∀ code ∈ transientStatusCodes, code ∉ terminalProviderStatusCodes := by decide
  simp only [statusError, decide_eq_true_eq]
  exact ⟨fun h => h.1, fun h => ⟨h, disjoint status h⟩⟩

section lines
variable (lib : Libraries) (name : String) (broken : Option TransportError)

theorem readLines_clean_iff (sends : Json → Prop) (lines : List String) :
    LinesClean lib sends broken lines ↔ (readLines lib name broken lines).2 ≠ .otherError ∧
      ∀ raw ∈ (readLines lib name broken lines).1, sends raw := by
  induction lines with
  | nil =>
      cases broken with
      | none => simp [readLines, LinesClean, streamEnded]
      | some exc => simp [readLines, LinesClean, ← outcome_clean_iff "streaming from" name]
  | cons line rest ih =>
      cases field : dataField line with
      | none => simpa [readLines, LinesClean, field] using ih
      | some data =>
          by_cases last : data = "[DONE]"
          · simp [readLines, LinesClean, field, last, streamEnded]
          · cases loaded : lib.loads data with
            | ok value =>
                simp only [readLines, LinesClean, field, last, loaded, ih, false_or, if_false,
                  List.mem_cons, forall_eq_or_imp]
                tauto
            | error reason =>
                cases reason with
                | decode => simpa [readLines, LinesClean, field, last, loaded] using ih
                | other => simp [readLines, LinesClean, field, last, loaded]

theorem readLines_silent_iff (lines : List String) :
    LinesSilent lib broken lines ↔ (readLines lib name broken lines).1 = [] ∧
      ∃ e, (readLines lib name broken lines).2 = .apiError e ∧ e.retryable = true := by
  induction lines with
  | nil =>
      cases broken with
      | none => simp [readLines, LinesSilent, streamEnded]
      | some exc =>
          simp [readLines, LinesSilent, ← outcome_retryable_iff "streaming from" name]
  | cons line rest ih =>
      cases field : dataField line with
      | none => simpa [readLines, LinesSilent, field] using ih
      | some data =>
          by_cases last : data = "[DONE]"
          · simp [readLines, LinesSilent, field, last, streamEnded]
          · cases loaded : lib.loads data with
            | ok value => simp [readLines, LinesSilent, field, last, loaded]
            | error reason =>
                cases reason with
                | decode => simpa [readLines, LinesSilent, field, last, loaded] using ih
                | other => simp [readLines, LinesSilent, field, last, loaded]

end lines

theorem streamCompletion_clean_iff (lib : Libraries) (name : String) (sends : Json → Prop)
    (answer : StreamAnswer) :
    answer.Clean lib sends ↔ (streamCompletion lib name answer).2 ≠ .otherError ∧
      ∀ raw ∈ (streamCompletion lib name answer).1, sends raw := by
  cases answer with
  | refused exc =>
      simp [streamCompletion, StreamAnswer.Clean, ← outcome_clean_iff "streaming from" name]
  | answered status retryAfterHeader body lines broken =>
      by_cases refused : 400 ≤ status
      · simp only [streamCompletion, StreamAnswer.Clean, if_pos refused]
        cases body with
        | error exc => simp [← outcome_clean_iff "streaming from" name]
        | ok text => simp
      · simp only [streamCompletion, StreamAnswer.Clean, if_neg refused]
        exact readLines_clean_iff lib name broken sends lines

theorem streamCompletion_silent_iff (lib : Libraries) (name : String) (answer : StreamAnswer) :
    answer.Silent lib ↔ (streamCompletion lib name answer).1 = [] ∧
      ∃ e, (streamCompletion lib name answer).2 = .apiError e ∧ e.retryable = true := by
  cases answer with
  | refused exc =>
      simp [streamCompletion, StreamAnswer.Silent, ← outcome_retryable_iff "streaming from" name]
  | answered status retryAfterHeader body lines broken =>
      by_cases refused : 400 ≤ status
      · simp only [streamCompletion, StreamAnswer.Silent, if_pos refused]
        cases body with
        | error exc => simp [← outcome_retryable_iff "streaming from" name]
        | ok text => simp [statusError_retryable_iff]
      · simp only [streamCompletion, StreamAnswer.Silent, if_neg refused]
        exact readLines_silent_iff lib name broken lines

/-- An error of the transport asks for no delay. -/
theorem outcome_retryAfter {doing name : String} {exc : TransportError} {e : ProviderAPIError}
    (ends : exc.outcome doing name = .apiError e) : e.retryAfter = none := by
  cases exc with
  | other => cases ends
  | _ =>
      obtain rfl := CallOutcome.apiError.inj ends
      rfl

theorem readLines_retryAfter {lib : Libraries} {name : String} {broken : Option TransportError}
    {lines : List String} {e : ProviderAPIError}
    (ends : (readLines lib name broken lines).2 = .apiError e) : e.retryAfter = none := by
  induction lines with
  | nil =>
      cases broken with
      | none => cases ends
      | some exc => exact outcome_retryAfter ends
  | cons line rest ih =>
      rw [readLines] at ends
      cases field : dataField line with
      | none =>
          rw [field] at ends
          exact ih ends
      | some data =>
          simp only [field] at ends
          split_ifs at ends with last
          · cases ends
          · cases loaded : lib.loads data with
            | ok value =>
                simp only [loaded] at ends
                exact ih ends
            | error reason =>
                cases reason with
                | decode =>
                    simp only [loaded] at ends
                    exact ih ends
                | other => simp [loaded] at ends

theorem streamCompletion_retryAfter {lib : Libraries} {name : String} {answer : StreamAnswer}
    {e : ProviderAPIError} (ends : (streamCompletion lib name answer).2 = .apiError e) :
    e.retryAfter = answer.retryAfter lib := by
  cases answer with
  | refused exc => exact outcome_retryAfter ends
  | answered status header body lines broken =>
      by_cases refused : 400 ≤ status
      · simp only [streamCompletion, if_pos refused] at ends
        cases body with
        | error exc =>
            rw [outcome_retryAfter ends]
            cases header <;> rfl
        | ok text =>
            obtain rfl := CallOutcome.apiError.inj ends
            cases header with
            | none => rfl
            | some header => simp [statusError, StreamAnswer.retryAfter, not_lt.mpr refused]
      · simp only [streamCompletion, if_neg refused] at ends
        rw [readLines_retryAfter ends]
        cases header with
        | none => rfl
        | some header => cases body <;> simp [StreamAnswer.retryAfter, not_le.mp refused]

/-- Libraries that are not asked for anything. -/
def Demo.libraries : Libraries :=
  { loads := fun _ => .error .decode, float := fun _ => none, str := fun _ => "",
    coerceInt := fun _ => none, dumpJson := fun _ => some "", stamped := fun _ _ => rfl }

/-- A page that both decoders read. -/
def Demo.page (text : String) : HttpAnswer :=
  { status := 200, retryAfterHeader := none, text := some text, body := some text }

end Noxis
