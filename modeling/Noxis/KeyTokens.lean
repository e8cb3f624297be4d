import Noxis.LogRedaction

/-! Key values that hold tokens of the second kind. The second pattern marks each token, and a
mark ends a key value: what stands behind the first token is printed, except for the values of
api keys in it. -/
namespace Noxis
open GreedyPattern

/-- The text up to the end of its first token. -/
def upToToken (k : List Char × Match Char) : List Char := k.1 ++ (k.2.lead ++ k.2.body)

/-- The text up to the end of its first key lead with a value, where there is one. -/
def keyFront (t : List Char) : Option (List Char) :=
  (apiKeyPattern.search t).map fun k => k.1 ++ k.2.lead

/-- The texts are the same, or the same up to the lead of their first api key. -/
def SamePart (t t' : List Char) : Prop :=
  t = t' ∨ ∃ front, keyFront t = some front ∧ keyFront t' = some front

/-- The texts have the same number of tokens, and are the same part by part, where a part ends
with a token or with the text. -/
inductive SameParts : List Char → List Char → Prop where
  | last {r r' : List Char} : skPattern.Free r → skPattern.Free r' → SamePart r r' → SameParts r r'
  | token {r r' : List Char} {k k' : List Char × Match Char} :
      skPattern.search r = some k → skPattern.search r' = some k' →
      SamePart (upToToken k) (upToToken k') → SameParts k.2.rest k'.2.rest → SameParts r r'

/-- What follows the first token in a key value, where there is one. -/
def keyRemainder (a : List Char) : Option (List Char) := (skPattern.search a).map fun k => k.2.rest

/-- Whether the secrets are hidden from each other: a bearer token always; a token of the
second kind behind a `Bearer`, or as a key value, whose seam then counts; a key value if it
holds no such token, or as far as what follows the first one has the same parts. -/
def Concealed (kind : SecretKind) (u v a b : List Char) : Prop :=
  match kind with
  | .bearer => True
  | .sk => a = b ∨ bearerPattern.opens u = true ∨
      (apiKeyPattern.opens u = true ∧ (Exposes a v ↔ Exposes b v))
  | .apiKey =>
      match keyRemainder a, keyRemainder b with
      | none, none => Exposes a v ↔ Exposes b v
      | some r, some r' => SameParts r r' ∧ (Exposes a v ↔ Exposes b v)
      | _, _ => False

/-! ### Runs of token characters -/

def Run (t : List Char) : Prop := ∀ x ∈ t, isTokenChar x = true

theorem Run.mono {t t' : List Char} (run : Run t) (within : ∀ x ∈ t', x ∈ t) : Run t' :=
  fun x inside => run x (within x inside)

theorem runs_split {t t' y y' : List Char} (run : Run t) (run' : Run t')
    (ends : Foreign isTokenChar y) (ends' : Foreign isTokenChar y') (same : t ++ y = t' ++ y') :
    t = t' ∧ y = y' := by
  have runs := congrArg (List.takeWhile isTokenChar) same
  rw [takeWhile_foreign ends, takeWhile_foreign ends', List.takeWhile_eq_self_iff.mpr run,
    List.takeWhile_eq_self_iff.mpr run'] at runs
  refine ⟨runs, ?_⟩
  rw [runs] at same
  exact List.append_cancel_left same

theorem Run.single {t : List Char} (run : Run t) : Single apiKeyPattern.lead t := by
  intro c member x inside
  have spaces : c = isPySpace := by simpa [apiKeyPattern] using member
  rw [spaces]
  exact space_of_token (run x inside)

section parts
variable {t f z : List Char}

/-- In a run, the value of the first key reaches to the end. -/
theorem keyFront_search (run : Run t) (front : keyFront t = some f) :
    ∃ k, apiKeyPattern.search t = some k ∧ f = k.1 ++ k.2.lead ∧ k.2.rest = [] ∧
      12 ≤ (k.2.lead ++ k.2.body).length := by
  obtain ⟨k, found, rfl⟩ := Option.map_eq_some_iff.mp front
  obtain ⟨split, -, matched⟩ := Pattern.search_spec found
  obtain ⟨done, -, ends, enough⟩ := Pattern.matchAt_eq_some.mp matched
  refine ⟨k, found, rfl, ?_, ?_⟩
  · cases rest : k.2.rest with
    | nil => rfl
    | cons x r =>
        have inside := run x (by rw [split, rest]; simp)
        have outside := ends x (by rw [rest]; rfl)
        rw [show isTokenChar x = false from outside] at inside
        contradiction
  · have seven : 7 ≤ k.2.lead.length := readLead_fewest done
    have eight : 8 ≤ k.2.body.length := enough
    rw [List.length_append]
    omega

theorem keyFront_run (run : Run t) (front : keyFront t = some f) : Run f := by
  obtain ⟨k, found, rfl, -⟩ := keyFront_search run front
  obtain ⟨split, -⟩ := Pattern.search_spec found
  refine run.mono fun x inside => ?_
  rw [split, ← List.append_assoc]
  exact List.mem_append_left _ inside

/-- The lead of a key in a run ends in its separator. -/
theorem keyFront_last (run : Run t) (front : keyFront t = some f) :
    ∃ c, f.getLast? = some c ∧ isKeySeparator c = true := by
  have chars := keyFront_run run front
  obtain ⟨k, found, rfl, -⟩ := keyFront_search run front
  obtain ⟨-, -, matched⟩ := Pattern.search_spec found
  obtain ⟨-, s, c, tail, shape, separator, spaces⟩ :=
    keyLead_shape (Pattern.matchAt_eq_some.mp matched).1
  cases tail with
  | nil => exact ⟨c, by rw [shape]; simp, separator⟩
  | cons x tail =>
      have token := chars x (by rw [shape]; simp)
      rcases spaces x List.mem_cons_self with space | quote
      · rw [not_token_of_space space] at token
        contradiction
      · obtain rfl : x = '\"' := by simpa [isQuote] using quote
        exact absurd token (by decide)

/-- A run with a key is printed up to the lead of the key. -/
theorem sub_keyed (run : Run t) (front : keyFront t = some f) (ends : Foreign isTokenChar z) :
    apiKeyPattern.sub redactMark (t ++ z) =
      f ++ (redactMark ++ apiKeyPattern.sub redactMark z) := by
  obtain ⟨k, found, rfl, rest, long⟩ := keyFront_search run front
  rw [Pattern.sub_search_append found run.single long ends, rest]
  simp [Pattern.replaced, apiKeyPattern]

theorem keyFront_eq_none : keyFront t = none ↔ apiKeyPattern.Free t := by
  rw [keyFront, Option.map_eq_none_iff, Pattern.search_eq_none]

theorem sub_samePart {t' : List Char} (run : Run t) (run' : Run t') (same : SamePart t t') :
    apiKeyPattern.sub redactMark t = apiKeyPattern.sub redactMark t' := by
  rcases same with rfl | ⟨f, front, front'⟩
  · rfl
  · have quiet : Foreign isTokenChar [] := fun x first => by simp at first
    have first := sub_keyed run front quiet
    rw [← sub_keyed run' front' quiet, List.append_nil, List.append_nil] at first
    exact first

end parts

/-! ### What is printed behind the first token -/

/-- What the last two patterns make of the text behind a token. -/
def behindToken (r z : List Char) : List Char :=
  apiKeyPattern.sub redactMark (skPattern.sub redactMark r ++ z)

section behind
variable {r z : List Char} {k : List Char × Match Char}

theorem upToToken_append (found : skPattern.search r = some k) : r = upToToken k ++ k.2.rest := by
  rw [(Pattern.search_spec found).1, upToToken]
  simp only [List.append_assoc]

theorem rest_suffix (found : skPattern.search r = some k) : k.2.rest <:+ r :=
  ⟨upToToken k, (upToToken_append found).symm⟩

theorem rest_foreign (found : skPattern.search r = some k) : Foreign isAsciiAlnum k.2.rest := by
  obtain ⟨-, -, matched⟩ := Pattern.search_spec found
  exact (Pattern.matchAt_eq_some.mp matched).2.2.1

theorem upToToken_run (run : Run r) (found : skPattern.search r = some k) : Run (upToToken k) :=
  run.mono fun _ inside => upToToken_append found ▸ List.mem_append_left _ inside

theorem rest_run (run : Run r) (found : skPattern.search r = some k) : Run k.2.rest :=
  run.mono fun _ inside => (rest_suffix found).subset inside

theorem upToToken_last (found : skPattern.search r = some k) :
    ∃ c, (upToToken k).getLast? = some c ∧ isAsciiAlnum c = true := by
  obtain ⟨-, -, matched⟩ := Pattern.search_spec found
  obtain ⟨-, body, -, enough⟩ := Pattern.matchAt_eq_some.mp matched
  have ten : 10 ≤ k.2.body.length := enough
  have some : k.2.body ≠ [] := by
    intro empty
    rw [empty, List.length_nil] at ten
    omega
  refine ⟨k.2.body.getLast some, ?_, body _ (List.getLast_mem some)⟩
  rw [upToToken, ← List.append_assoc, List.getLast?_append_of_ne_nil _ some,
    List.getLast?_eq_getLast_of_ne_nil some]

/-- The end of a token is not the end of a key lead. -/
theorem upToToken_ne_keyFront {t f : List Char} (found : skPattern.search r = some k) (run : Run t)
    (front : keyFront t = some f) : upToToken k ≠ f := by
  rintro rfl
  obtain ⟨c, last, separator⟩ := keyFront_last run front
  obtain ⟨d, last', alnum⟩ := upToToken_last found
  rw [last'] at last
  obtain rfl := Option.some.inj last
  rcases key_separator separator with rfl | rfl
  · exact absurd alnum (by decide)
  · exact absurd alnum (by decide)

theorem behind_token (found : skPattern.search r = some k) :
    behindToken r z = apiKeyPattern.sub redactMark (upToToken k) ++
      (redactMark ++ behindToken k.2.rest z) := by
  have marked : skPattern.sub redactMark r ++ z =
      upToToken k ++ (redactMark ++ (skPattern.sub redactMark k.2.rest ++ z)) := by
    rw [Pattern.sub_search _ found]
    simp [Pattern.replaced, skPattern, upToToken]
  have leads : ∀ q ∈ apiKeyPattern.lead,
      Foreign q.cls (redactMark ++ (skPattern.sub redactMark k.2.rest ++ z)) := by
    rw [redactMark_eq]
    exact apiKey_leads_star _
  rw [behindToken, marked, Pattern.sub_append_foreign leads (foreign_mark _), apiKey_sub_mark]
  rfl

theorem behind_token_plain (found : skPattern.search r = some k)
    (plain : keyFront (upToToken k) = none) :
    behindToken r z = upToToken k ++ (redactMark ++ behindToken k.2.rest z) := by
  rw [behind_token found, Pattern.sub_free (keyFront_eq_none.mp plain)]

theorem behind_token_keyed {f : List Char} (run : Run r) (found : skPattern.search r = some k)
    (front : keyFront (upToToken k) = some f) :
    behindToken r z = f ++ (redactMark ++ (redactMark ++ behindToken k.2.rest z)) := by
  have printed := sub_keyed (upToToken_run run found) front (z := []) (by simp [Foreign])
  rw [List.append_nil, Pattern.sub_nil, List.append_nil] at printed
  rw [behind_token found, printed, List.append_assoc]

theorem behind_last_plain (free : skPattern.Free r) (plain : keyFront r = none)
    (ends : Foreign isTokenChar z) :
    ∃ w, behindToken r z = r ++ w ∧ w.head? = z.head? ∧ Foreign isTokenChar w := by
  obtain ⟨w, printed, first⟩ :=
    Pattern.sub_append_free redactMark rfl (keyFront_eq_none.mp plain) ends
  refine ⟨w, ?_, first, fun x inside => ends x (first ▸ inside)⟩
  rw [behindToken, Pattern.sub_free free, printed]

theorem behind_last_keyed {f : List Char} (run : Run r) (free : skPattern.Free r)
    (front : keyFront r = some f) (ends : Foreign isTokenChar z)
    (whole : apiKeyPattern.sub redactMark z = z) : behindToken r z = f ++ (redactMark ++ z) := by
  rw [behindToken, Pattern.sub_free free, sub_keyed run front ends, whole]

end behind

/-! ### Comparing what is printed -/

/-- Two texts with tokens that are printed alike are the same up to the first of them, and the
rests are printed alike. -/
theorem tokens_same {r r' : List Char} {k k' : List Char × Match Char} (run : Run r)
    (run' : Run r') (found : skPattern.search r = some k) (found' : skPattern.search r' = some k')
    {z z' : List Char} (same : behindToken r z = behindToken r' z') :
    SamePart (upToToken k) (upToToken k') ∧
      behindToken k.2.rest z = behindToken k'.2.rest z' := by
  have part := upToToken_run run found
  have part' := upToToken_run run' found'
  cases plain : keyFront (upToToken k) with
  | none =>
      rw [behind_token_plain found plain] at same
      cases plain' : keyFront (upToToken k') with
      | none =>
          rw [behind_token_plain found' plain'] at same
          obtain ⟨parts, tails⟩ := runs_split part part' (foreign_mark _) (foreign_mark _) same
          exact ⟨.inl parts, List.append_cancel_left tails⟩
      | some f' =>
          rw [behind_token_keyed run' found' plain'] at same
          obtain ⟨ends, -⟩ := runs_split part (keyFront_run part' plain') (foreign_mark _)
            (foreign_mark _) same
          exact absurd ends (upToToken_ne_keyFront found part' plain')
  | some f =>
      rw [behind_token_keyed run found plain] at same
      cases plain' : keyFront (upToToken k') with
      | none =>
          rw [behind_token_plain found' plain'] at same
          obtain ⟨ends, -⟩ := runs_split (keyFront_run part plain) part' (foreign_mark _)
            (foreign_mark _) same
          exact absurd ends.symm (upToToken_ne_keyFront found' part plain)
      | some f' =>
          rw [behind_token_keyed run' found' plain'] at same
          obtain ⟨rfl, tails⟩ := runs_split (keyFront_run part plain) (keyFront_run part' plain')
            (foreign_mark _) (foreign_mark _) same
          exact ⟨.inr ⟨f, plain, plain'⟩, List.append_cancel_left (List.append_cancel_left tails)⟩

/-- Two texts after the secrets that begin alike, without a star, and end every run. -/
structure Seams (z z' : List Char) : Prop where
  ends : Foreign isTokenChar z
  head : z'.head? = z.head?
  starless : z.head? ≠ some '*'
  whole : apiKeyPattern.sub redactMark z = z
  whole' : apiKeyPattern.sub redactMark z' = z'

namespace Seams

variable {z z' : List Char} (seams : Seams z z')
include seams

theorem ends' : Foreign isTokenChar z' := fun x first => seams.ends x (seams.head ▸ first)

theorem symm : Seams z' z := by
  refine ⟨seams.ends', seams.head.symm, ?_, seams.whole', seams.whole⟩
  rw [seams.head]
  exact seams.starless

/-- What begins like a seam does not begin with a mark. -/
theorem ne_mark {w y : List Char} (first : w.head? = z.head?) : w ≠ redactMark ++ y := by
  rintro rfl
  apply seams.starless
  rw [← first, redactMark_eq]
  rfl

/-- A text with a token is never printed like one without. -/
theorem token_ne_last {r r' : List Char} {k : List Char × Match Char} (run : Run r) (run' : Run r')
    (found : skPattern.search r = some k) (free : skPattern.Free r') :
    behindToken r z ≠ behindToken r' z' := by
  intro same
  have part := upToToken_run run found
  cases plain : keyFront (upToToken k) with
  | none =>
      rw [behind_token_plain found plain] at same
      cases plain' : keyFront r' with
      | none =>
          obtain ⟨w, printed, first, ends⟩ := behind_last_plain free plain' seams.ends'
          rw [printed] at same
          obtain ⟨-, tails⟩ := runs_split part run' (foreign_mark _) ends same
          exact seams.symm.ne_mark first tails.symm
      | some f' =>
          rw [behind_last_keyed run' free plain' seams.ends' seams.whole'] at same
          obtain ⟨ends, -⟩ := runs_split part (keyFront_run run' plain') (foreign_mark _)
            (foreign_mark _) same
          exact upToToken_ne_keyFront found run' plain' ends
  | some f =>
      rw [behind_token_keyed run found plain] at same
      cases plain' : keyFront r' with
      | none =>
          obtain ⟨w, printed, first, ends⟩ := behind_last_plain free plain' seams.ends'
          rw [printed] at same
          obtain ⟨-, tails⟩ := runs_split (keyFront_run part plain) run' (foreign_mark _) ends same
          exact seams.symm.ne_mark first tails.symm
      | some f' =>
          rw [behind_last_keyed run' free plain' seams.ends' seams.whole'] at same
          obtain ⟨-, tails⟩ := runs_split (keyFront_run part plain) (keyFront_run run' plain')
            (foreign_mark _) (foreign_mark _) same
          exact seams.symm.ne_mark rfl (List.append_cancel_left tails).symm

/-- Two texts without tokens that are printed alike are the same part, and what follows them is
the same, unless they are one run. -/
theorem lasts_same {r r' : List Char} (run : Run r) (run' : Run r') (free : skPattern.Free r)
    (free' : skPattern.Free r') (same : behindToken r z = behindToken r' z') :
    SamePart r r' ∧ (z = z' ∨ (r = r' ∧ r ≠ [])) := by
  cases plain : keyFront r with
  | none =>
      obtain ⟨w, printed, first, ends⟩ := behind_last_plain free plain seams.ends
      rw [printed] at same
      cases plain' : keyFront r' with
      | none =>
          obtain ⟨w', printed', first', ends'⟩ := behind_last_plain free' plain' seams.ends'
          rw [printed'] at same
          obtain ⟨rfl, rfl⟩ := runs_split run run' ends ends' same
          refine ⟨.inl rfl, ?_⟩
          cases r with
          | nil =>
              have alone : behindToken [] z = z := seams.whole
              have alone' : behindToken [] z' = z' := seams.whole'
              rw [alone] at printed
              rw [alone'] at printed'
              exact .inl (printed.trans printed'.symm)
          | cons x r => exact .inr ⟨rfl, List.cons_ne_nil x r⟩
      | some f' =>
          rw [behind_last_keyed run' free' plain' seams.ends' seams.whole'] at same
          obtain ⟨-, tails⟩ := runs_split run (keyFront_run run' plain') ends (foreign_mark _) same
          exact absurd tails (seams.ne_mark first)
  | some f =>
      rw [behind_last_keyed run free plain seams.ends seams.whole] at same
      cases plain' : keyFront r' with
      | none =>
          obtain ⟨w', printed', first', ends'⟩ := behind_last_plain free' plain' seams.ends'
          rw [printed'] at same
          obtain ⟨-, tails⟩ := runs_split (keyFront_run run plain) run' (foreign_mark _) ends' same
          exact absurd tails.symm (seams.symm.ne_mark first')
      | some f' =>
          rw [behind_last_keyed run' free' plain' seams.ends' seams.whole'] at same
          obtain ⟨rfl, tails⟩ := runs_split (keyFront_run run plain) (keyFront_run run' plain')
            (foreign_mark _) (foreign_mark _) same
          exact ⟨.inr ⟨f, plain, plain'⟩, .inl (List.append_cancel_left tails)⟩

/-- Texts that are printed alike have the same parts. The seams are the same if they agree
behind every end that the texts share. -/
theorem sameParts {r r' : List Char} (run : Run r) (run' : Run r') (starts : Foreign isAsciiAlnum r)
    (agree : ∀ s, s ≠ [] → Foreign isAsciiAlnum s → s <:+ r → s <:+ r' → z = z')
    (same : behindToken r z = behindToken r' z') : SameParts r r' ∧ z = z' := by
  induction r using Pattern.search_induction (p := skPattern) generalizing r' with
  | free r free =>
      cases token' : skPattern.search r' with
      | none =>
          have free' := Pattern.search_eq_none.mp token'
          obtain ⟨part, both⟩ := seams.lasts_same run run' free free' same
          refine ⟨.last free free' part, ?_⟩
          rcases both with both | ⟨rfl, more⟩
          · exact both
          · exact agree r more starts (List.suffix_refl r) (List.suffix_refl r)
      | some k' => exact absurd same.symm (seams.symm.token_ne_last run' run token' free)
  | found r k token ih =>
      cases token' : skPattern.search r' with
      | none =>
          exact absurd same (seams.token_ne_last run run' token (Pattern.search_eq_none.mp token'))
      | some k' =>
          obtain ⟨part, rests⟩ := tokens_same run run' token token' same
          have later := ih (rest_run run token) (rest_run run' token') (rest_foreign token)
            (fun s more starts inside inside' => agree s more starts
              (inside.trans (rest_suffix token)) (inside'.trans (rest_suffix token'))) rests
          exact ⟨.token token token' part later.1, later.2⟩

end Seams

/-- Texts with the same parts are printed alike. -/
theorem behind_sameParts {r r' z : List Char} (parts : SameParts r r') (run : Run r) (run' : Run r')
    (ends : Foreign isTokenChar z) : behindToken r z = behindToken r' z := by
  induction parts with
  | last free free' same =>
      rcases same with rfl | ⟨f, front, front'⟩
      · rfl
      · rw [behindToken, behindToken, Pattern.sub_free free, Pattern.sub_free free',
          sub_keyed run front ends, sub_keyed run' front' ends]
  | token found found' same rest ih =>
      rw [behind_token found, behind_token found',
        sub_samePart (upToToken_run run found) (upToToken_run run' found') same,
        ih (rest_run run found) (rest_run run' found')]

/-! ### Key values in their surroundings -/

/-- Where a run goes on outside the letters, no `Bearer` before that place reaches the space. -/
theorem exposes_of_suffix {a s v : List Char} (run : Run a) (inside : s <:+ a) (more : s ≠ [])
    (starts : Foreign isAsciiAlnum s) : Exposes a v ↔ Exposes s v := by
  obtain ⟨pre, rfl⟩ := inside
  cases s with
  | nil => exact absurd rfl more
  | cons x s =>
      have space : isPySpace x = false := space_of_token (run x (by simp))
      have alnum : isAsciiAlnum x = false := starts x rfl
      have leads : ∀ q ∈ bearerPattern.lead, Foreign q.cls (x :: s ++ v) := by
        intro q member z first
        obtain rfl : x = z := by simpa using first
        rcases List.mem_append.mp member with word | gap
        · obtain ⟨w, listed, rfl⟩ := List.mem_map.mp word
          by_contra letter
          rw [alnum_of_bearer_letter listed (by simpa [Piece.cls] using letter)] at alnum
          contradiction
        · simp only [List.mem_cons, List.not_mem_nil, or_false] at gap
          rcases gap with rfl | rfl
          · exact space
          · exact space
      have before : bearerPattern.Passes pre (x :: s ++ v) := by
        refine Pattern.passes_of_required (c := isPySpace) (by simp [bearerPattern])
          (fun z member => space_of_token (run z (List.mem_append_left _ member))) leads
      rw [Exposes, Exposes, Pattern.passes_append]
      exact not_congr ⟨fun both => both.2, fun passes => ⟨before, passes⟩⟩

section surroundings
variable {u v a b pre pre' lead lead' : List Char}

/-- Two key values with tokens are printed alike if and only if what follows their first tokens
has the same parts and their seams agree. -/
theorem KeyValue.behind_eq_iff (key : KeyValue u a v pre lead) (key' : KeyValue u b v pre' lead')
    (clear' : Clear v) {k k' : List Char × Match Char} (found : skPattern.search a = some k)
    (found' : skPattern.search b = some k') :
    behindToken k.2.rest (seam a v) = behindToken k'.2.rest (seam b v) ↔
      SameParts k.2.rest k'.2.rest ∧ (Exposes a v ↔ Exposes b v) := by
  have run := rest_run key.chars found
  have run' := rest_run key'.chars found'
  rw [← seam_eq_iff key.noSpace key'.noSpace key.bearerEnds]
  constructor
  · intro same
    by_cases star : v.head? = some '*'
    · -- no match crosses the star, so the comparison ends before it
      have quiet : seam a v = v := if_neg (key.not_exposes_of_star star)
      have quiet' : seam b v = v := if_neg (key'.not_exposes_of_star star)
      have cut : ∀ r, behindToken r v = behindToken r [] ++ v := by
        intro r
        cases v with
        | nil => simp at star
        | cons x v =>
            obtain rfl := Option.some.inj star
            rw [behindToken, behindToken, Pattern.sub_append_foreign (apiKey_leads_star v)
              (foreign_star v), Pattern.sub_free clear'.apiKey, List.append_nil]
      rw [quiet, quiet', cut, cut] at same
      have seams : Seams [] [] := ⟨by simp [Foreign], rfl, by simp, rfl, rfl⟩
      have parts := seams.sameParts run run' (rest_foreign found) (fun _ _ _ _ _ => rfl)
        (List.append_cancel_right same)
      exact ⟨parts.1, by rw [quiet, quiet']⟩
    · have head := seam_head? key.noSpace key.bearerEnds
      have head' := seam_head? key'.noSpace key.bearerEnds
      have seams : Seams (seam a v) (seam b v) :=
        ⟨key.seam_ends, by rw [head, head'], by rwa [head], apiKey_sub_seam a clear'.apiKey,
          apiKey_sub_seam b clear'.apiKey⟩
      refine seams.sameParts run run' (rest_foreign found) (fun s more starts inside inside' => ?_) same
      rw [seam_eq_iff key.noSpace key'.noSpace key.bearerEnds]
      rw [exposes_of_suffix key.chars (inside.trans (rest_suffix found)) more starts,
        exposes_of_suffix key'.chars (inside'.trans (rest_suffix found')) more starts]
  · rintro ⟨parts, same⟩
    rw [← same]
    exact behind_sameParts parts run run' key.seam_ends

theorem redactChars_eq_iff {b : List Char} {kind : SecretKind} (clear : Clear u) (clear' : Clear v)
    (first : Delimited kind u a v) (second : Delimited kind u b v) :
    redactChars (u ++ (a ++ v)) = redactChars (u ++ (b ++ v)) ↔ Concealed kind u v a b := by
  cases kind with
  | bearer =>
      refine iff_of_true ?_ trivial
      rw [redactChars_eq, redactChars_eq, bearer_sub_delimited first, bearer_sub_delimited second]
  | sk =>
      exact (skToken_of_delimited first).redacted_eq_iff clear clear' (skToken_of_delimited second)
  | apiKey =>
      obtain ⟨pre, lead, key⟩ := keyValue_of_delimited first
      obtain ⟨pre', lead', key'⟩ := keyValue_of_delimited second
      unfold Concealed keyRemainder
      cases token : skPattern.search a with
      | none =>
          rw [key.redacted_of_free clear clear' (Pattern.search_eq_none.mp token)]
          cases token' : skPattern.search b with
          | none =>
              rw [key'.redacted_of_free clear clear' (Pattern.search_eq_none.mp token')]
              simp only [List.append_cancel_left_eq, Option.map_none]
              exact seam_eq_iff key.noSpace key'.noSpace key.bearerEnds
          | some k' =>
              rw [key'.redacted_of_token clear clear' token']
              simp only [List.append_cancel_left_eq, Option.map_none, Option.map_some, iff_false]
              exact key.seam_ne_cut key' clear' _
      | some k =>
          rw [key.redacted_of_token clear clear' token]
          cases token' : skPattern.search b with
          | none =>
              rw [key'.redacted_of_free clear clear' (Pattern.search_eq_none.mp token')]
              simp only [List.append_cancel_left_eq, Option.map_none, Option.map_some, iff_false]
              exact fun same => key'.seam_ne_cut key clear' _ same.symm
          | some k' =>
              rw [key'.redacted_of_token clear clear' token']
              simp only [List.append_cancel_left_eq, Option.map_some]
              exact key.behind_eq_iff key' clear' token token'

end surroundings

end Noxis
