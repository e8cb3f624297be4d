import Noxis.Logging

/-! What redaction hides. The group of the second pattern holds the whole token, so a token
is marked and stays, and a key that contains one is cut at its end. -/
namespace Noxis
open GreedyPattern

/-! ### The character classes -/

theorem isTokenChar_of_alnum {c : Char} (h : isAsciiAlnum c = true) : isTokenChar c = true := by
  have table : ∀ n < 128, isAsciiAlnum (Char.ofNat n) = true → isTokenChar (Char.ofNat n) = true := by
    decide +kernel
  have ascii : c.toNat < 128 := by
    simp [isAsciiAlnum, Char.isAlpha, Char.isUpper, Char.isLower, Char.isDigit,
      UInt32.le_iff_toNat_le] at h
    have : c.toNat = c.val.toNat := rfl
    omega
  have := table c.toNat ascii
  rw [Char.ofNat_toNat] at this
  exact this h

theorem isTokenChar_of_letter {w c : Char} (lower : w.isLower = true) (h : letter w c = true) :
    isTokenChar c = true := by
  have folded : foldCase c = w := by simpa [letter] using h
  simp [isTokenChar, folded, lower]

theorem not_token_of_space {c : Char} (h : isPySpace c = true) : isTokenChar c = false := by
  have table : ∀ n ∈ [9, 10, 11, 12, 13, 28, 29, 30, 31, 32, 0x85, 0xA0, 0x1680, 0x2000, 0x2001,
      0x2002, 0x2003, 0x2004, 0x2005, 0x2006, 0x2007, 0x2008, 0x2009, 0x200A, 0x2028, 0x2029, 0x202F,
      0x205F, 0x3000], isTokenChar (Char.ofNat n) = false := by decide +kernel
  have listed := table c.toNat
  rw [Char.ofNat_toNat] at listed
  apply listed
  simp only [isPySpace, Bool.or_eq_true, Bool.and_eq_true, decide_eq_true_eq, beq_iff_eq] at h
  simp only [List.mem_cons, List.not_mem_nil, or_false]
  omega

theorem space_of_token {c : Char} (h : isTokenChar c = true) : isPySpace c = false := by
  cases space : isPySpace c with
  | false => rfl
  | true =>
      rw [not_token_of_space space] at h
      contradiction

theorem not_letter_of_space {w c : Char} (lower : w.isLower = true) (h : isPySpace c = true) :
    letter w c = false := by
  cases read : letter w c with
  | false => rfl
  | true =>
      have token := isTokenChar_of_letter lower read
      rw [not_token_of_space h] at token
      contradiction

/-- The letters of `Bearer` have no other variants than the two ASCII ones. -/
theorem alnum_of_bearer_letter {w c : Char} (member : w ∈ bearerWord) (h : letter w c = true) :
    isAsciiAlnum c = true := by
  have folded : foldCase c = w := by simpa [letter] using h
  unfold foldCase at folded
  split_ifs at folded
  · subst folded
    simp [bearerWord] at member
  · subst folded
    simp [bearerWord] at member
  · subst folded
    simp [bearerWord] at member
  · unfold Char.toLower at folded
    split_ifs at folded with upper
    · have isUpper : c.isUpper = true := by simpa [Char.isUpper] using upper
      simp [isAsciiAlnum, Char.isAlpha, isUpper]
    · subst folded
      have all : ∀ w ∈ bearerWord, isAsciiAlnum w = true := by
        simp [bearerWord, isAsciiAlnum]
      exact all c member

/-! ### The seam after a secret -/

/-- A `Bearer` match begins inside the secret: it ends in that word, and white space and a
token follow. -/
def Exposes (a v : List Char) : Prop := ¬ bearerPattern.Passes a v

instance (a v : List Char) : Decidable (Exposes a v) := inferInstanceAs (Decidable (¬ _))

/-- What the first pattern makes of the text after a secret. -/
def seam (a v : List Char) : List Char :=
  if Exposes a v then
    v.takeWhile isPySpace ++ (redactMark ++ (v.dropWhile isPySpace).dropWhile isTokenChar)
  else v

/-- A word that is read up to the end of `s` continues with the white space after it. -/
theorem readLead_word {word s v l r : List Char}
    (done : readLead (word.map (fun c => .one (letter c)) ++ [.one isPySpace, .many isPySpace])
      (s ++ v) = some (l, r))
    (noSpace : ∀ x ∈ s, isPySpace x = false) (ends : ∀ w ∈ word, Foreign (letter w) v) :
    l = s ++ v.takeWhile isPySpace ∧ r = v.dropWhile isPySpace := by
  induction word generalizing s l with
  | nil =>
      cases s with
      | nil =>
          cases v with
          | nil => simp [readLead, Piece.take] at done
          | cons x v =>
              by_cases space : isPySpace x = true
              · simp only [List.map_nil, List.nil_append, readLead, Piece.take, space, if_true,
                  Option.bind_some, Option.map_some, Option.some.injEq, Prod.mk.injEq] at done
                obtain ⟨rfl, rfl⟩ := done
                simp [space]
              · simp [readLead, Piece.take, space] at done
      | cons x s => simp [readLead, Piece.take, noSpace x List.mem_cons_self] at done
  | cons w word ih =>
      cases s with
      | nil =>
          cases v with
          | nil => simp [readLead, Piece.take] at done
          | cons x v => simp [readLead, Piece.take, ends w List.mem_cons_self x rfl] at done
      | cons x s =>
          by_cases inside : letter w x = true
          · simp only [List.map_cons, List.cons_append, readLead, Piece.take, inside, if_true,
              Option.bind_some, Option.map_eq_some_iff, Prod.mk.injEq] at done
            obtain ⟨⟨l', r'⟩, rest, rfl, rfl⟩ := done
            obtain ⟨rfl, rfl⟩ := ih rest (fun z member => noSpace z (by simp [member]))
              (fun z member => ends z (by simp [member]))
            simp
          · simp [readLead, Piece.take, inside] at done

/-- After a secret without white space the first pattern rewrites at most the seam. -/
theorem bearer_sub_secret {a v : List Char} (noSpace : ∀ x ∈ a, isPySpace x = false)
    (ends : ∀ w ∈ bearerWord, Foreign (letter w) v) (free : bearerPattern.Free v) :
    bearerPattern.sub redactMark (a ++ v) = a ++ seam a v := by
  induction a with
  | nil =>
      have quiet : ¬ Exposes [] v := fun exposes => exposes trivial
      rw [List.nil_append, Pattern.sub_free free, seam, if_neg quiet, List.nil_append]
  | cons x a ih =>
      have noSpace' : ∀ z ∈ a, isPySpace z = false := fun z member => noSpace z (by simp [member])
      cases here : bearerPattern.matchAt (x :: a ++ v) with
      | none =>
          have same : seam (x :: a) v = seam a v := by
            have iff : Exposes (x :: a) v ↔ Exposes a v :=
              not_congr ⟨fun passes => passes.2, fun passes => ⟨here, passes⟩⟩
            simp only [seam, iff]
          rw [same]
          rw [List.cons_append] at here ⊢
          rw [Pattern.sub_cons_of_none here, ih noSpace', List.cons_append]
      | some m =>
          have exposes : Exposes (x :: a) v := by
            intro passes
            have := passes.1
            rw [here] at this
            contradiction
          rw [Pattern.sub_of_match here, seam, if_pos exposes]
          simp only [Pattern.matchAt, Option.bind_eq_some_iff] at here
          obtain ⟨⟨l, r⟩, done, eq⟩ := here
          split_ifs at eq
          obtain rfl := Option.some.inj eq
          obtain ⟨rfl, rfl⟩ := readLead_word done noSpace ends
          have rest : bearerPattern.Free ((v.dropWhile isPySpace).dropWhile isTokenChar) :=
            (free.dropWhile isPySpace).dropWhile isTokenChar
          have after : bearerPattern.sub redactMark
              ((v.dropWhile isPySpace).dropWhile bearerPattern.body) =
              (v.dropWhile isPySpace).dropWhile isTokenChar := Pattern.sub_free rest
          rw [after]
          simp [Pattern.replaced, bearerPattern]

theorem leads_foreign_of_head {p : Pattern Char} {x : Char} {y : List Char}
    (outside : p.lead.all (fun q => q.cls x == false) = true) :
    ∀ q ∈ p.lead, Foreign q.cls (x :: y) := by
  intro q member z first
  obtain rfl : x = z := by simpa using first
  simpa using List.all_eq_true.mp outside q member

theorem redactMark_eq : redactMark = '*' :: "**REDACTED***".toList := by decide

theorem foreign_star (y : List Char) : Foreign isTokenChar ('*' :: y) := by
  intro x first
  obtain rfl : '*' = x := by simpa using first
  decide

theorem foreign_mark (y : List Char) : Foreign isTokenChar (redactMark ++ y) := by
  rw [redactMark_eq]
  exact foreign_star _

theorem apiKey_leads_star (y : List Char) : ∀ q ∈ apiKeyPattern.lead, Foreign q.cls ('*' :: y) :=
  leads_foreign_of_head (by decide)

theorem sk_passes_mark (y : List Char) : skPattern.Passes redactMark y := by
  have outside : redactMark.all (fun x => (x == 's') == false) = true := by decide
  exact Pattern.passes_of_head rfl fun x member => by
    simpa using List.all_eq_true.mp outside x member

theorem apiKey_passes_mark (y : List Char) : apiKeyPattern.Passes redactMark y := by
  have shape : redactMark = "***RED".toList ++ ('A' :: "CTED***".toList) := by decide
  have outside : ("***RED".toList ++ "CTED***".toList).all
      (fun x => letter 'a' x == false) = true := by decide
  rw [shape, Pattern.passes_append]
  refine ⟨Pattern.passes_of_head rfl fun x member => ?_, rfl,
    Pattern.passes_of_head rfl fun x member => ?_⟩
  · simpa using List.all_eq_true.mp outside x (List.mem_append_left _ member)
  · simpa using List.all_eq_true.mp outside x (List.mem_append_right _ member)

theorem apiKey_sub_mark (y : List Char) :
    apiKeyPattern.sub redactMark (redactMark ++ y) =
      redactMark ++ apiKeyPattern.sub redactMark y := Pattern.sub_passes (apiKey_passes_mark y)

/-- A pattern that matches nothing in the text after a secret matches nothing in its seam. -/
theorem seam_sub {p : Pattern Char} {c : Char → Bool} {ps : List (Piece Char)} {a v : List Char}
    (lead : p.lead = .one c :: ps) (noSpace : ∀ x, isPySpace x = true → c x = false)
    (mark : ∀ y, p.Passes redactMark y) (free : p.Free v) :
    p.sub redactMark (seam a v) = seam a v := by
  unfold seam
  split_ifs
  · have spaces : ∀ x ∈ v.takeWhile isPySpace, c x = false :=
      fun x member => noSpace x (List.mem_takeWhile_imp member)
    rw [Pattern.sub_passes (Pattern.passes_of_head lead spaces), Pattern.sub_passes (mark _),
      Pattern.sub_free ((free.dropWhile isPySpace).dropWhile isTokenChar)]
  · exact Pattern.sub_free free

theorem sk_sub_seam {v : List Char} (a : List Char) (free : skPattern.Free v) :
    skPattern.sub redactMark (seam a v) = seam a v := by
  refine seam_sub rfl (fun x space => ?_) sk_passes_mark free
  cases same : x == 's' with
  | false => rfl
  | true =>
      obtain rfl := beq_iff_eq.mp same
      simp [isPySpace] at space

theorem apiKey_sub_seam {v : List Char} (a : List Char) (free : apiKeyPattern.Free v) :
    apiKeyPattern.sub redactMark (seam a v) = seam a v :=
  seam_sub rfl (fun _ space => not_letter_of_space (by decide) space) apiKey_passes_mark free

/-- Where a match begins in the secret, the text after it begins with white space. -/
theorem seam_head {a v : List Char} (noSpace : ∀ x ∈ a, isPySpace x = false)
    (ends : ∀ w ∈ bearerWord, Foreign (letter w) v) (exposes : Exposes a v) :
    ∃ x y, v = x :: y ∧ isPySpace x = true ∧ ∃ z w, v.dropWhile isPySpace = z :: w ∧
      isTokenChar z = true := by
  induction a with
  | nil => exact absurd trivial exposes
  | cons x a ih =>
      cases here : bearerPattern.matchAt (x :: a ++ v) with
      | none =>
          have rest : Exposes a v := fun passes => exposes ⟨here, passes⟩
          exact ih (fun z member => noSpace z (by simp [member])) rest
      | some m =>
          have enough := Pattern.matchAt_body here
          simp only [Pattern.matchAt, Option.bind_eq_some_iff] at here
          obtain ⟨⟨l, r⟩, done, eq⟩ := here
          split_ifs at eq
          obtain rfl := Option.some.inj eq
          obtain ⟨rfl, rfl⟩ := readLead_word done noSpace ends
          obtain ⟨s, member, space⟩ := readLead_mem done (c := isPySpace) (by simp [bearerPattern])
          have inRun : s ∈ v.takeWhile isPySpace := by
            rcases List.mem_append.mp member with inside | after
            · rw [noSpace s inside] at space
              contradiction
            · exact after
          cases v with
          | nil => simp at inRun
          | cons y v =>
              have first : isPySpace y = true := by
                by_contra other
                simp [other] at inRun
              refine ⟨y, v, rfl, first, ?_⟩
              cases left : (y :: v).dropWhile isPySpace with
              | nil =>
                  simp [left, bearerPattern] at enough
              | cons z w =>
                  refine ⟨z, w, rfl, ?_⟩
                  by_contra other
                  simp [left, bearerPattern, other] at enough

theorem seam_head? {a v : List Char} (noSpace : ∀ x ∈ a, isPySpace x = false)
    (ends : ∀ w ∈ bearerWord, Foreign (letter w) v) : (seam a v).head? = v.head? := by
  unfold seam
  split_ifs with exposes
  · obtain ⟨x, y, rfl, space, -⟩ := seam_head noSpace ends exposes
    simp [space]
  · rfl

/-- The seam tells exactly whether a match begins in the secret. -/
theorem seam_eq_iff {a b v : List Char} (noSpace : ∀ x ∈ a, isPySpace x = false)
    (noSpace' : ∀ x ∈ b, isPySpace x = false) (ends : ∀ w ∈ bearerWord, Foreign (letter w) v) :
    seam a v = seam b v ↔ (Exposes a v ↔ Exposes b v) := by
  have differs : ∀ {c : List Char}, (∀ x ∈ c, isPySpace x = false) → Exposes c v →
      v ≠ v.takeWhile isPySpace ++
        (redactMark ++ (v.dropWhile isPySpace).dropWhile isTokenChar) := by
    intro c noSpace exposes same
    obtain ⟨-, -, -, -, z, w, left, token⟩ := seam_head noSpace ends exposes
    nth_rewrite 1 [← List.takeWhile_append_dropWhile (p := isPySpace) (l := v)] at same
    have tails := List.append_cancel_left same
    rw [left, redactMark_eq] at tails
    obtain ⟨rfl, -⟩ := List.cons.inj tails
    exact absurd token (by decide)
  unfold seam
  by_cases first : Exposes a v <;> by_cases second : Exposes b v
  · simp [first, second]
  · simpa [first, second] using (differs noSpace first).symm
  · simpa [first, second] using differs noSpace' second
  · simp [first, second]

/-! ### Secrets in their surroundings -/

inductive SecretKind where
  | bearer | sk | apiKey
  deriving DecidableEq

def SecretKind.pattern : SecretKind → Pattern Char
  | .bearer => bearerPattern
  | .sk => skPattern
  | .apiKey => apiKeyPattern

/-- No pattern matches anywhere in the text. -/
def Clear (t : List Char) : Prop := ∀ p ∈ redactPatterns, p.Free t

theorem Clear.bearer {t : List Char} (clear : Clear t) : bearerPattern.Free t :=
  clear _ (by simp [redactPatterns])

theorem Clear.sk {t : List Char} (clear : Clear t) : skPattern.Free t :=
  clear _ (by simp [redactPatterns])

theorem Clear.apiKey {t : List Char} (clear : Clear t) : apiKeyPattern.Free t :=
  clear _ (by simp [redactPatterns])

instance : DecidablePred Clear := fun _ => inferInstanceAs (Decidable (∀ p ∈ _, _))

/-- The pattern of the kind finds the secret between `u` and `v`: a token as its whole match,
the other kinds as the body of its match, the lead of which ends `u`. -/
def Delimited (kind : SecretKind) (u a v : List Char) : Prop :=
  ∃ k, kind.pattern.search (u ++ (a ++ v)) = some k ∧ k.2.rest = v ∧
    if kind = .sk then k.1 = u ∧ k.2.lead ++ k.2.body = a else k.1 ++ k.2.lead = u ∧ k.2.body = a

theorem redactChars_eq (t : List Char) : redactChars t =
    apiKeyPattern.sub redactMark (skPattern.sub redactMark (bearerPattern.sub redactMark t)) := rfl

section surroundings
variable {u v a : List Char}

/-- The first pattern replaces a bearer token whatever it is. -/
theorem bearer_sub_delimited (delimited : Delimited .bearer u a v) :
    bearerPattern.sub redactMark (u ++ (a ++ v)) =
      u ++ (redactMark ++ bearerPattern.sub redactMark v) := by
  obtain ⟨k, found, rfl, rfl, rfl⟩ := delimited
  have replaced := Pattern.sub_search redactMark found
  simpa [Pattern.replaced, SecretKind.pattern, bearerPattern] using replaced

/-- The shape of an `sk-` token and of the texts around it. -/
structure SkToken (u a v : List Char) : Prop where
  shape : ∃ body, a = 's' :: 'k' :: '-' :: body ∧ (∀ x ∈ body, isAsciiAlnum x = true) ∧
    10 ≤ body.length
  ends : Foreign isAsciiAlnum v
  before : skPattern.Passes u (a ++ v)

theorem readLead_sk {t l r : List Char} (done : readLead skPattern.lead t = some (l, r)) :
    l = ['s', 'k', '-'] := by
  obtain ⟨x, t, l, rfl, rfl, first, done⟩ := readLead_one_eq_some.mp done
  obtain ⟨y, t, l, rfl, rfl, second, done⟩ := readLead_one_eq_some.mp done
  obtain ⟨z, t, l, rfl, rfl, third, done⟩ := readLead_one_eq_some.mp done
  obtain ⟨rfl, -⟩ : [] = l ∧ t = r := by simpa [readLead] using done
  rw [beq_iff_eq.mp first, beq_iff_eq.mp second, beq_iff_eq.mp third]

theorem skToken_of_delimited (delimited : Delimited .sk u a v) : SkToken u a v := by
  obtain ⟨k, found, rfl, rfl, rfl⟩ := delimited
  obtain ⟨-, before, matched⟩ := Pattern.search_spec found
  obtain ⟨done, run, ends, enough⟩ := Pattern.matchAt_eq_some.mp matched
  have lead := readLead_sk done
  refine ⟨⟨k.2.body, by rw [lead]; rfl, run, enough⟩, ends, ?_⟩
  rw [List.append_assoc]
  exact before

theorem passes_sk_iff {body w : List Char} (ends : Foreign isAsciiAlnum w) :
    skPattern.Passes u ('s' :: 'k' :: '-' :: body ++ w) ↔
      skPattern.Passes u ('s' :: 'k' :: '-' :: body) := by
  induction u with
  | nil => exact Iff.rfl
  | cons x u ih =>
      have single : Single skPattern.lead (x :: u ++ 's' :: 'k' :: '-' :: body) := by
        intro c member
        simp [skPattern] at member
      have here := Pattern.matchAt_long (p := skPattern) single (by simp [skPattern]; omega) ends
      rw [List.append_assoc] at here
      exact and_congr (by rw [here, Option.map_eq_none_iff]) ih

namespace SkToken

variable (token : SkToken u a v)
include token

theorem chars : ∀ x ∈ a, isTokenChar x = true := by
  obtain ⟨body, rfl, run, -⟩ := token.shape
  intro x member
  simp only [List.mem_cons] at member
  rcases member with rfl | rfl | rfl | inside
  · decide
  · decide
  · decide
  · exact isTokenChar_of_alnum (run x inside)

theorem noSpace : ∀ x ∈ a, isPySpace x = false :=
  fun x member => space_of_token (token.chars x member)

theorem bearerEnds : ∀ w ∈ bearerWord, Foreign (letter w) v := by
  intro w member x first
  cases inside : letter w x with
  | false => rfl
  | true =>
      have := alnum_of_bearer_letter member inside
      rw [token.ends x first] at this
      contradiction

/-- The token is found in front of any text that ends its run. -/
theorem sk_sub {w : List Char} (ends : Foreign isAsciiAlnum w) :
    skPattern.sub redactMark (u ++ (a ++ w)) =
      u ++ (a ++ (redactMark ++ skPattern.sub redactMark w)) := by
  obtain ⟨body, rfl, run, enough⟩ := token.shape
  have found : skPattern.matchAt ('s' :: 'k' :: '-' :: body ++ w) =
      some ⟨['s', 'k', '-'], body, w⟩ := Pattern.matchAt_eq_some.mpr ⟨rfl, run, ends, enough⟩
  have passes : skPattern.Passes u ('s' :: 'k' :: '-' :: body ++ w) :=
    (passes_sk_iff ends).mpr ((passes_sk_iff token.ends).mp token.before)
  rw [Pattern.sub_passes passes, Pattern.sub_of_match found]
  simp [Pattern.replaced, skPattern]

theorem seam_ends : Foreign isAsciiAlnum (seam a v) := by
  intro x first
  rw [seam_head? token.noSpace token.bearerEnds] at first
  exact token.ends x first

theorem starts (w : List Char) {p : Pattern Char}
    (outside : p.lead.all (fun q => q.cls 's' == false) = true) :
    ∀ q ∈ p.lead, Foreign q.cls (a ++ w) := by
  obtain ⟨body, rfl, -⟩ := token.shape
  exact leads_foreign_of_head outside

/-- Where no `Bearer` precedes it, the token stays, and is marked. -/
theorem redacted_before_keys (clear : Clear u) (clear' : Clear v)
    (closed : bearerPattern.opens u = false) :
    redactChars (u ++ (a ++ v)) =
      apiKeyPattern.sub redactMark (u ++ (a ++ (redactMark ++ seam a v))) := by
  have passes : bearerPattern.Passes u (a ++ v) := Pattern.passes_unopened
    (token.starts v (by decide)) clear.bearer closed
  rw [redactChars_eq, Pattern.sub_passes passes,
    bearer_sub_secret token.noSpace token.bearerEnds clear'.bearer,
    token.sk_sub token.seam_ends, sk_sub_seam a clear'.sk]

theorem shown_without_key (clear : Clear u) (clear' : Clear v)
    (closed : apiKeyPattern.opens u = false) :
    apiKeyPattern.sub redactMark (u ++ (a ++ (redactMark ++ seam a v))) =
      u ++ (a ++ (redactMark ++ seam a v)) := by
  have before : apiKeyPattern.Passes u (a ++ (redactMark ++ seam a v)) := Pattern.passes_unopened
    (token.starts _ (by decide)) clear.apiKey closed
  have noSeparator : ∀ x ∈ a, isKeySeparator x = false := by
    obtain ⟨body, rfl, run, -⟩ := token.shape
    intro x member
    simp only [List.mem_cons] at member
    rcases member with rfl | rfl | rfl | inside
    · decide
    · decide
    · decide
    · cases separator : isKeySeparator x with
      | false => rfl
      | true =>
          have alnum := run x inside
          rcases (by simpa [isKeySeparator] using separator : x = ':' ∨ x = '=') with rfl | rfl
          · exact absurd alnum (by decide)
          · exact absurd alnum (by decide)
  have within : apiKeyPattern.Passes a (redactMark ++ seam a v) := by
    refine Pattern.passes_of_required (c := isKeySeparator) (by simp [apiKeyPattern]) noSeparator ?_
    rw [redactMark_eq]
    exact leads_foreign_of_head (by decide)
  rw [Pattern.sub_passes before, Pattern.sub_passes within, apiKey_sub_mark,
    apiKey_sub_seam a clear'.apiKey]

end SkToken

theorem SkToken.hidden_by_key (clear : Clear u) (clear' : Clear v) (opens : apiKeyPattern.opens u = true) :
    ∃ shown, ∀ {a}, SkToken u a v →
      apiKeyPattern.sub redactMark (u ++ (a ++ (redactMark ++ seam a v))) =
        shown ++ (redactMark ++ (redactMark ++ seam a v)) := by
  obtain ⟨shown, hides⟩ := Pattern.sub_opened redactMark rfl
    clear.apiKey opens
  refine ⟨shown, fun {a} token => ?_⟩
  have whole : (a ++ (redactMark ++ seam a v)).takeWhile isTokenChar = a := by
    rw [takeWhile_foreign (foreign_mark _), List.takeWhile_eq_self_iff.mpr token.chars]
  have left : (a ++ (redactMark ++ seam a v)).dropWhile isTokenChar = redactMark ++ seam a v := by
    rw [dropWhile_foreign (foreign_mark _), List.dropWhile_eq_nil_iff.mpr token.chars,
      List.nil_append]
  have hidden := hides (a ++ (redactMark ++ seam a v)) (token.starts _ (by decide)) (by
    change 8 ≤ ((a ++ (redactMark ++ seam a v)).takeWhile isTokenChar).length
    rw [whole]
    obtain ⟨body, rfl, -, enough⟩ := token.shape
    simp only [List.length_cons]
    omega)
  change _ = shown ++ (redactMark ++ apiKeyPattern.sub redactMark
    ((a ++ (redactMark ++ seam a v)).dropWhile isTokenChar)) at hidden
  rw [hidden, left, apiKey_sub_mark, apiKey_sub_seam a clear'.apiKey]

theorem SkToken.hidden_by_bearer (clear : Clear u) (opens : bearerPattern.opens u = true) :
    ∃ shown, ∀ {a}, SkToken u a v → bearerPattern.sub redactMark (u ++ (a ++ v)) = shown := by
  obtain ⟨shown, hides⟩ := Pattern.sub_opened redactMark rfl
    clear.bearer opens
  refine ⟨shown ++ (redactMark ++ bearerPattern.sub redactMark (v.dropWhile isTokenChar)),
    fun {a} token => ?_⟩
  have whole : (a ++ v).takeWhile isTokenChar = a ++ v.takeWhile isTokenChar :=
    List.takeWhile_append_of_pos token.chars
  have left : (a ++ v).dropWhile isTokenChar = v.dropWhile isTokenChar :=
    List.dropWhile_append_of_pos token.chars
  have hidden := hides (a ++ v) (token.starts v (by decide)) (by
    change 1 ≤ ((a ++ v).takeWhile isTokenChar).length
    rw [whole]
    obtain ⟨body, rfl, -, -⟩ := token.shape
    simp)
  change _ = shown ++ (redactMark ++ bearerPattern.sub redactMark
    ((a ++ v).dropWhile isTokenChar)) at hidden
  rw [hidden, left]

/-- Two tokens in the same place are redacted alike if and only if they are the same, or a
`Bearer` before them hides them, or a key name does and the seams agree. -/
theorem SkToken.redacted_eq_iff {b : List Char} (token : SkToken u a v) (clear : Clear u)
    (clear' : Clear v) (other : SkToken u b v) :
    redactChars (u ++ (a ++ v)) = redactChars (u ++ (b ++ v)) ↔
      a = b ∨ bearerPattern.opens u = true ∨
        (apiKeyPattern.opens u = true ∧ (Exposes a v ↔ Exposes b v)) := by
  cases bearer : bearerPattern.opens u with
  | true =>
      obtain ⟨shown, hides⟩ := SkToken.hidden_by_bearer (v := v) clear bearer
      simp [redactChars_eq, hides token, hides other]
  | false =>
      rw [token.redacted_before_keys clear clear' bearer,
        other.redacted_before_keys clear clear' bearer]
      cases key : apiKeyPattern.opens u with
      | true =>
          obtain ⟨shown, hides⟩ := SkToken.hidden_by_key clear clear' key
          rw [hides token, hides other]
          simp only [List.append_cancel_left_eq,
            seam_eq_iff token.noSpace other.noSpace token.bearerEnds]
          constructor
          · exact fun same => .inr (.inr ⟨trivial, same⟩)
          · rintro (rfl | impossible | ⟨-, same⟩)
            · exact Iff.rfl
            · contradiction
            · exact same
      | false =>
          rw [token.shown_without_key clear clear' key, other.shown_without_key clear clear' key,
            List.append_cancel_left_eq]
          constructor
          · intro same
            have runs := congrArg (List.takeWhile isTokenChar) same
            rw [takeWhile_foreign (foreign_mark _), takeWhile_foreign (foreign_mark _),
              List.takeWhile_eq_self_iff.mpr token.chars,
              List.takeWhile_eq_self_iff.mpr other.chars] at runs
            exact .inl runs
          · rintro (rfl | impossible | ⟨impossible, -⟩)
            · rfl
            · contradiction
            · contradiction

/-! ### Key values -/

/-- The first letter of a key lead occurs in no other piece of it. -/
theorem keyLetter_outside {c : Char} (first : letter 'a' c = true) :
    ∀ q ∈ apiKeyPattern.lead.tail, q.cls c = false := by
  have folded : foldCase c = 'a' := by simpa [letter] using first
  have token := isTokenChar_of_letter (by decide) first
  have space := space_of_token token
  have differs : ∀ d : Char, foldCase d ≠ 'a' → (c == d) = false := by
    intro d other
    rw [beq_eq_false_iff_ne]
    rintro rfl
    exact other folded
  simp only [apiKeyPattern, List.tail_cons, List.mem_cons, List.not_mem_nil, or_false]
  rintro q (rfl | rfl | rfl | rfl | rfl | rfl | rfl | rfl | rfl | rfl | rfl)
  · simp [Piece.cls, letter, folded]
  · simp [Piece.cls, letter, folded]
  · simp [Piece.cls, differs '_' (by decide), differs '-' (by decide)]
  · simp [Piece.cls, letter, folded]
  · simp [Piece.cls, letter, folded]
  · simp [Piece.cls, letter, folded]
  · simp [Piece.cls, isQuote, differs '\"' (by decide)]
  · exact space
  · simp [Piece.cls, isKeySeparator, differs ':' (by decide), differs '=' (by decide)]
  · exact space
  · simp [Piece.cls, isQuote, differs '\"' (by decide)]

theorem key_separator {k : Char} (separator : isKeySeparator k = true) : k = ':' ∨ k = '=' := by
  simpa [isKeySeparator] using separator

theorem separator_outside_bearer {k : Char} (separator : isKeySeparator k = true) :
    ∀ q ∈ bearerPattern.lead, q.cls k = false := by
  have outside : ∀ c ∈ [':', '='], bearerPattern.lead.all (fun q => q.cls c == false) = true := by
    simp only [List.mem_cons, List.not_mem_nil, or_false, forall_eq_or_imp, forall_eq]
    decide
  intro q member
  have all := outside k (by simpa using key_separator separator)
  simpa using List.all_eq_true.mp all q member

theorem separator_outside_sk {k : Char} (separator : isKeySeparator k = true) (z : List Char) :
    (∀ q ∈ skPattern.lead, Foreign q.cls (k :: z)) ∧ Foreign skPattern.body (k :: z) := by
  rcases key_separator separator with rfl | rfl
  · exact ⟨leads_foreign_of_head (by decide), fun x first => by
      obtain rfl := Option.some.inj first; decide⟩
  · exact ⟨leads_foreign_of_head (by decide), fun x first => by
      obtain rfl := Option.some.inj first; decide⟩

/-- No symbol at the end of a key lead begins a lead of the first two patterns. -/
theorem key_end_outside {x : Char}
    (last : isKeySeparator x = true ∨ isPySpace x = true ∨ isQuote x = true) :
    letter 'b' x = false ∧ (x == 's') = false := by
  rcases last with separator | space | quote
  · rcases key_separator separator with rfl | rfl <;> decide
  · refine ⟨not_letter_of_space (by decide) space, ?_⟩
    rw [beq_eq_false_iff_ne]
    rintro rfl
    exact absurd space (by decide)
  · obtain rfl : x = '\"' := by simpa [isQuote] using quote
    decide

/-- A run that is too short both alone and in front of the secret is too short in front of
every text. -/
theorem short_run {w a v z : List Char} (chars : ∀ x ∈ a, isTokenChar x = true)
    (long : 8 ≤ a.length) (secret : ¬ 8 ≤ ((w ++ (a ++ v)).takeWhile isTokenChar).length)
    (alone : ¬ 8 ≤ (w.takeWhile isTokenChar).length) :
    ¬ 8 ≤ ((w ++ z).takeWhile isTokenChar).length := by
  by_cases whole : (w.takeWhile isTokenChar).length = w.length
  · -- the run would reach the secret
    have run : (a ++ v).takeWhile isTokenChar = a ++ v.takeWhile isTokenChar :=
      List.takeWhile_append_of_pos chars
    rw [List.takeWhile_append, if_pos whole, run] at secret
    simp only [List.length_append] at secret
    omega
  · rwa [List.takeWhile_append, if_neg whole]

theorem passes_before_lead {s lead a v z : List Char}
    (foreign : ∀ y, ∀ q ∈ apiKeyPattern.lead.tail, Foreign q.cls (lead ++ y))
    (chars : ∀ x ∈ a, isTokenChar x = true) (long : 8 ≤ a.length)
    (before : apiKeyPattern.Passes s (lead ++ (a ++ v)))
    (free : apiKeyPattern.Passes s (lead ++ [])) : apiKeyPattern.Passes s (lead ++ z) := by
  induction s with
  | nil => trivial
  | cons x s ih =>
      refine ⟨?_, ih before.2 free.2⟩
      have secret := before.1
      have alone := free.1
      rw [Pattern.matchAt_behind rfl x s (foreign _)] at secret alone ⊢
      cases done : readLead apiKeyPattern.lead (x :: s) with
      | none => rfl
      | some m =>
          simp only [done, Option.bind_some, ite_eq_right_iff, reduceCtorEq, imp_false,
            List.append_nil] at secret alone ⊢
          rw [← List.append_assoc] at secret ⊢
          exact short_run chars long secret alone

/-- The shape of a key value and of the texts around it. -/
structure KeyValue (u a v pre lead : List Char) : Prop where
  split : u = pre ++ lead
  readLead : readLead apiKeyPattern.lead (lead ++ (a ++ v)) = some (lead, a ++ v)
  chars : ∀ x ∈ a, isTokenChar x = true
  long : 8 ≤ a.length
  ends : Foreign isTokenChar v
  before : apiKeyPattern.Passes pre (lead ++ (a ++ v))

theorem keyValue_of_delimited (delimited : Delimited .apiKey u a v) :
    ∃ pre lead, KeyValue u a v pre lead := by
  obtain ⟨k, found, rfl, rfl, rfl⟩ := delimited
  obtain ⟨-, before, matched⟩ := Pattern.search_spec found
  obtain ⟨done, run, ends, enough⟩ := Pattern.matchAt_eq_some.mp matched
  exact ⟨k.1, k.2.lead, rfl, done, run, enough, ends, before⟩

/-- A key lead begins with a letter and ends in a separator, spaces and quotes. -/
theorem keyLead_shape {t l r : List Char} (done : readLead apiKeyPattern.lead t = some (l, r)) :
    (∃ x l', l = x :: l' ∧ letter 'a' x = true) ∧
      ∃ front k tail, l = front ++ k :: tail ∧ isKeySeparator k = true ∧
        ∀ x ∈ tail, isPySpace x = true ∨ isQuote x = true := by
  constructor
  · obtain ⟨x, -, l', -, rfl, first, -⟩ := readLead_one_eq_some.mp done
    exact ⟨x, l', rfl, first⟩
  · have parts : apiKeyPattern.lead = apiKeyPattern.lead.take 9 ++
        [.one isKeySeparator, .many isPySpace, .opt isQuote] := rfl
    rw [parts, readLead_append] at done
    simp only [Option.bind_eq_some_iff, Option.map_eq_some_iff, Prod.mk.injEq] at done
    obtain ⟨⟨front, t'⟩, -, ⟨back, r'⟩, done, rfl, rfl⟩ := done
    obtain ⟨k, t'', tail, -, rfl, separator, done⟩ := readLead_one_eq_some.mp done
    refine ⟨front, k, tail, rfl, separator, fun x member => ?_⟩
    obtain ⟨q, inPieces, inside⟩ := readLead_inside done member
    rcases List.mem_cons.mp inPieces with rfl | inPieces
    · exact .inl inside
    · obtain rfl := List.mem_singleton.mp inPieces
      exact .inr inside

namespace KeyValue

variable {pre lead : List Char} (key : KeyValue u a v pre lead)
include key

theorem noSpace : ∀ x ∈ a, isPySpace x = false := fun x member => space_of_token (key.chars x member)

theorem bearerEnds : ∀ w ∈ bearerWord, Foreign (letter w) v := by
  intro w member
  refine key.ends.mono fun x inside => isTokenChar_of_alnum (alnum_of_bearer_letter member inside)

theorem seam_ends : Foreign isTokenChar (seam a v) := by
  intro x first
  rw [seam_head? key.noSpace key.bearerEnds] at first
  exact key.ends x first

/-- The lead of the key ends in a separator, behind which no other lead can begin. -/
theorem separated : ∃ front k tail, u = front ++ k :: tail ∧ isKeySeparator k = true ∧
    ∀ x ∈ k :: tail, isKeySeparator x = true ∨ isPySpace x = true ∨ isQuote x = true := by
  obtain ⟨-, front, k, tail, shape, separator, spaces⟩ := keyLead_shape key.readLead
  refine ⟨pre ++ front, k, tail, by rw [key.split, shape, List.append_assoc], separator, ?_⟩
  intro x member
  rcases List.mem_cons.mp member with rfl | inTail
  · exact .inl separator
  · exact .inr (spaces x inTail)

theorem bearer_sub (clear : Clear u) (clear' : Clear v) :
    bearerPattern.sub redactMark (u ++ (a ++ v)) = u ++ (a ++ seam a v) := by
  obtain ⟨front, k, tail, split, separator, spaces⟩ := key.separated
  have free : bearerPattern.Free u := clear.bearer
  have passes : bearerPattern.Passes u (a ++ v) := by
    rw [Pattern.Free, split, Pattern.passes_append] at free
    rw [split, Pattern.passes_append]
    refine ⟨?_, Pattern.passes_of_head rfl fun x member => ?_⟩
    · exact Pattern.passes_through rfl (separator_outside_bearer separator) free.1 _
    · exact (key_end_outside (spaces x member)).1
  rw [Pattern.sub_passes passes, bearer_sub_secret key.noSpace key.bearerEnds
    clear'.bearer]

/-- The second pattern works on the value and stops at its end. -/
theorem sk_sub (clear : Clear u) (clear' : Clear v) :
    skPattern.sub redactMark (u ++ (a ++ seam a v)) =
      u ++ (skPattern.sub redactMark a ++ seam a v) := by
  obtain ⟨front, k, tail, split, separator, spaces⟩ := key.separated
  have free : skPattern.Free u := clear.sk
  have passes : skPattern.Passes u (a ++ seam a v) := by
    have foreign : ∀ z, (∀ q ∈ skPattern.lead, Foreign q.cls (k :: z)) ∧
        Foreign skPattern.body (k :: z) := fun z => separator_outside_sk separator z
    rw [Pattern.Free, split, Pattern.passes_append] at free
    rw [split, Pattern.passes_append]
    refine ⟨?_, Pattern.passes_of_head rfl fun x member => (key_end_outside (spaces x member)).2⟩
    rw [List.cons_append, Pattern.passes_foreign (foreign _).1 (foreign _).2]
    rw [List.cons_append, Pattern.passes_foreign (foreign _).1 (foreign _).2] at free
    exact free.1
  have alnum : Foreign isAsciiAlnum (seam a v) := key.seam_ends.mono fun _ => isTokenChar_of_alnum
  have leads : ∀ q ∈ skPattern.lead, Foreign q.cls (seam a v) := by
    intro q member
    refine key.seam_ends.mono fun x inside => ?_
    simp only [skPattern, List.mem_cons, List.not_mem_nil, or_false] at member
    rcases member with rfl | rfl | rfl
    all_goals
      obtain rfl := beq_iff_eq.mp inside
      decide
  rw [Pattern.sub_passes passes, Pattern.sub_append_foreign leads alnum,
    sk_sub_seam a clear'.sk]

/-- Before the key, no key pattern matches, whatever text follows its lead. -/
theorem before_lead (free : apiKeyPattern.Free u) (z : List Char) :
    apiKeyPattern.Passes pre (lead ++ z) := by
  obtain ⟨⟨c, lead', shape, first⟩, -⟩ := keyLead_shape key.readLead
  have foreign : ∀ y, ∀ q ∈ apiKeyPattern.lead.tail, Foreign q.cls (lead ++ y) := by
    intro y q member x isFirst
    rw [shape] at isFirst
    obtain rfl := Option.some.inj isFirst
    exact keyLetter_outside first q member
  rw [Pattern.Free, key.split, Pattern.passes_append] at free
  exact passes_before_lead foreign key.chars key.long key.before free.1

/-- The value of the key is hidden as far as it is one run. -/
theorem apiKey_sub (free : apiKeyPattern.Free u) {z : List Char}
    (head : z.head? = (a ++ v).head?) (enough : 8 ≤ (z.takeWhile isTokenChar).length) :
    apiKeyPattern.sub redactMark (u ++ z) =
      u ++ (redactMark ++ apiKeyPattern.sub redactMark (z.dropWhile isTokenChar)) := by
  have lead_read := readLead_ahead key.readLead head
  have found : apiKeyPattern.matchAt (lead ++ z) =
      some ⟨lead, z.takeWhile isTokenChar, z.dropWhile isTokenChar⟩ := by
    refine Pattern.matchAt_eq_some.mpr ⟨?_, fun x member => List.mem_takeWhile_imp member,
      foreign_dropWhile isTokenChar z, enough⟩
    rw [List.takeWhile_append_dropWhile]
    exact lead_read
  rw [key.split, List.append_assoc, Pattern.sub_passes (key.before_lead free z),
    Pattern.sub_of_match found]
  simp [Pattern.replaced, apiKeyPattern]

/-- A value without a token of the second kind is hidden up to its seam. -/
theorem redacted_of_free (clear : Clear u) (clear' : Clear v) (noToken : skPattern.Free a) :
    redactChars (u ++ (a ++ v)) = u ++ (redactMark ++ seam a v) := by
  have whole : (a ++ seam a v).takeWhile isTokenChar = a := by
    rw [takeWhile_foreign key.seam_ends, List.takeWhile_eq_self_iff.mpr key.chars]
  have left : (a ++ seam a v).dropWhile isTokenChar = seam a v := by
    rw [dropWhile_foreign key.seam_ends, List.dropWhile_eq_nil_iff.mpr key.chars, List.nil_append]
  have head : (a ++ seam a v).head? = (a ++ v).head? := by
    have long := key.long
    cases a with
    | nil => simp at long
    | cons x a => rfl
  rw [redactChars_eq, key.bearer_sub clear clear', key.sk_sub clear clear', Pattern.sub_free noToken,
    key.apiKey_sub clear.apiKey head (by rw [whole]; exact key.long), left,
    apiKey_sub_seam a clear'.apiKey]

/-- A value with a token is hidden up to the end of its first token only. -/
theorem redacted_of_token (clear : Clear u) (clear' : Clear v) {k : List Char × Match Char}
    (found : skPattern.search a = some k) :
    redactChars (u ++ (a ++ v)) = u ++ (redactMark ++ (redactMark ++
      apiKeyPattern.sub redactMark (skPattern.sub redactMark k.2.rest ++ seam a v))) := by
  obtain ⟨split, -, matched⟩ := Pattern.search_spec found
  have enough := Pattern.matchAt_body matched
  obtain ⟨shown, shape⟩ : ∃ shown, shown = k.1 ++ (k.2.lead ++ k.2.body) := ⟨_, rfl⟩
  have parts : a = shown ++ k.2.rest := by
    rw [split, shape]
    simp only [List.append_assoc]
  have chars : ∀ x ∈ shown, isTokenChar x = true :=
    fun x member => key.chars x (parts ▸ List.mem_append_left _ member)
  have long : 8 ≤ shown.length := by
    have ten : 10 ≤ k.2.body.length := enough
    rw [shape, List.length_append, List.length_append]
    omega
  have marked : skPattern.sub redactMark a ++ seam a v =
      shown ++ (redactMark ++ (skPattern.sub redactMark k.2.rest ++ seam a v)) := by
    rw [Pattern.sub_search _ found]
    simp [Pattern.replaced, skPattern, shape]
  have whole : (shown ++ (redactMark ++ (skPattern.sub redactMark k.2.rest ++ seam a v))).takeWhile
      isTokenChar = shown := by
    rw [takeWhile_foreign (foreign_mark _), List.takeWhile_eq_self_iff.mpr chars]
  have left : (shown ++ (redactMark ++ (skPattern.sub redactMark k.2.rest ++ seam a v))).dropWhile
      isTokenChar = redactMark ++ (skPattern.sub redactMark k.2.rest ++ seam a v) := by
    rw [dropWhile_foreign (foreign_mark _), List.dropWhile_eq_nil_iff.mpr chars, List.nil_append]
  have head : ∀ w, (shown ++ w).head? = (a ++ v).head? := by
    intro w
    rw [parts, List.append_assoc]
    cases shown with
    | nil => simp at long
    | cons x rest => rfl
  rw [redactChars_eq, key.bearer_sub clear clear', key.sk_sub clear clear', marked,
    key.apiKey_sub clear.apiKey (head _) (by rw [whole]; exact long), left,
    apiKey_sub_mark]

theorem not_exposes_of_star (star : v.head? = some '*') : ¬ Exposes a v := by
  intro exposes
  obtain ⟨x, y, rfl, space, -⟩ := seam_head key.noSpace key.bearerEnds exposes
  obtain rfl := Option.some.inj star
  exact absurd space (by decide)

/-- A value that is hidden up to its seam never looks like one that is cut. -/
theorem seam_ne_cut {b : List Char} {pre' lead' : List Char} (other : KeyValue u b v pre' lead')
    (clear' : Clear v) (s : List Char) :
    seam a v ≠ redactMark ++ apiKeyPattern.sub redactMark (s ++ seam b v) := by
  intro same
  have star : v.head? = some '*' := by
    rw [← seam_head? key.noSpace key.bearerEnds, same, redactMark_eq]
    rfl
  have quiet : seam a v = v := if_neg (key.not_exposes_of_star star)
  have quiet' : seam b v = v := if_neg (other.not_exposes_of_star star)
  cases v with
  | nil => simp at star
  | cons x v =>
      obtain rfl := Option.some.inj star
      rw [quiet, quiet', Pattern.sub_append_foreign (apiKey_leads_star v) (foreign_star v),
        Pattern.sub_free clear'.apiKey] at same
      have lengths := congrArg List.length same
      have mark : redactMark.length = 14 := by decide
      simp only [List.length_append, mark] at lengths
      omega

end KeyValue

end surroundings

end Noxis
