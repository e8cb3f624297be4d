import Noxis.RouterSpec
import Noxis.Gateway

/-! The hard filters of the router against what they are for: an alias is served by any of a
provider's models that is long enough, the context length counts the text of a request however
it is encoded, and a required capability excludes the providers without it. -/
namespace Noxis

namespace AppState

variable (s : AppState) (request : ChatCompletionRequest)

/-- The filters of the first loop that look neither at the request's text nor at its needs. -/
structure Admissible (name : String) : Prop where
  candidate : name ∈ candidateProvidersForModel s.registry request.model
  health : (s.provider name).health = .healthy ∨ (s.provider name).health = .unknown
  admitted : (s.rateLimiter.canServe s.now name (s.provider name).config.rateLimit).1 = true

/-- The model that the provider would serve passes the context-length filter. -/
def ContextFits (name : String) : Prop :=
  ∃ model, resolveModelForProvider (s.provider name) request.model = some model ∧
    contextExceeded (s.provider name) model (estimateTokens request) = false

theorem candidate_eligible_iff (name : String) :
    name ∈ candidateProvidersForModel s.registry request.model ∧ s.Eligible request name ↔
      s.Admissible request name ∧ s.ContextFits request name ∧
        capabilityScore (s.provider name) request ≠ none := by
  constructor
  · rintro ⟨candidate, health, -, admitted, fits, capable⟩
    exact ⟨⟨candidate, of_decide_eq_true health, admitted⟩, fits, capable⟩
  · rintro ⟨⟨candidate, health, admitted⟩, fits, capable⟩
    have enabled := candidateProvidersForModel_subset _ _ candidate
    exact ⟨candidate, decide_eq_true health, s.not_isAdminDisabled enabled, admitted, fits, capable⟩

/-- Some decision of `rank` is for this provider. -/
def Offered (name : String) : Prop :=
  ∃ ds, (s.rank request).1 = some ds ∧ name ∈ ds.map RoutingDecision.provider

theorem offered_iff (name : String) :
    s.Offered request name ↔ s.Admissible request name ∧ s.ContextFits request name ∧
      capabilityScore (s.provider name) request ≠ none := by
  obtain ⟨ds, ranked, -, listed, -⟩ := s.rank_spec request
  rw [← candidate_eligible_iff, ← listed name]
  constructor
  · rintro ⟨ds', ranked', member⟩
    obtain rfl := Option.some.inj (ranked'.symm.trans ranked)
    exact member
  · exact fun member => ⟨ds, ranked, member⟩

end AppState

/-! ### The model behind an alias -/

/-- The filter's own reading of a context length: zero means no limit. -/
def ModelSpec.Fits (m : ModelSpec) (estTokens : ℕ) : Prop :=
  m.contextLength = 0 ∨ (estTokens : ℤ) ≤ m.contextLength

/-- The model that comes first decides. A NaN is not equal to itself, so a model of that name is
not found again and its length not checked. -/
def Provider.FirstModelFits (p : Provider) (estTokens : ℕ) : Prop :=
  ∃ first rest, p.config.models = first :: rest ∧
    (first.Fits estTokens ∨
      first.name = .float .nan ∧ ∃ m ∈ rest, m.name = .float .nan ∧ m.Fits estTokens)

theorem Scalar.pyEq_self {v : Scalar} (number : v ≠ .float .nan) : v.pyEq v = true := by
  simp [pyEq, number]

theorem Scalar.pyEq_nan (v : Scalar) : v.pyEq (.float .nan) = false := by
  cases v with
  | float x => cases x <;> simp [pyEq, key]
  | none => simp [pyEq, key]
  | bool b => simp [pyEq, key]
  | int n => simp [pyEq, key]
  | str t => simp [pyEq, key]

namespace Provider

theorem modelSpec_nan (p : Provider) : p.modelSpec (.float .nan) = none := by
  rw [modelSpec, List.find?_eq_none]
  intro m _
  rw [Scalar.pyEq_nan]
  exact Bool.false_ne_true

variable {p : Provider} {first : ModelSpec} {rest : List ModelSpec}
  (models : p.config.models = first :: rest)
include models

theorem modelSpec_first (number : first.name ≠ .float .nan) :
    p.modelSpec first.name = some first := by
  rw [modelSpec, models, List.find?_cons, Scalar.pyEq_self number]

/-- The first model passes the filter if it fits, or if it cannot be found again. -/
theorem contextExceeded_first (estTokens : ℕ) :
    contextExceeded p first.name estTokens = false ↔
      first.name = .float .nan ∨ first.Fits estTokens := by
  rw [AppState.contextExceeded_eq_false]
  by_cases nan : first.name = .float .nan
  · simp [nan, modelSpec_nan]
  · simp [modelSpec_first models nan, nan, ModelSpec.Fits]

end Provider

namespace AppState

variable (s : AppState) (request : ChatCompletionRequest)

/-- The filters that look at the provider as a whole: all but the context length. -/
structure Ready (name : String) : Prop extends s.Admissible request name where
  streaming : request.stream = true → (s.provider name).config.supportsStreaming = true
  tools : request.tools.getD [] ≠ [] → (s.provider name).config.supportsTools = true

/-- `rank` offers this provider with one of its models that is long enough. -/
def OffersFittingModel (name : String) : Prop :=
  ∃ ds, (s.rank request).1 = some ds ∧ ∃ d ∈ ds, d.provider = name ∧
    ∃ m ∈ (s.provider name).config.models, m.name = d.model ∧ m.Fits (estimateTokens request)

variable {s request}

theorem Ready.offered_iff {name : String} (ready : s.Ready request name) :
    s.Offered request name ↔ s.ContextFits request name := by
  have capable := capabilityScore_ne_none.mpr ⟨ready.streaming, ready.tools⟩
  rw [AppState.offered_iff]
  exact ⟨fun h => h.2.1, fun fits => ⟨ready.toAdmissible, fits, capable⟩⟩

theorem contextFits_alias_iff (aliased : isAlias request.model = true) (name : String) :
    s.ContextFits request name ↔ ∃ first rest, (s.provider name).config.models = first :: rest ∧
      contextExceeded (s.provider name) first.name (estimateTokens request) = false := by
  unfold ContextFits resolveModelForProvider
  rw [if_pos aliased]
  cases models : (s.provider name).config.models with
  | nil => simp
  | cons first rest => simp

theorem offersFittingModel_iff (aliased : isAlias request.model = true) {name : String}
    (ready : s.Ready request name) :
    s.OffersFittingModel request name ↔
      (s.provider name).FirstModelFits (estimateTokens request) := by
  obtain ⟨ds, ranked, -, listed, resolved⟩ := s.rank_spec request
  constructor
  · rintro ⟨ds', ranked', d, member, rfl, m, configured, named, fits⟩
    obtain rfl := Option.some.inj (ranked'.symm.trans ranked)
    have kept : s.Offered request d.provider := ⟨ds', ranked, List.mem_map_of_mem member⟩
    obtain ⟨first, rest, models, passes⟩ :=
      (contextFits_alias_iff aliased d.provider).mp (ready.offered_iff.mp kept)
    refine ⟨first, rest, models, ?_⟩
    rcases (Provider.contextExceeded_first models _).mp passes with nan | fits'
    · have head := (resolveModelForProvider_eq_some.mp (resolved d member)).1 aliased
      rw [models] at head configured
      have same : first.name = d.model := Option.some.inj head
      rcases List.mem_cons.mp configured with rfl | later
      · exact .inl fits
      · exact .inr ⟨nan, m, later, named.trans (same.symm.trans nan), fits⟩
    · exact .inl fits'
  · rintro ⟨first, rest, models, long⟩
    have passes : contextExceeded (s.provider name) first.name (estimateTokens request) = false :=
      (Provider.contextExceeded_first models _).mpr (long.symm.imp_left fun h => h.1)
    obtain ⟨ds', ranked', member⟩ := ready.offered_iff.mpr
      ((contextFits_alias_iff aliased name).mpr ⟨first, rest, models, passes⟩)
    obtain rfl := Option.some.inj (ranked'.symm.trans ranked)
    obtain ⟨d, kept, rfl⟩ := List.mem_map.mp member
    refine ⟨ds', ranked, d, kept, rfl, ?_⟩
    have head := (resolveModelForProvider_eq_some.mp (resolved d kept)).1 aliased
    rw [models] at head ⊢
    have same : first.name = d.model := Option.some.inj head
    rcases long with fits | ⟨nan, m, later, named, fits⟩
    · exact ⟨first, List.mem_cons_self, same, fits⟩
    · exact ⟨m, List.mem_cons_of_mem _ later, (named.trans nan.symm).trans same, fits⟩

/-- An alias request gets a long enough model of a ready provider if and only if the first of
the provider's models is one. -/
theorem long_enough_model_offered_iff (aliased : isAlias request.model = true) {name : String}
    (ready : s.Ready request name) :
    ((∃ m ∈ (s.provider name).config.models, (estimateTokens request : ℤ) ≤ m.contextLength) →
        s.OffersFittingModel request name) ↔
      ((∃ m ∈ (s.provider name).config.models, (estimateTokens request : ℤ) ≤ m.contextLength) →
        (s.provider name).FirstModelFits (estimateTokens request)) := by
  rw [offersFittingModel_iff aliased ready]

end AppState

/-- Two providers with these models. -/
def Demo.serving (models : List ModelSpec) : AppState :=
  (Demo.gateway fun _ => { Demo.config [] 10 with models }).app

def Demo.longRequest : ChatCompletionRequest :=
  { Demo.request "noxis-auto" with maxTokens := some 100 }

theorem Demo.ready_of_candidate (models : List ModelSpec) :
    (Demo.serving models).Ready Demo.longRequest "a" where
  candidate := List.mem_cons_self
  health := .inr rfl
  admitted := rfl
  streaming := fun streamed => absurd streamed Bool.false_ne_true
  tools := fun needed => absurd rfl needed

namespace AppState

theorem long_enough_model_offered_iff_long_first :
    (Demo.serving [{ name := "long" }, { name := "short", contextLength := 50 }]).OffersFittingModel
      Demo.longRequest "a" := by
  refine (long_enough_model_offered_iff (by decide) (Demo.ready_of_candidate _)).mpr
    (fun _ => ⟨_, _, rfl, .inl (.inr (by decide))⟩) ⟨_, List.mem_cons_self, by decide⟩

/-- With the short model first the provider is left out, although its other model is long enough. -/
theorem long_enough_model_not_offered :
    (Demo.serving [{ name := "short", contextLength := 50 }, { name := "long" }]).Ready
        Demo.longRequest "a" ∧
      ¬ ((∃ m ∈ ((Demo.serving [{ name := "short", contextLength := 50 },
            { name := "long" }]).provider "a").config.models,
          (estimateTokens Demo.longRequest : ℤ) ≤ m.contextLength) →
        (Demo.serving [{ name := "short", contextLength := 50 },
          { name := "long" }]).OffersFittingModel Demo.longRequest "a") := by
  refine ⟨Demo.ready_of_candidate _, fun offered => ?_⟩
  obtain ⟨ds, ranked, d, member, -⟩ := offered
    ⟨{ name := "long" }, List.mem_cons_of_mem _ List.mem_cons_self, by decide⟩
  have nothing : ((Demo.serving [{ name := "short", contextLength := 50 },
      { name := "long" }]).rank Demo.longRequest).1 = some [] := by decide +kernel
  obtain rfl := Option.some.inj (ranked.symm.trans nothing)
  exact absurd member List.not_mem_nil

end AppState

/-! ### Required capabilities -/

/-- A content part of the form `{"type": "image_url", ...}`. -/
def isImagePart : Json → Bool
  | .obj members =>
      match Json.get members "type" .null with
      | .scalar (.str type) => decide (type = "image_url")
      | _ => false
  | _ => false

def ChatMessage.hasImagePart (m : ChatMessage) : Bool :=
  match m.content with
  | some (.parts items) => items.any isImagePart
  | _ => false

/-- The provider has every capability that the request needs. -/
structure Provider.Supports (p : Provider) (request : ChatCompletionRequest) : Prop where
  streaming : request.stream = true → p.config.supportsStreaming = true
  tools : request.tools.getD [] ≠ [] → p.config.supportsTools = true
  vision : (∃ m ∈ request.messages, m.hasImagePart = true) → p.config.supportsVision = true

namespace AppState

/-- Ranking drops the providers without a needed capability, and none for another one. -/
structure CapabilitiesEnforced (s : AppState) (request : ChatCompletionRequest) : Prop where
  required : ∀ ds, (s.rank request).1 = some ds → ∀ d ∈ ds,
    (s.provider d.provider).Supports request
  onlyRequired : ∀ name, s.Admissible request name → s.ContextFits request name →
    (s.provider name).Supports request → s.Offered request name

variable (s : AppState) (request : ChatCompletionRequest)

theorem offered_iff_ready (name : String) :
    s.Offered request name ↔ s.Ready request name ∧ s.ContextFits request name := by
  rw [offered_iff, capabilityScore_ne_none]
  constructor
  · rintro ⟨admissible, fits, streaming, tools⟩
    exact ⟨⟨admissible, streaming, tools⟩, fits⟩
  · rintro ⟨ready, fits⟩
    exact ⟨ready.toAdmissible, fits, ready.streaming, ready.tools⟩

/-- Ranking enforces the capabilities if and only if no message has an image part, or vision is
supported wherever the other filters let the request through. -/
theorem capabilities_enforced_iff :
    s.CapabilitiesEnforced request ↔
      ((∃ m ∈ request.messages, m.hasImagePart = true) →
        ∀ name, s.Ready request name → s.ContextFits request name →
          (s.provider name).config.supportsVision = true) := by
  constructor
  · intro enforced image name ready fits
    obtain ⟨ds, ranked, member⟩ := (s.offered_iff_ready request name).mpr ⟨ready, fits⟩
    obtain ⟨d, kept, rfl⟩ := List.mem_map.mp member
    exact (enforced.required ds ranked d kept).vision image
  · intro seen
    constructor
    · intro ds ranked d member
      obtain ⟨ready, fits⟩ := (s.offered_iff_ready request d.provider).mp
        ⟨ds, ranked, List.mem_map_of_mem member⟩
      exact ⟨ready.streaming, ready.tools, fun image => seen image _ ready fits⟩
    · intro name admissible fits supports
      exact (s.offered_iff_ready request name).mpr
        ⟨⟨admissible, supports.streaming, supports.tools⟩, fits⟩

end AppState

/-- A picture sent along in the second of two messages. -/
def Demo.imageRequest : ChatCompletionRequest :=
  { model := "m"
    messages := [{ role := .system, content := some (.text "Describe the picture.") },
      { role := .user, content := some (.parts [.obj [("type", .str "image_url"),
        ("image_url", .obj [("url", .str "https://example.org/picture.png")])]]) }]
    nonEmptyMessages := List.cons_ne_nil _ _ }

namespace AppState

/-- Providers without vision are ranked for it. -/
theorem vision_not_enforced : ¬ (Demo.serving [{ name := "m" }]).CapabilitiesEnforced
    Demo.imageRequest := by
  intro enforced
  have ranked : ∃ ds, ((Demo.serving [{ name := "m" }]).rank Demo.imageRequest).1 = some ds ∧
      ds ≠ [] := by decide +kernel
  obtain ⟨ds, ranked, some_left⟩ := ranked
  obtain ⟨d, member⟩ := List.exists_mem_of_ne_nil ds some_left
  have supports := enforced.required ds ranked d member
  have image : ∃ m ∈ Demo.imageRequest.messages, m.hasImagePart = true := by decide
  exact absurd (supports.vision image) Bool.false_ne_true

end AppState

/-! ### Texts and lists of parts -/

/-- `{"type": "text", "text": t}`. -/
def textPart (t : String) : Json := .obj [("type", .str "text"), ("text", .str t)]

/-- The same message, with a text written as a list of one part. -/
def ChatMessage.asParts (m : ChatMessage) : ChatMessage :=
  match m.content with
  | some (.text t) => { m with content := some (.parts [textPart t]) }
  | _ => m

namespace ChatCompletionRequest

variable (request : ChatCompletionRequest) (chosen : ℕ → Bool)

def withMessages (messages : List ChatMessage) (nonEmptyMessages : messages ≠ []) :
    ChatCompletionRequest := { request with messages, nonEmptyMessages }

/-- The messages at the chosen positions with their texts written as lists of parts. -/
def reencoded : ChatCompletionRequest :=
  request.withMessages (request.messages.mapIdx fun i m => if chosen i then m.asParts else m)
    (by rw [ne_eq, List.mapIdx_eq_nil_iff]; exact request.nonEmptyMessages)

/-- Characters of the texts that stay texts. -/
def keptChars : ℕ :=
  (request.messages.mapIdx fun i m => if chosen i then 0 else contentChars m).sum

/-- Characters of the texts that are written as parts. -/
def movedChars : ℕ :=
  (request.messages.mapIdx fun i m => if chosen i then contentChars m else 0).sum

/-- The request with one text part cut into several of the same total text. -/
def SplitOf (split : ChatCompletionRequest) : Prop :=
  ∃ (before after : List ChatMessage) (m : ChatMessage) (first last : List Json) (t : String)
    (pieces : List String), String.join pieces = t ∧
    request.messages =
      before ++ { m with content := some (.parts (first ++ textPart t :: last)) } :: after ∧
    ∃ nonEmpty, split = request.withMessages
      (before ++ { m with content := some (.parts (first ++ pieces.map textPart ++ last)) } :: after)
      nonEmpty

end ChatCompletionRequest

@[simp] theorem contentChars_asParts (m : ChatMessage) : contentChars m.asParts = 0 := by
  unfold ChatMessage.asParts
  split
  · rfl
  · next other =>
      unfold contentChars
      split
      · next t eq => exact absurd eq (other t)
      · rfl

theorem estimateTokens_eq_iff {r r' : ChatCompletionRequest} (maxTokens : r'.maxTokens = r.maxTokens)
    {chars chars' : ℕ} (eq : (r.messages.map contentChars).sum = chars)
    (eq' : (r'.messages.map contentChars).sum = chars') (le : chars' ≤ chars) :
    estimateTokens r' = estimateTokens r ↔ chars / 4 = chars' / 4 ∨ chars < 8 := by
  unfold estimateTokens
  rw [maxTokens, eq, eq']
  omega

namespace ChatCompletionRequest

variable (request : ChatCompletionRequest) (chosen : ℕ → Bool)

theorem chars_eq : (request.messages.map contentChars).sum =
    request.keptChars chosen + request.movedChars chosen := by
  rw [keptChars, movedChars, List.mapIdx_eq_zipIdx_map, List.mapIdx_eq_zipIdx_map,
    ← List.sum_map_add]
  nth_rewrite 1 [← List.zipIdx_map_fst 0 request.messages]
  rw [List.map_map]
  congr 2
  funext ⟨m, i⟩
  cases h : chosen i <;> simp [h]

theorem chars_reencoded : ((request.reencoded chosen).messages.map contentChars).sum =
    request.keptChars chosen := by
  change ((request.messages.mapIdx _).map contentChars).sum = _
  rw [keptChars, List.mapIdx_eq_zipIdx_map, List.mapIdx_eq_zipIdx_map, List.map_map]
  congr 2
  funext ⟨m, i⟩
  cases h : chosen i <;> simp [h]

theorem estimateTokens_reencoded_iff :
    estimateTokens (request.reencoded chosen) = estimateTokens request ↔
      (request.keptChars chosen + request.movedChars chosen) / 4 = request.keptChars chosen / 4 ∨
        request.keptChars chosen + request.movedChars chosen < 8 := by
  have maxTokens : (request.reencoded chosen).maxTokens = request.maxTokens := rfl
  exact estimateTokens_eq_iff maxTokens (request.chars_eq chosen) (request.chars_reencoded chosen)
    (Nat.le_add_right _ _)

variable {request}

theorem SplitOf.estimateTokens_eq {split : ChatCompletionRequest} (h : request.SplitOf split) :
    estimateTokens split = estimateTokens request := by
  obtain ⟨before, after, m, first, last, t, pieces, -, messages, nonEmpty, rfl⟩ := h
  unfold estimateTokens
  rw [messages]
  simp only [withMessages, List.map_append, List.map_cons, contentChars]

theorem SplitOf.exists_eq {split : ChatCompletionRequest} (h : request.SplitOf split) :
    ∃ messages nonEmpty, split = request.withMessages messages nonEmpty := by
  obtain ⟨-, -, -, -, -, -, -, -, -, nonEmpty, rfl⟩ := h
  exact ⟨_, nonEmpty, rfl⟩

end ChatCompletionRequest

namespace AppState

variable (s : AppState) (request : ChatCompletionRequest)

section messages
variable {request} {messages : List ChatMessage} {nonEmpty : messages ≠ []}
  (same : estimateTokens (request.withMessages messages nonEmpty) = estimateTokens request)
include same

/-- Ranking reads the messages through the token estimate only. -/
theorem eligible_withMessages (name : String) :
    s.Eligible (request.withMessages messages nonEmpty) name ↔ s.Eligible request name := by
  unfold Eligible
  rw [same]
  exact Iff.rfl

theorem rank_withMessages :
    (s.rank (request.withMessages messages nonEmpty)).1 = (s.rank request).1 := by
  classical
  have kept : ∀ name, decide (s.Eligible (request.withMessages messages nonEmpty) name) =
      decide (s.Eligible request name) :=
    fun name => decide_eq_decide.mpr (s.eligible_withMessages same name)
  rw [AppState.rank_eq, AppState.rank_eq]
  simp only [kept]
  rfl

end messages

/-- Writing texts as parts changes neither the estimate nor the ranking, and splitting a part
makes no provider eligible. -/
structure EncodingIndependent (chosen : ℕ → Bool) : Prop where
  estimate : estimateTokens (request.reencoded chosen) = estimateTokens request
  decisions : (s.rank (request.reencoded chosen)).1 = (s.rank request).1
  splits : ∀ split, request.SplitOf split → ∀ name, s.Eligible split name → s.Eligible request name

/-- The encoding does not matter if and only if the characters that move into parts do not
count: they complete no group of four, or the whole text is under two groups. -/
theorem encoding_independent_iff (chosen : ℕ → Bool) :
    s.EncodingIndependent request chosen ↔
      (request.keptChars chosen + request.movedChars chosen) / 4 = request.keptChars chosen / 4 ∨
        request.keptChars chosen + request.movedChars chosen < 8 := by
  rw [← request.estimateTokens_reencoded_iff chosen]
  constructor
  · exact fun independent => independent.estimate
  · intro same
    refine ⟨same, s.rank_withMessages same, fun split h name eligible => ?_⟩
    have estimate := h.estimateTokens_eq
    obtain ⟨messages, nonEmpty, rfl⟩ := h.exists_eq
    exact (s.eligible_withMessages estimate name).mp eligible

end AppState

def Demo.question : ChatCompletionRequest :=
  (Demo.request "m").withMessages [{ role := .user, content := some (.text "How are you?") }]
    (List.cons_ne_nil _ _)

/-- Written as a part, a text too long for every provider is ranked. -/
theorem AppState.encoding_matters :
    ¬ (Demo.serving [{ name := "m", contextLength := 2 }]).EncodingIndependent Demo.question
      fun _ => true := by
  intro independent
  have differ : ((Demo.serving [{ name := "m", contextLength := 2 }]).rank
      (Demo.question.reencoded fun _ => true)).1 ≠
        ((Demo.serving [{ name := "m", contextLength := 2 }]).rank Demo.question).1 := by
    decide +kernel
  exact differ independent.decisions

end Noxis
