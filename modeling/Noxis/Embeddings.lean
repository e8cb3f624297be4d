import Noxis.Cache
import Noxis.Errors
import Noxis.Gateway
import Noxis.Logging
import Noxis.OpenAICompatible

/-! The embeddings endpoint, cut at its await points, next to the gateway. It goes through
its own candidates and posts to them directly. -/
namespace Noxis

structure EmbeddingsRequest where
  model : String
  input : String ⊕ List String
  encodingFormat : Option String := none

def EmbeddingsRequest.modelDump (r : EmbeddingsRequest) : List (String × Json) :=
  Json.excludeNone [("model", .str r.model), ("input", stopDump r.input),
    ("encoding_format", .ofOption .str r.encodingFormat)]

/-- `base_url.rstrip("/")`. -/
def rstripSlashes (url : String) : String :=
  String.ofList ((url.toList.reverse.dropWhile (· = '/')).reverse)

/-- One request sent upstream, without its headers. -/
structure EmbeddingsPost where
  url : String
  body : List (String × Json)

/-- The texts of the exceptions that end up in `last_error`. -/
structure EmbeddingsLibraries extends Libraries where
  textError : HttpAnswer → String
  jsonError : HttpAnswer → String
  noSetdefault : Json → String

/-- The body of the loop behind its await: the answer, or the text of the error. -/
def embeddingsAnswer (lib : EmbeddingsLibraries) (embdId name : String) :
    Except String HttpAnswer → Except String Json
  | .error text => .error text
  | .ok answer =>
      if 400 ≤ answer.status then match answer.text with
        | none => .error (lib.textError answer)
        | some text => .error (firstChars 300 text)
      else match answer.json lib.toLibraries with
        | .ok (.obj members) =>
            let members := if (Json.member? members "id").isSome then members
              else members ++ [("id", .str embdId)]
            .ok (.obj (Json.setMember members "noxis_provider" (.str name)))
        | .ok value => .error (lib.noSetdefault value)
        | .error _ => .error (lib.jsonError answer)

/-- The enabled providers that declare the model, by priority; Python's sort is stable. -/
def embeddingsCandidates (r : ProviderRegistry) (model : String) : List String :=
  (r.enabled.filter fun name => (r.provider name).supportsModel (.str model)).insertionSort
    fun a b => (r.provider a).config.priority ≤ (r.provider b).config.priority

/-- A request waits for the answer of one provider, or is over. -/
inductive EmbeddingsState where
  | posting (request : EmbeddingsRequest) (tried : ℕ) (provider : String) (rest : List String)
  | finished (answer : Except NoxisError Json)
  | cancelled

/-- The gateway with the embeddings requests beside it. -/
structure Traffic where
  gateway : Gateway
  embeddings : List EmbeddingsState := []

inductive TrafficAction where
  | gateway (act : Action)
  | beginEmbeddings (request : EmbeddingsRequest)
  | answered (i : ℕ) (embdId : String) (answer : Except String HttpAnswer)
  | cancel (i : ℕ)

/-- An event of the gateway, a request posted, and an answer to one. A request carries the
number of providers tried before. -/
inductive TrafficEvent where
  | gateway (event : Event)
  | posted (time : ℚ) (tried : ℕ) (provider : String) (post : EmbeddingsPost)
  | answered (time : ℚ) (provider : String) (answer : Except String HttpAnswer)

namespace Traffic

/-- The head of the `for` loop, with `last_error`. -/
def nextPost (s : AppState) (request : EmbeddingsRequest) (tried : ℕ) (lastError : String) :
    List String → EmbeddingsState × List TrafficEvent
  | [] => (.finished (.error (serviceUnavailableError
      ("All providers failed for embeddings. Last error: " ++ lastError))), [])
  | name :: rest =>
      (.posting request tried name rest,
        [.posted s.now tried name
          { url := rstripSlashes (s.provider name).config.baseUrl ++ "/embeddings"
            body := request.modelDump }])

variable (sch : Scheduler) (lib : EmbeddingsLibraries)

def step (t : Traffic) : TrafficAction → Option (Traffic × List TrafficEvent)
  | .gateway act =>
      (Gateway.step sch t.gateway act).map fun (gateway, events) =>
        ({ t with gateway }, events.map .gateway)
  | .beginEmbeddings request =>
      let candidates := embeddingsCandidates t.gateway.app.registry request.model
      if candidates.isEmpty then
        some ({ t with embeddings := t.embeddings ++ [.finished (.error (serviceUnavailableError
          ("No enabled provider supports embedding model '" ++ request.model ++ "'.")))] }, [])
      else
        let (st, events) := nextPost t.gateway.app request 0 "None" candidates
        some ({ t with embeddings := t.embeddings ++ [st] }, events)
  | .answered i embdId answer =>
      match t.embeddings[i]? with
      | some (.posting request tried name rest) =>
          let received := TrafficEvent.answered t.gateway.app.now name answer
          match embeddingsAnswer lib embdId name answer with
          | .ok data =>
              some ({ t with embeddings := t.embeddings.set i (.finished (.ok data)) }, [received])
          | .error text =>
              let (st, events) := nextPost t.gateway.app request (tried + 1) text rest
              some ({ t with embeddings := t.embeddings.set i st }, received :: events)
      | _ => none
  | .cancel i =>
      match t.embeddings[i]? with
      | some (.posting _ _ _ _) => some ({ t with embeddings := t.embeddings.set i .cancelled }, [])
      | _ => none

/-- The provider that a step of an embeddings request posts to, where it does. -/
def postsTo (t : Traffic) : TrafficAction → Option String
  | .beginEmbeddings request => (embeddingsCandidates t.gateway.app.registry request.model).head?
  | .answered i embdId answer =>
      match t.embeddings[i]? with
      | some (.posting _ _ name rest) =>
          match embeddingsAnswer lib embdId name answer with
          | .ok _ => none
          | .error _ => rest.head?
      | _ => none
  | _ => none

/-- Everything a step can do. -/
inductive Moves (t : Traffic) : TrafficAction → Traffic → List TrafficEvent → Prop
  | gateway {act : Action} {gateway : Gateway} {events : List Event}
      (moved : Gateway.step sch t.gateway act = some (gateway, events)) :
      Moves t (.gateway act) { t with gateway } (events.map .gateway)
  | refused {request : EmbeddingsRequest} {a : Except NoxisError Json}
      (nobody : embeddingsCandidates t.gateway.app.registry request.model = []) :
      Moves t (.beginEmbeddings request)
        { t with embeddings := t.embeddings ++ [.finished a] } []
  | post {request : EmbeddingsRequest} {name : String} {rest : List String} {post : EmbeddingsPost}
      (found : embeddingsCandidates t.gateway.app.registry request.model = name :: rest) :
      Moves t (.beginEmbeddings request)
        { t with embeddings := t.embeddings ++ [.posting request 0 name rest] }
        [.posted t.gateway.app.now 0 name post]
  | ends {i : ℕ} {embdId : String} {answer : Except String HttpAnswer} {request : EmbeddingsRequest}
      {tried : ℕ} {name : String} {rest : List String} {a : Except NoxisError Json}
      (found : t.embeddings[i]? = some (.posting request tried name rest))
      (stops : (∃ data, embeddingsAnswer lib embdId name answer = .ok data) ∨ rest = []) :
      Moves t (.answered i embdId answer)
        { t with embeddings := t.embeddings.set i (.finished a) }
        [.answered t.gateway.app.now name answer]
  | next {i : ℕ} {embdId : String} {answer : Except String HttpAnswer} {request : EmbeddingsRequest}
      {tried : ℕ} {name next : String} {rest : List String} {post : EmbeddingsPost} {text : String}
      (found : t.embeddings[i]? = some (.posting request tried name (next :: rest)))
      (failed : embeddingsAnswer lib embdId name answer = .error text) :
      Moves t (.answered i embdId answer)
        { t with embeddings := t.embeddings.set i (.posting request (tried + 1) next rest) }
        [.answered t.gateway.app.now name answer, .posted t.gateway.app.now (tried + 1) next post]
  | cancel {i : ℕ} {request : EmbeddingsRequest} {tried : ℕ} {name : String} {rest : List String}
      (found : t.embeddings[i]? = some (.posting request tried name rest)) :
      Moves t (.cancel i) { t with embeddings := t.embeddings.set i .cancelled } []

theorem step_moves {t t' : Traffic} {act : TrafficAction} {events : List TrafficEvent}
    (moved : step sch lib t act = some (t', events)) : Moves sch lib t act t' events := by
  cases act with
  | gateway act =>
      simp only [step, Option.map_eq_some_iff] at moved
      obtain ⟨⟨gateway, evs⟩, inner, eq⟩ := moved
      obtain ⟨rfl, rfl⟩ := Prod.mk.inj eq
      exact .gateway inner
  | beginEmbeddings request =>
      cases found : embeddingsCandidates t.gateway.app.registry request.model with
      | nil =>
          simp only [step, found, List.isEmpty_nil, if_true, Option.some.injEq, Prod.mk.injEq] at moved
          obtain ⟨rfl, rfl⟩ := moved
          exact .refused found
      | cons name rest =>
          simp only [step, found, List.isEmpty_cons, Bool.false_eq_true, if_false, nextPost,
            Option.some.injEq, Prod.mk.injEq] at moved
          obtain ⟨rfl, rfl⟩ := moved
          exact .post found
  | answered i embdId answer =>
      simp only [step] at moved
      split at moved
      · next request tried name rest found =>
        cases read : embeddingsAnswer lib embdId name answer with
        | ok data =>
            simp only [read, Option.some.injEq, Prod.mk.injEq] at moved
            obtain ⟨rfl, rfl⟩ := moved
            exact .ends found (.inl ⟨data, read⟩)
        | error text =>
            cases rest with
            | nil =>
                simp only [read, nextPost, Option.some.injEq, Prod.mk.injEq] at moved
                obtain ⟨rfl, rfl⟩ := moved
                exact .ends found (.inr rfl)
            | cons next rest =>
                simp only [read, nextPost, Option.some.injEq, Prod.mk.injEq] at moved
                obtain ⟨rfl, rfl⟩ := moved
                exact .next found read
      · cases moved
  | cancel i =>
      simp only [step] at moved
      split at moved
      · next request tried name rest found =>
        obtain ⟨rfl, rfl⟩ := Prod.mk.inj (Option.some.inj moved)
        exact .cancel found
      · cases moved

end Traffic

abbrev TrafficTransition := LabelledRun.Transition Traffic TrafficAction TrafficEvent

abbrev TrafficRun (sch : Scheduler) (lib : EmbeddingsLibraries) :
    Traffic → List TrafficTransition → Traffic → Prop :=
  LabelledRun.Run (Traffic.step sch lib)

end Noxis
