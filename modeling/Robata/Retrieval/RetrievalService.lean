import Robata.Retrieval.IndexQuery

/-!
# The retrieval service

`RetrievalService.query_events` and `semantic_search`: a structured query, an authorizer for tenants,
and a vector store that may put the structured candidates in another order.  The candidates of a
tenant and of a vector search are a pool of at most 1000 rows.
-/

namespace Robata.Retrieval

open Contracts Lib

/-- What a call of the service raises. -/
inductive RetrievalFailure
  | capability (text : String)
  | index (failure : IndexFailure)

/-- A vector query, whose candidates are sorted and unique. -/
structure VectorSearchQuery where
  embeddingId : String
  tenantId : Option String
  queryVector : List Rat
  candidateEventRevisionIds : List String
  limit : Nat

structure VectorSearchHit where
  (projectionId eventRevisionId : String)
  artifactId : Option String
  embeddingId : String
  score : Rat
  rank : Nat
  scoreBounds : -1 ≤ score ∧ score ≤ 1
  deriving DecidableEq

/-- What a search of a vector store comes to: it raises, returns something that is not a tuple of
hits, or returns hits. -/
inductive VectorOutcome
  | failed
  | malformed
  | hits (found : List VectorSearchHit)

structure RetrievalService where
  index : EventIndex
  services : IndexServices
  structuredResultAuthorizer : Option (RetrievalResultItem → String → Bool)
  vectorStore : Option (VectorSearchQuery → VectorOutcome)
  semanticReranker : Option (RetrievalResult → List (Option Rat) → Option RetrievalResult)

/-- The size of the candidate pool. -/
def poolLimit : Nat := 1000

def pageResult (result : RetrievalResult) (query : RetrievalQuery) : RetrievalResult :=
  let items := (result.items.drop query.offset).take query.limit
  { items := items
    total := result.total
    hasMore := decide (query.offset + items.length < result.total) }

/-- `query.model_copy(update={"offset": 0, "limit": 1000})`. -/
def candidateQuery (query : RetrievalQuery) : RetrievalQuery :=
  { query with
    limit := poolLimit
    offset := 0
    limitPos := by decide
    limitLe := by decide }

def fromIndex {α : Type} : Except IndexFailure α → Except RetrievalFailure α
  | .ok a => .ok a
  | .error e => .error (.index e)

variable (service : RetrievalService)

def authorizeStructuredResult (result : RetrievalResult) (tenantId : Option String) :
    Except RetrievalFailure RetrievalResult :=
  match service.structuredResultAuthorizer, tenantId with
  | none, none => .ok result
  | none, some _ =>
    .error (.capability "tenant-scoped retrieval requires a structured_result_authorizer")
  | some _, none => .error (.capability
      "tenant_id is required when structured tenant authorization is configured")
  | some authorizer, some tenant =>
    let authorized := result.items.filter fun item => authorizer item tenant
    .ok { items := authorized, total := authorized.length, hasMore := false }

def queryEvents (query : RetrievalQuery) (tenantId : Option String) :
    Except RetrievalFailure RetrievalResult :=
  if service.structuredResultAuthorizer.isNone && tenantId.isNone then
    fromIndex (queryIndex service.services query service.index)
  else if poolLimit < query.offset + query.limit then
    .error (.capability "tenant-authorized structured queries are bounded to 1000 candidates")
  else do
    let result ← fromIndex (queryIndex service.services (candidateQuery query) service.index)
    let authorized ← authorizeStructuredResult service result tenantId
    return pageResult authorized query

/-! ## Vector search -/

/-- `sorted({item.event_revision_id for item in items})`. -/
def candidateIds (items : List RetrievalResultItem) : List String :=
  canonical (fun id => id) (items.map (·.eventRevisionId))

/-- A string that a vector query takes. -/
def vectorText (text : String) : Bool := decide (1 ≤ text.length ∧ text.length ≤ 4096)

/-- The constructor of a vector query; the numbers of a vector have to be finite. -/
def vectorSearchQuery? (embeddingId : String) (embeddingVector : List (Option Rat))
    (tenantId : Option String) (items : List RetrievalResultItem) : Option VectorSearchQuery := do
  let queryVector ← embeddingVector.mapM id
  if queryVector ≠ [] ∧ vectorText embeddingId ∧ tenantId.all vectorText ∧
      (candidateIds items).all vectorText ∧ max items.length 1 ≤ poolLimit then
    some ⟨embeddingId, tenantId, queryVector, candidateIds items, max items.length 1⟩
  else none

/-- The hits of a search, if it ends with hits that can be trusted. -/
def trustedHits (embeddingId : String) (items : List RetrievalResultItem) :
    VectorOutcome → Option (List VectorSearchHit)
  | .failed => none
  | .malformed => none
  | .hits found =>
    if ∀ hit ∈ found, hit.embeddingId = embeddingId ∧ hit.eventRevisionId ∈ candidateIds items then
      some found
    else none

/-- A round of the loop that collapses the hits of a revision. -/
def raiseScore (scores : String → Option Rat) (hit : VectorSearchHit) : String → Option Rat :=
  let prior := scores hit.eventRevisionId
  if prior.all fun score => decide (score < hit.score) then
    Function.update scores hit.eventRevisionId (some hit.score)
  else scores

def scoreByRevision (found : List VectorSearchHit) : String → Option Rat :=
  found.foldl raiseScore fun _ => none

/-- The items with their positions and the scores of their revisions. -/
def scoredItems (found : List VectorSearchHit) (items : List RetrievalResultItem) :
    List (RetrievalResultItem × Nat) :=
  (items.map fun item =>
    { item with semanticScore := scoreByRevision found item.eventRevisionId }).zipIdx

/-- The key of the ranking: the score, where an item without one counts as `-1.0`, then the
position. -/
def rankKey (ranked : RetrievalResultItem × Nat) : Rat ×ₗ Nat :=
  toLex (-(ranked.1.semanticScore.getD (-1)), ranked.2)

/-- The items in the order of their scores. -/
def rankItems (found : List VectorSearchHit) (items : List RetrievalResultItem) :
    List RetrievalResultItem :=
  (sortedBy rankKey (scoredItems found items)).map Prod.fst

/-- The candidates in the order that the vector store gives them; the structured order if its answer
cannot be used. -/
def rerankByVectors (store : VectorSearchQuery → VectorOutcome) (embeddingId : String)
    (embeddingVector : List (Option Rat)) (tenantId : Option String) (result : RetrievalResult) :
    RetrievalResult :=
  let found := (vectorSearchQuery? embeddingId embeddingVector tenantId result.items).bind fun query =>
    trustedHits embeddingId result.items (store query)
  match found with
  | none => result
  | some hits => { result with items := rankItems hits result.items }

def semanticSearch (query : RetrievalQuery) (embeddingVector : Option (List (Option Rat)))
    (tenantId : Option String) : Except RetrievalFailure RetrievalResult :=
  match embeddingVector with
  | none => queryEvents service query tenantId
  | some vector => do
      let result ← queryEvents service (candidateQuery query) tenantId
      match service.vectorStore with
      | some store =>
        if result.items = [] then return pageResult result query
        else
          match query.embeddingId with
          | none =>
            .error (.capability "vector search requires RetrievalQuery.embedding_id")
          | some embeddingId =>
            return pageResult (rerankByVectors store embeddingId vector tenantId result) query
      | none =>
        match service.semanticReranker with
        | none => .error (.capability
            "embedding reranking is unavailable without a configured semantic_reranker")
        | some reranker =>
          match reranker result vector with
          | none => .error (.capability "semantic_reranker returned an invalid result")
          | some reranked => return pageResult reranked query

end Robata.Retrieval
