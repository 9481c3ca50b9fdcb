import Mathlib.Algebra.Order.Ring.Rat
import Robata.Retrieval.RetrievalService

/-!
# Paging through retrieval

A caller who pages through `query_events` or through `semantic_search` sees every authorized result
once and stops, as long as the pool of candidates holds all of them.
-/

namespace Robata.Retrieval

open Contracts Lib List

def RetrievalRequest.page (request : RetrievalRequest) {limit : Nat} (hpos : 1 ≤ limit)
    (hle : limit ≤ 1000) (offset : Nat) : RetrievalQuery :=
  { request with
    limit := limit
    offset := offset
    limitPos := hpos
    limitLe := hle }

/-- The results that the authorizer allows; all of them if there is none. -/
def authorizedItems (service : RetrievalService) (tenantId : Option String)
    (items : List RetrievalResultItem) : List RetrievalResultItem :=
  match service.structuredResultAuthorizer, tenantId with
  | some authorizer, some tenant => items.filter fun item => authorizer item tenant
  | _, _ => items

theorem authorizedItems_sublist (service : RetrievalService) (tenantId : Option String)
    (items : List RetrievalResultItem) :
    List.Sublist (authorizedItems service tenantId items) items := by
  unfold authorizedItems
  split
  · exact filter_sublist
  · exact List.Sublist.refl _

/-- The pool holds every authorized result. -/
def PoolHolds (service : RetrievalService) (tenantId : Option String)
    (matching : List RetrievalResultItem) : Prop :=
  authorizedItems service tenantId (matching.take poolLimit) =
    authorizedItems service tenantId matching

/-- Every page that is asked for ends inside the pool. -/
def PagesFit (limit count : Nat) : Prop :=
  ∀ k, k * limit < count → (k + 1) * limit ≤ poolLimit

/-- A tenant comes with an authorizer, and an authorizer with a tenant. -/
def Scoped (service : RetrievalService) (tenantId : Option String) : Prop :=
  service.structuredResultAuthorizer.isSome = tenantId.isSome

variable {service : RetrievalService} {tenantId : Option String} {request : RetrievalRequest}
  {matching : List RetrievalResultItem}

/-! ## Structured queries -/

theorem Scoped.unscoped (h : Scoped service tenantId)
    (hauthorizer : ¬ service.structuredResultAuthorizer.isSome = true) :
    service.structuredResultAuthorizer = none ∧ tenantId = none ∧
      ∀ items, authorizedItems service tenantId items = items := by
  have hnone := Option.not_isSome_iff_eq_none.mp hauthorizer
  refine ⟨hnone, ?_, fun items => ?_⟩
  · rw [← Option.not_isSome_iff_eq_none, ← h]
    exact hauthorizer
  · unfold authorizedItems
    rw [hnone]

theorem pageResult_eq {result : RetrievalResult} (htotal : result.total = result.items.length)
    (query : RetrievalQuery) :
    pageResult result query = Page.of result.items query.offset query.limit := by
  unfold pageResult Page.of
  rw [htotal]

section Queries

variable (hmatching : matchingItems service.services request service.index = .ok matching)
  (query : RetrievalQuery) (hquery : query.toRetrievalRequest = request)
include hmatching hquery

theorem queryIndex_page : queryIndex service.services query service.index =
    .ok (Page.of matching query.offset query.limit) := by
  unfold queryIndex
  rw [hquery, hmatching]
  rfl

theorem queryEvents_unscoped (hauthorizer : service.structuredResultAuthorizer = none)
    (htenant : tenantId = none) :
    queryEvents service query tenantId = .ok (Page.of matching query.offset query.limit) := by
  unfold queryEvents
  rw [hauthorizer, htenant, queryIndex_page hmatching query hquery]
  rfl

variable (hscoped : Scoped service tenantId)
include hscoped

theorem queryEvents_scoped (hauthorizer : service.structuredResultAuthorizer.isSome = true)
    (hfits : query.offset + query.limit ≤ poolLimit) :
    queryEvents service query tenantId =
      .ok (Page.of (authorizedItems service tenantId (matching.take poolLimit)) query.offset
        query.limit) := by
  obtain ⟨authorizer, hauthorizer'⟩ := Option.isSome_iff_exists.mp hauthorizer
  obtain ⟨tenant, rfl⟩ := Option.isSome_iff_exists.mp (hscoped.symm.trans hauthorizer)
  have hcandidates := queryIndex_page hmatching (candidateQuery query) hquery
  unfold queryEvents
  rw [hcandidates, if_neg (by simp), if_neg (by omega)]
  unfold authorizeStructuredResult authorizedItems
  rw [hauthorizer']
  rfl

theorem queryEvents_candidates (hpool : PoolHolds service tenantId matching) :
    ∃ result, queryEvents service (candidateQuery query) tenantId = .ok result ∧
      result.items = authorizedItems service tenantId matching ∧
      result.total = result.items.length := by
  by_cases hauthorizer : service.structuredResultAuthorizer.isSome = true
  · have hlength : (authorizedItems service tenantId (matching.take poolLimit)).length ≤ poolLimit :=
      ((authorizedItems_sublist _ _ _).length_le).trans (length_take_le _ _)
    have hall : ((authorizedItems service tenantId (matching.take poolLimit)).drop 0).take
        poolLimit = authorizedItems service tenantId (matching.take poolLimit) := by
      rw [drop_zero, take_of_length_le hlength]
    exact ⟨_, queryEvents_scoped hmatching (candidateQuery query) hquery hscoped hauthorizer
      (by simp [candidateQuery]), hall.trans hpool, (congrArg length hall).symm⟩
  · obtain ⟨hnone, htenant, hall⟩ := hscoped.unscoped hauthorizer
    have htake : matching.take poolLimit = matching := by
      have h := hpool
      unfold PoolHolds at h
      rwa [hall, hall] at h
    refine ⟨_, queryEvents_unscoped hmatching (candidateQuery query) hquery hnone htenant, ?_, ?_⟩
    · show (matching.drop 0).take poolLimit = _
      rw [drop_zero, htake, hall]
    · show matching.length = ((matching.drop 0).take poolLimit).length
      rw [drop_zero, htake]

end Queries

/-! ## Scores -/

def hitScores (found : List VectorSearchHit) (revisionId : String) : List Rat :=
  (found.filter fun hit => decide (hit.eventRevisionId = revisionId)).map (·.score)

theorem scoreByRevision_eq (found : List VectorSearchHit) (revisionId : String) :
    scoreByRevision found revisionId = (hitScores found revisionId).max? := by
  -- after any first hits, the scores are the best of those hits
  have hfold : ∀ (rest seen : List VectorSearchHit) (scores : String → Option Rat),
      (∀ id, scores id = (hitScores seen id).max?) →
        rest.foldl raiseScore scores revisionId = (hitScores (seen ++ rest) revisionId).max? := by
    intro rest
    induction rest with
    | nil =>
      intro seen scores h
      rw [append_nil]
      exact h revisionId
    | cons hit rest ih =>
      intro seen scores h
      have happend : seen ++ hit :: rest = (seen ++ [hit]) ++ rest := by simp
      rw [happend]
      apply ih
      intro id
      have hsplit : hitScores (seen ++ [hit]) id =
          hitScores seen id ++ if hit.eventRevisionId = id then [hit.score] else [] := by
        unfold hitScores
        by_cases heq : hit.eventRevisionId = id <;> simp [heq]
      rw [hsplit]
      unfold raiseScore
      by_cases heq : hit.eventRevisionId = id
      · subst heq
        rw [if_pos rfl, h]
        cases hmax : (hitScores seen hit.eventRevisionId).max? with
        | none =>
          rw [max?_eq_none_iff.mp hmax]
          simp
        | some best =>
          obtain ⟨hmem, hbest⟩ := max?_eq_some_iff.mp hmax
          by_cases hless : best < hit.score
          · rw [if_pos (by simpa using hless), Function.update_self, eq_comm, max?_eq_some_iff]
            exact ⟨by simp, forall_mem_append.mpr
              ⟨fun b hb => (hbest b hb).trans (le_of_lt hless), forall_mem_singleton.mpr le_rfl⟩⟩
          · rw [if_neg (by simpa using hless), h, hmax, eq_comm, max?_eq_some_iff]
            exact ⟨mem_append_left _ hmem,
              forall_mem_append.mpr ⟨hbest, forall_mem_singleton.mpr (le_of_not_gt hless)⟩⟩
      · rw [if_neg heq, append_nil, ← h id]
        split
        · exact Function.update_of_ne (Ne.symm heq) _ _
        · rfl
  have h := hfold found [] (fun _ => none) fun _ => rfl
  rwa [nil_append] at h

/-- An item with the best score of its hits. -/
def scored (found : List VectorSearchHit) (item : RetrievalResultItem) : RetrievalResultItem :=
  { item with semanticScore := (hitScores found item.eventRevisionId).max? }

/-- The score that an item is ranked by: `-1` without a hit. -/
def rankScore (item : RetrievalResultItem) : Rat := item.semanticScore.getD (-1)

/-- Items in the order of their scores, the highest first and ties in their first order. -/
def Ranked (first items : List RetrievalResultItem) : Prop :=
  ∃ ranked : List (RetrievalResultItem × Nat), items = ranked.map Prod.fst ∧
    ranked.Perm first.zipIdx ∧ ranked.Pairwise fun a b =>
      rankScore b.1 < rankScore a.1 ∨ (rankScore a.1 = rankScore b.1 ∧ a.2 < b.2)

theorem rankItems_ranked (found : List VectorSearchHit) (items : List RetrievalResultItem) :
    Ranked (items.map (scored found)) (rankItems found items) := by
  have hscored : scoredItems found items = (items.map (scored found)).zipIdx := by
    unfold scoredItems scored
    simp only [scoreByRevision_eq]
  refine ⟨sortedBy rankKey (scoredItems found items), rfl, ?_, ?_⟩
  · rw [← hscored]
    exact sortedBy_perm _ _
  · have hnodup : ((scoredItems found items).map rankKey).Nodup := by
      apply List.Nodup.of_map fun key => (ofLex key).2
      rw [map_map, hscored]
      show ((items.map (scored found)).zipIdx.map Prod.snd).Nodup
      rw [zipIdx_map_snd]
      exact nodup_range'
    refine (sortedBy_strict hnodup).imp ?_
    intro a b hab
    unfold rankKey at hab
    rw [Prod.Lex.toLex_lt_toLex] at hab
    rcases hab with hlt | ⟨heq, hpos⟩
    · exact .inl (neg_lt_neg_iff.mp hlt)
    · exact .inr ⟨neg_inj.mp heq, hpos⟩

/-! ## Vector search -/

/-- The hits that the ranking uses, if the answer of the store can be used. -/
def usedHits (store : VectorSearchQuery → VectorOutcome) (embeddingId : String)
    (vector : List (Option Rat)) (tenantId : Option String) (items : List RetrievalResultItem) :
    Option (List VectorSearchHit) :=
  (vectorSearchQuery? embeddingId vector tenantId items).bind fun query =>
    trustedHits embeddingId items (store query)

/-- The results of a vector search are those of the structured search, ranked by usable hits. -/
def Reranked (items : List RetrievalResultItem) :
    Option (List VectorSearchHit) → List RetrievalResultItem → Prop
  | none, results => results = items
  | some found, results => Ranked (items.map (scored found)) results

/-- The items of a vector search. -/
def rerankedItems (found : Option (List VectorSearchHit)) (items : List RetrievalResultItem) :
    List RetrievalResultItem :=
  found.elim items fun hits => rankItems hits items

theorem rerankedItems_spec (found : Option (List VectorSearchHit))
    (items : List RetrievalResultItem) :
    Reranked items found (rerankedItems found items) ∧
      (rerankedItems found items).length = items.length := by
  cases found with
  | none => exact ⟨rfl, rfl⟩
  | some hits =>
    refine ⟨rankItems_ranked hits items, ?_⟩
    show (rankItems hits items).length = _
    unfold rankItems scoredItems
    rw [length_map, (sortedBy_perm _ _).length_eq, length_zipIdx, length_map]

theorem rerankByVectors_spec (store : VectorSearchQuery → VectorOutcome) (embeddingId : String)
    (vector : List (Option Rat)) (tenantId : Option String) (result : RetrievalResult) :
    (rerankByVectors store embeddingId vector tenantId result).items =
        rerankedItems (usedHits store embeddingId vector tenantId result.items) result.items ∧
      (rerankByVectors store embeddingId vector tenantId result).total = result.total := by
  unfold rerankByVectors usedHits
  cases (vectorSearchQuery? embeddingId vector tenantId result.items).bind fun query =>
      trustedHits embeddingId result.items (store query) with
  | none | some found => exact ⟨rfl, rfl⟩

/-- A vector search is a page of one list, which does not depend on the page. -/
theorem semanticSearch_page (hscoped : Scoped service tenantId)
    (hmatching : matchingItems service.services request service.index = .ok matching)
    (hpool : PoolHolds service tenantId matching) {store : VectorSearchQuery → VectorOutcome}
    (hstore : service.vectorStore = some store) {embeddingId : String}
    (hembedding : request.embeddingId = some embeddingId) (vector : List (Option Rat))
    (query : RetrievalQuery) (hquery : query.toRetrievalRequest = request) :
    semanticSearch service query (some vector) tenantId =
      .ok (Page.of (rerankedItems (usedHits store embeddingId vector tenantId
        (authorizedItems service tenantId matching)) (authorizedItems service tenantId matching))
          query.offset query.limit) := by
  obtain ⟨result, hresult, hitems, htotal⟩ :=
    queryEvents_candidates hmatching query hquery hscoped hpool
  have hid : query.embeddingId = some embeddingId := by
    rw [← hembedding, ← hquery]
  obtain ⟨hreranked, hrerankedTotal⟩ :=
    rerankByVectors_spec store embeddingId vector tenantId result
  rw [← hitems]
  unfold semanticSearch
  dsimp only
  rw [hresult, ok_bind, hstore]
  dsimp only
  by_cases hempty : result.items = []
  · have hnone : rerankedItems (usedHits store embeddingId vector tenantId result.items)
        result.items = [] := by
      rw [← length_eq_zero_iff, (rerankedItems_spec _ _).2, hempty, length_nil]
    rw [if_pos hempty, hnone, ← hempty]
    show Except.ok (pageResult result query) = _
    rw [pageResult_eq htotal]
  · rw [if_neg hempty, hid]
    show Except.ok (pageResult _ query) = _
    rw [pageResult_eq, hreranked]
    rw [hreranked, hrerankedTotal, (rerankedItems_spec _ _).2, htotal]

/-- Without an embedding a vector search has only an empty answer. -/
theorem semanticSearch_unembedded (hscoped : Scoped service tenantId)
    (hmatching : matchingItems service.services request service.index = .ok matching)
    (hpool : PoolHolds service tenantId matching) {store : VectorSearchQuery → VectorOutcome}
    (hstore : service.vectorStore = some store) (hembedding : request.embeddingId = none)
    (vector : List (Option Rat)) (query : RetrievalQuery)
    (hquery : query.toRetrievalRequest = request) :
    semanticSearch service query (some vector) tenantId =
      if authorizedItems service tenantId matching = [] then
        .ok (Page.of [] query.offset query.limit)
      else .error (.capability "vector search requires RetrievalQuery.embedding_id") := by
  obtain ⟨result, hresult, hitems, htotal⟩ :=
    queryEvents_candidates hmatching query hquery hscoped hpool
  have hid : query.embeddingId = none := by
    rw [← hembedding, ← hquery]
  rw [← hitems]
  unfold semanticSearch
  dsimp only
  rw [hresult, ok_bind, hstore]
  dsimp only
  rw [hid]
  by_cases hempty : result.items = []
  · rw [if_pos hempty, if_pos hempty, ← hempty]
    show Except.ok (pageResult result query) = _
    rw [pageResult_eq htotal]
  · rw [if_neg hempty, if_neg hempty]

/-! ## Walks -/

/-- A caller who pages through the results of a tenant, or through all of them, sees each of them
once and stops.  Structured queries without an authorizer are not bound to the pool, and a vector
search needs an embedding. -/
theorem paging_reaches_authorized (hindex : IndexOwned service.index)
    (hscoped : Scoped service tenantId) (request : RetrievalRequest) {limit : Nat}
    (hpos : 1 ≤ limit) (hle : limit ≤ 1000) :
    ∃ matching, matchingItems service.services request service.index = .ok matching ∧
      ((authorizedItems service tenantId matching).map (·.eventRevisionId)).Nodup ∧
      (service.structuredResultAuthorizer = none ∨ (PoolHolds service tenantId matching ∧
          PagesFit limit (authorizedItems service tenantId matching).length) →
        ∃ pages, Page.Walk (fun offset =>
            queryEvents service (request.page hpos hle offset) tenantId) limit 0 pages ∧
          (∀ page ∈ pages, page.total = (authorizedItems service tenantId matching).length) ∧
          pages.flatMap Page.items = authorizedItems service tenantId matching) ∧
      (PoolHolds service tenantId matching → ∀ store embeddingId vector,
        service.vectorStore = some store → request.embeddingId = some embeddingId →
        ∃ pages, Page.Walk (fun offset =>
            semanticSearch service (request.page hpos hle offset) (some vector) tenantId) limit 0
              pages ∧
          (∀ page ∈ pages, page.total = (authorizedItems service tenantId matching).length) ∧
          Reranked (authorizedItems service tenantId matching)
            (usedHits store embeddingId vector tenantId
              (authorizedItems service tenantId matching)) (pages.flatMap Page.items)) ∧
      (PoolHolds service tenantId matching → ∀ store vector offset,
        service.vectorStore = some store → request.embeddingId = none →
        semanticSearch service (request.page hpos hle offset) (some vector) tenantId =
          if authorizedItems service tenantId matching = [] then .ok (Page.of [] offset limit)
          else .error (.capability "vector search requires RetrievalQuery.embedding_id")) := by
  obtain ⟨matching, hmatching, hnodup⟩ := hindex.matchingItems_completes service.services request
  refine ⟨matching, hmatching, hnodup.sublist ((authorizedItems_sublist _ _ _).map _), ?_, ?_,
    fun hpool store vector offset hstore hembedding => semanticSearch_unembedded hscoped hmatching
      hpool hstore hembedding vector (request.page hpos hle offset) rfl⟩
  · intro hcondition
    by_cases hauthorizer : service.structuredResultAuthorizer.isSome = true
    · have hfits := hcondition.resolve_left (Option.isSome_iff_ne_none.mp hauthorizer)
      apply Page.walk_of hpos
      intro k hk
      have hinside : (k + 1) * limit ≤ poolLimit := by
        rcases hk with rfl | hk
        · unfold poolLimit
          omega
        · exact hfits.2 k hk
      rw [Nat.succ_mul] at hinside
      have hpage := queryEvents_scoped hmatching (request.page hpos hle (k * limit)) rfl hscoped
        hauthorizer hinside
      rw [hfits.1] at hpage
      exact hpage
    · obtain ⟨hnone, htenant, hall⟩ := hscoped.unscoped hauthorizer
      rw [hall]
      apply Page.walk_of hpos
      intro k _
      exact queryEvents_unscoped hmatching (request.page hpos hle (k * limit)) rfl hnone htenant
  · intro hpool store embeddingId vector hstore hembedding
    obtain ⟨hreranked, hlength⟩ := rerankedItems_spec
      (usedHits store embeddingId vector tenantId (authorizedItems service tenantId matching))
      (authorizedItems service tenantId matching)
    rw [← hlength]
    have hwalks : ∃ pages, Page.Walk (fun offset =>
        semanticSearch service (request.page hpos hle offset) (some vector) tenantId) limit 0 pages ∧
        (∀ page ∈ pages, page.total = (rerankedItems (usedHits store embeddingId vector tenantId
          (authorizedItems service tenantId matching))
            (authorizedItems service tenantId matching)).length) ∧
        pages.flatMap Page.items = rerankedItems (usedHits store embeddingId vector tenantId
          (authorizedItems service tenantId matching))
            (authorizedItems service tenantId matching) := by
      apply Page.walk_of hpos
      intro k _
      exact semanticSearch_page hscoped hmatching hpool hstore hembedding vector
        (request.page hpos hle (k * limit)) rfl
    obtain ⟨pages, hwalk, htotal, hitems⟩ := hwalks
    refine ⟨pages, hwalk, htotal, ?_⟩
    rw [hitems]
    exact hreranked

/-! ## Samples -/

/-- A revision identity of its own for every number. -/
def sampleId (i : Nat) : String := String.ofList (List.replicate (i + 1) 'r')

theorem sampleId_injective : Function.Injective sampleId := by
  intro i j h
  have hlists : List.replicate (i + 1) 'r' = List.replicate (j + 1) 'r' :=
    String.ofList_injective h
  have hlength := congrArg List.length hlists
  rw [length_replicate, length_replicate] at hlength
  omega

/-- A revision that starts at an instant. -/
def sampleRevision (i : Nat) : IndexedRevision where
  eventId := "event"
  revisionId := sampleId i
  row := {
    record := [("mcap_id", .text "mcap"), ("start_ns", .int i), ("end_ns", .int (i + 1))]
    eventId := "event"
    eventRevisionId := sampleId i
    revisionSemanticSha256 := none
    searchText := ""
    semanticDigest := sampleId i }

theorem sampleRevisions_nodup (n : Nat) :
    (((List.range n).map fun i => (sampleId i, sampleRevision i)).map Prod.fst).Nodup := by
  rw [map_map]
  exact List.nodup_range.map sampleId_injective

theorem sampleEvents_nodup (n : Nat) :
    ([("event", (List.range n).map sampleId)].map Prod.fst).Nodup := nodup_singleton _

/-- An index of revisions of one event. -/
def sampleIndex (n : Nat) : EventIndex :=
  { EventIndex.empty with
    revisions := ⟨(List.range n).map fun i => (sampleId i, sampleRevision i),
      sampleRevisions_nodup n⟩
    byEvent := ⟨[("event", (List.range n).map sampleId)], sampleEvents_nodup n⟩ }

theorem sampleIndex_owned (n : Nat) : IndexOwned (sampleIndex n) := by
  have hlist : ∀ eventId ids, (sampleIndex n).byEvent.get? eventId = some ids →
      eventId = "event" ∧ ids = (List.range n).map sampleId := by
    intro eventId ids h
    have hmem := Dict.get?_eq_some_iff.mp h
    exact Prod.mk.inj (mem_singleton.mp hmem)
  constructor
  case nodup =>
    intro eventId ids h
    obtain ⟨-, rfl⟩ := hlist eventId ids h
    exact List.nodup_range.map sampleId_injective
  case owned =>
    intro eventId ids h id hid
    obtain ⟨rfl, rfl⟩ := hlist eventId ids h
    obtain ⟨i, hi, rfl⟩ := mem_map.mp hid
    exact ⟨sampleRevision i, Dict.get?_eq_some_iff.mpr (mem_map.mpr ⟨i, hi, rfl⟩), rfl, rfl⟩

def sampleServices : IndexServices where
  semanticSha256 := fun _ => .ok "d"
  casefold := id
  upper := id
  batchProjection := .ok
  revisionProjection := .ok

/-- Everything, in the order of its start. -/
def sampleRequest : RetrievalRequest where
  filters := ⟨none, none, none, none, none, none, none, none, none, none, false, none, []⟩
  semanticQuery := none
  embeddingId := some "embedding"

theorem sampleMatching (n : Nat) : ∃ matching,
    matchingItems sampleServices sampleRequest (sampleIndex n) = .ok matching ∧
      matching.length = n := by
  obtain ⟨revisions, hrun, hids⟩ := (sampleIndex_owned n).revisions_complete sampleRequest
  have hall : revisions.filterMap (candidateOf sampleServices sampleRequest) =
      revisions.map fun revision => ⟨revision, none⟩ := by
    rw [← filterMap_eq_map]
    rfl
  have hlength : revisions.length = n := by
    have hvisited : visitedIds sampleRequest (sampleIndex n) = (List.range n).map sampleId := by
      show ((List.range n).map sampleId).filter (fun _ => true) ++ [] = _
      rw [append_nil, filter_true]
    rw [← length_map (·.revisionId), hids, hvisited, length_map, length_range]
  refine ⟨((sortedBy (·.sortKey) (revisions.filterMap
    (candidateOf sampleServices sampleRequest))).map (·.item)), ?_, ?_⟩
  · unfold matchingItems
    rw [hrun]
    rfl
  · rw [length_map, (sortedBy_perm _ _).length_eq, hall, length_map, hlength]

/-- A service for everybody, with a vector store. -/
def sampleService (n : Nat) (store : VectorSearchQuery → VectorOutcome) : RetrievalService where
  index := sampleIndex n
  services := sampleServices
  structuredResultAuthorizer := none
  vectorStore := some store
  semanticReranker := none

/-- A hit of the second revision. -/
def sampleHit (score : Rat) (hbounds : -1 ≤ score ∧ score ≤ 1) : VectorSearchHit where
  projectionId := "projection"
  eventRevisionId := sampleId 1
  artifactId := none
  embeddingId := "embedding"
  score := score
  rank := 0
  scoreBounds := hbounds

theorem nearest_bounds : (-1 : Rat) ≤ 1 ∧ (1 : Rat) ≤ 1 := by decide

theorem furthest_bounds : (-1 : Rat) ≤ -1 ∧ (-1 : Rat) ≤ 1 := by decide

/-- A store that finds the second revision only. -/
def nearestStore (_ : VectorSearchQuery) : VectorOutcome := .hits [sampleHit 1 nearest_bounds]

/-- Two rows in pages of one, by a structured query and by a vector search. -/
theorem paging_reaches_authorized_sample :
    ∃ matching, matchingItems sampleServices sampleRequest (sampleIndex 2) = .ok matching ∧
      (∃ pages, Page.Walk (fun offset => queryEvents (sampleService 2 nearestStore)
          (sampleRequest.page (le_refl 1) (by decide) offset) none) 1 0 pages ∧
        pages.flatMap Page.items = matching) ∧
      ∃ pages, Page.Walk (fun offset => semanticSearch (sampleService 2 nearestStore)
          (sampleRequest.page (le_refl 1) (by decide) offset) (some [some 1]) none) 1 0 pages ∧
        Ranked (matching.map (scored [sampleHit 1 nearest_bounds])) (pages.flatMap Page.items) := by
  have hindex : IndexOwned (sampleService 2 nearestStore).index := sampleIndex_owned 2
  have hscoped : Scoped (sampleService 2 nearestStore) none := rfl
  obtain ⟨matching, hmatching, -, hstructured, hsemantic, -⟩ :=
    paging_reaches_authorized hindex hscoped sampleRequest (le_refl 1) (by decide)
  obtain ⟨pages, hwalk, -, hitems⟩ := hstructured (.inl rfl)
  have hused : (matchingItems sampleServices sampleRequest (sampleIndex 2)).toOption.map
      (usedHits nearestStore "embedding" [some 1] none) =
        some (some [sampleHit 1 nearest_bounds]) := by
    decide +kernel
  have hall : matchingItems sampleServices sampleRequest (sampleIndex 2) = .ok matching := hmatching
  rw [hall] at hused
  have hlength : matching.length = 2 := by
    obtain ⟨found, hfound, hlength⟩ := sampleMatching 2
    rw [hall] at hfound
    rwa [Except.ok.inj hfound]
  have hpool : PoolHolds (sampleService 2 nearestStore) none matching :=
    take_of_length_le (by rw [hlength]; decide)
  obtain ⟨ranked, hranks, -, hreranked⟩ := hsemantic hpool _ "embedding" [some 1] rfl rfl
  have hfound : usedHits nearestStore "embedding" [some 1] none
      (authorizedItems (sampleService 2 nearestStore) none matching) =
        some [sampleHit 1 nearest_bounds] := Option.some.inj hused
  rw [hfound] at hreranked
  exact ⟨matching, hall, ⟨pages, hwalk, hitems⟩, ranked, hranks, hreranked⟩

theorem rerankByVectors_failed (embeddingId : String) (vector : List (Option Rat))
    (tenantId : Option String) (result : RetrievalResult) :
    rerankByVectors (fun _ => .failed) embeddingId vector tenantId result = result := by
  unfold rerankByVectors
  cases vectorSearchQuery? embeddingId vector tenantId result.items <;> rfl

/-- A page of the request for everything. -/
def samplePage (offset : Nat) : RetrievalQuery :=
  sampleRequest.page (by decide) (le_refl 1000) offset

/-- A vector search over more rows than the pool holds, with a store that fails, and one with a hit
as far away as can be: the first walk counts a row that it never shows, and the second shows the
item without a score before the one with it. -/
theorem paging_exceptions :
    (∃ matching pages,
      matchingItems sampleServices sampleRequest (sampleIndex 1001) = .ok matching ∧
      Page.Walk (fun offset => semanticSearch (sampleService 1001 fun _ => .failed)
        (samplePage offset) (some [some 1]) none) 1000 0 pages ∧
      authorizedItems (sampleService 1001 fun _ => .failed) none matching = matching ∧
      matching.length = 1001 ∧ (pages.flatMap Page.items).length = 1000) ∧
    ((semanticSearch (sampleService 2 fun _ => .hits [sampleHit (-1) furthest_bounds])
        (samplePage 0) (some [some 1]) none).toOption.map fun page =>
          page.items.map fun item => (item.eventRevisionId, item.semanticScore)) =
      some [(sampleId 0, none), (sampleId 1, some (-1))] := by
  refine ⟨?_, by decide +kernel⟩
  obtain ⟨matching, hmatching, hlength⟩ := sampleMatching 1001
  have htake : (matching.take 1000).length = 1000 := by
    rw [length_take, hlength]
    rfl
  have hcall : ∀ offset, semanticSearch (sampleService 1001 fun _ => .failed)
      (samplePage offset) (some [some 1]) none =
        .ok (pageResult (Page.of matching 0 1000) (samplePage offset)) := by
    intro offset
    have hcandidates : queryEvents (sampleService 1001 fun _ => .failed)
        (candidateQuery (samplePage offset)) none = .ok (Page.of matching 0 1000) := by
      apply queryEvents_unscoped
      · exact hmatching
      · rfl
      · rfl
      · rfl
    have hne : (Page.of matching 0 1000).items ≠ [] := by
      apply ne_nil_of_length_pos
      show 0 < ((matching.drop 0).take 1000).length
      rw [drop_zero, htake]
      decide
    unfold semanticSearch
    rw [hcandidates]
    show (if (Page.of matching 0 1000).items = [] then _ else _) = _
    rw [if_neg hne]
    show Except.ok (pageResult (rerankByVectors (fun _ => .failed) "embedding" [some 1] none
      (Page.of matching 0 1000)) (samplePage offset)) = _
    rw [rerankByVectors_failed]
  have hitems : ∀ offset, (pageResult (Page.of matching 0 1000) (samplePage offset)).items =
      ((matching.take 1000).drop offset).take 1000 := by
    intro offset
    show ((((matching.drop 0).take 1000)).drop offset).take 1000 = _
    rw [drop_zero]
  have hmore : ∀ offset, (pageResult (Page.of matching 0 1000) (samplePage offset)).hasMore =
      decide (offset + (((matching.take 1000).drop offset).take 1000).length < 1001) := by
    intro offset
    rw [← hlength]
    rfl
  refine ⟨matching, [_, _, _], hmatching, .next (hcall 0) ?_ (.next (hcall 1000) ?_
    (.last (hcall 2000) ?_)), rfl, hlength, ?_⟩
  · rw [hmore, length_take, length_drop, htake]
    decide
  · rw [hmore, length_take, length_drop, htake]
    decide
  · rw [hmore, length_take, length_drop, htake]
    decide
  · simp only [flatMap_cons, hitems, length_append, length_take, length_drop, hlength]
    rfl

end Robata.Retrieval
