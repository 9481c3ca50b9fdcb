import Mathlib.Algebra.Order.Ring.Unbundled.Rat
import Mathlib.Data.List.SplitOn
import Mathlib.Data.Prod.Lex
import Mathlib.Data.String.Basic
import Robata.Lib.Aligned
import Robata.Lib.Paging
import Robata.Lib.Sorting
import Robata.Retrieval.IndexRuns

/-!
# Queries of the event index

`EventIndex.query_index`: the revisions that match the filters and the words of a query, in one
order, and a page of them.  What a query reads of a row is what `_normalise` has written.
-/

namespace Robata.Retrieval

open Contracts Lib List
open Leaves (ofExcept)
open Method (wp wp_bind wp_mono wp_raiseIf wp_self)

structure SearchFilter where
  (actionType activeHand objectClassId objectLabel : Option String)
  (startNsMin startNsMax endNsMin endNsMax : Option Int)
  mcapId : Option String
  minConfidence : Option Rat
  requireCurrentRevision : Bool
  minUsableCameraCount : Option Int
  requiredCameraStatus : List (String × String)

/-- A query without its page. -/
structure RetrievalRequest where
  filters : SearchFilter
  (semanticQuery embeddingId : Option String)

/-- A structured query; the contract bounds its page. -/
structure RetrievalQuery extends RetrievalRequest where
  (limit offset : Nat)
  limitPos : 1 ≤ limit
  limitLe : limit ≤ 1000

structure RetrievalResultItem where
  (eventId eventRevisionId : String)
  mcapId : JsonValue
  (startNs endNs : Int)
  (actionType activeHand objectClassId objectLabel confidenceValue : JsonValue)
  semanticScore : Option Rat

/-- The result of a query: a page, whose `offset` and `limit` are those of the query. -/
abbrev RetrievalResult := Page RetrievalResultItem

/-- An integer field of a normalised row. -/
def intField (record : JsonObject) (field : String) : Int :=
  (JsonObject.getD record field).asInt?.getD 0

/-- The confidence of a normalised row. -/
def confidenceOf (record : JsonObject) : Option Rat :=
  match JsonObject.getD record "confidence_value" with
  | .float q => q
  | _ => none

/-- A filter on a text field. -/
def matchesText (record : JsonObject) (field : String) : Option String → Bool
  | none => true
  | some value => JsonObject.getD record field == .text value

/-- The status of a camera in a normalised row. -/
def cameraStatus (record : JsonObject) (cameraId : String) : JsonValue :=
  match JsonObject.getD record "camera_statuses" with
  | .object statuses => JsonObject.getD statuses cameraId
  | _ => .null

def matchesFilters (record : JsonObject) (filters : SearchFilter) : Bool :=
  matchesText record "action_type" filters.actionType &&
  matchesText record "active_hand" filters.activeHand &&
  matchesText record "object_class_id" filters.objectClassId &&
  matchesText record "object_label" filters.objectLabel &&
  matchesText record "mcap_id" filters.mcapId &&
  filters.startNsMin.all (fun bound => decide (bound ≤ intField record "start_ns")) &&
  filters.startNsMax.all (fun bound => decide (intField record "start_ns" ≤ bound)) &&
  filters.endNsMin.all (fun bound => decide (bound ≤ intField record "end_ns")) &&
  filters.endNsMax.all (fun bound => decide (intField record "end_ns" ≤ bound)) &&
  filters.minConfidence.all (fun bound =>
    (confidenceOf record).any fun confidence => decide (bound ≤ confidence)) &&
  filters.minUsableCameraCount.all (fun bound =>
    decide (bound ≤ intField record "usable_camera_count")) &&
  filters.requiredCameraStatus.all fun required =>
    cameraStatus record required.1 == .text required.2

/-- A character of `[a-z0-9_]`. -/
def isTokenChar (c : Char) : Bool :=
  ('a' ≤ c && c ≤ 'z') || ('0' ≤ c && c ≤ '9') || c == '_'

/-- `set(re.findall(r"[a-z0-9_]+", text))`. -/
def tokens (text : String) : List (List Char) :=
  ((text.toList.splitOnP fun c => !isTokenChar c).filter fun token => !token.isEmpty).dedup

variable (services : IndexServices)

def lexicalScore (query text : String) : Rat :=
  let queryTokens := tokens (services.casefold query)
  let textTokens := tokens (services.casefold text)
  if queryTokens = [] then 0
  else ((queryTokens.filter fun token => decide (token ∈ textTokens)).length : Rat) /
    (queryTokens.length : Rat)

/-- A revision that matches, with its score if the query has words. -/
structure Candidate where
  revision : IndexedRevision
  score : Option Rat

/-- What the loop of `query_index` makes of a revision. -/
def candidateOf (request : RetrievalRequest) (revision : IndexedRevision) : Option Candidate :=
  if !matchesFilters revision.row.record request.filters then none
  else
    match request.semanticQuery with
    | none => some ⟨revision, none⟩
    | some words =>
      let score := lexicalScore services words revision.row.searchText
      if score = 0 then none else some ⟨revision, some score⟩

/-- The revisions that the loop of `query_index` visits. -/
def visitedIds (request : RetrievalRequest) (index : EventIndex) : List String :=
  index.byEvent.rows.flatMap fun entry => entry.2.filter fun revisionId =>
    !request.filters.requireCurrentRevision || index.current.get? entry.1 == some revisionId

/-- `self._revisions[revision_id]`. -/
def revisionOf (index : EventIndex) (revisionId : String) : Except IndexFailure IndexedRevision :=
  match index.revisions.get? revisionId with
  | some revision => .ok revision
  | none => .error .key

def Candidate.sortKey (candidate : Candidate) : Rat ×ₗ Int ×ₗ String ×ₗ String :=
  toLex (-(candidate.score.getD 0), toLex (intField candidate.revision.row.record "start_ns",
    toLex (candidate.revision.eventId, candidate.revision.revisionId)))

def Candidate.item (candidate : Candidate) : RetrievalResultItem :=
  let record := candidate.revision.row.record
  { eventId := candidate.revision.eventId
    eventRevisionId := candidate.revision.revisionId
    mcapId := JsonObject.getD record "mcap_id"
    startNs := intField record "start_ns"
    endNs := intField record "end_ns"
    actionType := JsonObject.getD record "action_type"
    activeHand := JsonObject.getD record "active_hand"
    objectClassId := JsonObject.getD record "object_class_id"
    objectLabel := JsonObject.getD record "object_label"
    confidenceValue := JsonObject.getD record "confidence_value"
    semanticScore := candidate.score }

/-- The matching revisions of an index, in its order. -/
def matchingItems (request : RetrievalRequest) (index : EventIndex) :
    Except IndexFailure (List RetrievalResultItem) := do
  let revisions ← (visitedIds request index).mapM (revisionOf index)
  let candidates := revisions.filterMap (candidateOf services request)
  return (sortedBy (·.sortKey) candidates).map (·.item)

def queryIndex (query : RetrievalQuery) (index : EventIndex) :
    Except IndexFailure RetrievalResult := do
  let matching ← matchingItems services query.toRetrievalRequest index
  let items := (matching.drop query.offset).take query.limit
  return {
    items := items
    total := matching.length
    hasMore := decide (query.offset + items.length < matching.length) }

theorem candidateOf_revision (request : RetrievalRequest) (revision : IndexedRevision)
    (candidate : Candidate) (h : candidateOf services request revision = some candidate) :
    candidate.item.eventRevisionId = revision.revisionId := by
  unfold candidateOf at h
  split_ifs at h
  cases hwords : request.semanticQuery with
  | none =>
    rw [hwords] at h
    cases h
    rfl
  | some words =>
    rw [hwords] at h
    dsimp only at h
    split_ifs at h
    cases h
    rfl

theorem filterMap_map_sublist {α β γ : Type} {f : α → Option β} {view : β → γ} {g : α → γ}
    (h : ∀ a b, f a = some b → view b = g a) (items : List α) :
    List.Sublist ((items.filterMap f).map view) (items.map g) := by
  induction items with
  | nil => exact .slnil
  | cons a rest ih =>
    cases ha : f a with
    | none =>
      rw [filterMap_cons_none ha]
      exact ih.cons _
    | some b =>
      rw [filterMap_cons_some ha, map_cons, h a b ha]
      exact ih.cons_cons _

/-! ## Revisions and their events -/

/-- The lists of an index hold revisions of their own event, each once. -/
structure IndexOwned (index : EventIndex) : Prop where
  nodup : ∀ eventId ids, index.byEvent.get? eventId = some ids → ids.Nodup
  owned : ∀ eventId ids, index.byEvent.get? eventId = some ids → ∀ id ∈ ids,
    ∃ revision, index.revisions.get? id = some revision ∧ revision.eventId = eventId ∧
      revision.revisionId = id

theorem indexOwned_empty : IndexOwned .empty where
  nodup := fun _ _ h => (by cases h)
  owned := fun _ _ h => (by cases h)

namespace IndexOwned

variable {index : EventIndex}

variable (h : IndexOwned index)
include h

theorem addRevision {row : IndexedRow} (hfresh : index.revisions.get? row.eventRevisionId = none) :
    IndexOwned (addRevision row index) := by
  have hnew : ∀ eventId ids, index.byEvent.get? eventId = some ids → row.eventRevisionId ∉ ids := by
    intro eventId ids hids hmem
    obtain ⟨revision, hrevision, -⟩ := h.owned eventId ids hids _ hmem
    rw [hfresh] at hrevision
    cases hrevision
  -- the revisions that were there are found where they were
  have hkept : ∀ eventId ids, index.byEvent.get? eventId = some ids → ∀ id ∈ ids,
      ∃ revision, (Retrieval.addRevision row index).revisions.get? id = some revision ∧
        revision.eventId = eventId ∧ revision.revisionId = id := by
    intro eventId ids hids id hid
    obtain ⟨revision, hrevision, hevent, hsame⟩ := h.owned eventId ids hids id hid
    refine ⟨revision, ?_, hevent, hsame⟩
    have hne : id ≠ row.eventRevisionId := fun heq => hnew eventId ids hids (heq ▸ hid)
    exact (Dict.get?_set_of_ne _ _ hne).trans hrevision
  have hlist : ∀ eventId ids, (Retrieval.addRevision row index).byEvent.get? eventId = some ids →
      (eventId = row.eventId ∧
        ids = (index.byEvent.get? row.eventId).getD [] ++ [row.eventRevisionId]) ∨
      index.byEvent.get? eventId = some ids := by
    intro eventId ids hids
    by_cases heq : eventId = row.eventId
    · subst heq
      have hset := Dict.get?_set_self index.byEvent row.eventId
        ((index.byEvent.get? row.eventId).getD [] ++ [row.eventRevisionId])
      exact .inl ⟨rfl, Option.some.inj (hids.symm.trans hset)⟩
    · exact .inr ((Dict.get?_set_of_ne _ _ heq).symm.trans hids)
  constructor
  case nodup =>
    intro eventId ids hids
    rcases hlist eventId ids hids with ⟨rfl, rfl⟩ | hold
    · cases hprior : index.byEvent.get? row.eventId with
      | none => exact nodup_singleton _
      | some prior =>
        refine nodup_append.mpr ⟨h.nodup _ _ hprior, nodup_singleton _, ?_⟩
        rintro a ha b hb rfl
        exact hnew _ _ hprior (mem_singleton.mp hb ▸ ha)
    · exact h.nodup eventId ids hold
  case owned =>
    intro eventId ids hids id hid
    rcases hlist eventId ids hids with ⟨rfl, rfl⟩ | hold
    · rcases mem_append.mp hid with hprior | hlast
      · cases hget : index.byEvent.get? row.eventId with
        | none =>
          rw [hget] at hprior
          exact absurd hprior not_mem_nil
        | some prior =>
          rw [hget] at hprior
          exact hkept _ _ hget id hprior
      · rw [mem_singleton.mp hlast]
        exact ⟨_, Dict.get?_set_self _ _ _, rfl, rfl⟩
    · exact hkept eventId ids hold id hid

theorem of_same {index' : EventIndex}
    (hbyEvent : index'.byEvent = index.byEvent) (hrevisions : index'.revisions = index.revisions) :
    IndexOwned index' where
  nodup := hbyEvent ▸ h.nodup
  owned := by
    rw [hbyEvent, hrevisions]
    exact h.owned

theorem revisions_complete (request : RetrievalRequest) :
    ∃ revisions, (visitedIds request index).mapM (revisionOf index) = .ok revisions ∧
      revisions.map (·.revisionId) = visitedIds request index := by
  obtain ⟨revisions, hrun, hall⟩ : ∃ revisions,
      (visitedIds request index).mapM (revisionOf index) = .ok revisions ∧
        List.Forall₂ (fun id revision => id = revision.revisionId) (visitedIds request index)
          revisions := by
    apply mapM_completes
    intro id hid
    obtain ⟨entry, hentry, hmem⟩ := mem_flatMap.mp hid
    obtain ⟨revision, hrevision, -, hsame⟩ := h.owned entry.1 entry.2
      (Dict.get?_eq_some_iff.mpr hentry) id (mem_filter.mp hmem).1
    refine ⟨revision, ?_, hsame.symm⟩
    unfold revisionOf
    rw [hrevision]
  refine ⟨revisions, hrun, ?_⟩
  have hids := map_eq_of_forall₂ (f := id) hall fun _ _ heq => heq
  rw [map_id] at hids
  exact hids.symm

theorem visitedIds_nodup (request : RetrievalRequest) : (visitedIds request index).Nodup := by
  unfold visitedIds
  rw [nodup_flatMap]
  constructor
  · intro entry hentry
    exact (h.nodup entry.1 entry.2 (Dict.get?_eq_some_iff.mpr hentry)).filter _
  · have hkeys := index.byEvent.nodup
    rw [List.Nodup, pairwise_map] at hkeys
    refine hkeys.imp_of_mem ?_
    intro a b ha hb hne id hida hidb
    obtain ⟨r, hr, hra, -⟩ := h.owned a.1 a.2 (Dict.get?_eq_some_iff.mpr ha) id
      (mem_filter.mp hida).1
    obtain ⟨r', hr', hrb, -⟩ := h.owned b.1 b.2 (Dict.get?_eq_some_iff.mpr hb) id
      (mem_filter.mp hidb).1
    rw [hr] at hr'
    cases hr'
    exact hne (hra.symm.trans hrb)

theorem matchingItems_completes (request : RetrievalRequest) :
    ∃ items, matchingItems services request index = .ok items ∧
      (items.map (·.eventRevisionId)).Nodup := by
  obtain ⟨revisions, hrun, hids⟩ := h.revisions_complete request
  refine ⟨_, by
    unfold matchingItems
    rw [hrun]
    rfl, ?_⟩
  rw [map_map]
  have hperm := sortedBy_perm (·.sortKey) (revisions.filterMap (candidateOf services request))
  rw [(hperm.map _).nodup_iff]
  have hsublist : List.Sublist ((revisions.filterMap (candidateOf services request)).map
      ((·.eventRevisionId) ∘ Candidate.item)) (revisions.map (·.revisionId)) :=
    filterMap_map_sublist (candidateOf_revision services request) revisions
  exact (hids ▸ h.visitedIds_nodup request : (revisions.map _).Nodup).sublist hsublist

end IndexOwned

/-! ## Runs -/

/-- A method keeps the lists of the index. -/
structure KeepsOwned (s s' : EventIndex) : Prop where
  keeps : IndexOwned s → IndexOwned s'

namespace KeepsOwned

variable {s : EventIndex}

theorem refl (s : EventIndex) : KeepsOwned s s := ⟨id⟩

theorem trans {a b c : EventIndex} (h : KeepsOwned a b) (h' : KeepsOwned b c) : KeepsOwned a c :=
  ⟨fun ha => h'.keeps (h.keeps ha)⟩

theorem of_same {s' s'' : EventIndex} (h : KeepsOwned s s')
    (hbyEvent : s''.byEvent = s'.byEvent) (hrevisions : s''.revisions = s'.revisions) :
    KeepsOwned s s'' := ⟨fun hs => (h.keeps hs).of_same hbyEvent hrevisions⟩

theorem openHistory (eventId : String) : KeepsOwned s (openHistory eventId s) := by
  unfold Retrieval.openHistory
  split
  · exact refl s
  · exact (refl s).of_same rfl rfl

theorem selected {s' : EventIndex} (h : KeepsOwned s s') (eventId revisionId decisionId : String)
    (sequence : Int) :
    KeepsOwned s (appendSelection eventId revisionId decisionId sequence s') ∧
      KeepsOwned s (recordDecision eventId revisionId decisionId sequence
        (appendSelection eventId revisionId decisionId sequence s')) :=
  ⟨h.of_same rfl rfl, h.of_same rfl rfl⟩

end KeepsOwned

/-- A method keeps the memberships and the lists of the index. -/
structure KeepsIndex (s s' : EventIndex) : Prop extends KeepsMemberships s s', KeepsOwned s s'

namespace KeepsIndex

variable {s : EventIndex}

theorem refl (s : EventIndex) : KeepsIndex s s := ⟨.refl s, .refl s⟩

theorem trans {a b c : EventIndex} (h : KeepsIndex a b) (h' : KeepsIndex b c) : KeepsIndex a c :=
  ⟨h.toKeepsMemberships.trans h'.toKeepsMemberships, h.toKeepsOwned.trans h'.toKeepsOwned⟩

theorem selectRevision (eventId revisionId decisionId : String) (sequence : JsonValue) :
    Leaves (selectRevision eventId revisionId decisionId sequence) (KeepsIndex s) s := by
  have hopen : KeepsIndex s (openHistory eventId s) := ⟨.openHistory eventId, .openHistory eventId⟩
  have hkeeps := hopen.toKeepsMemberships.appendSelection eventId revisionId decisionId
  simp only [Retrieval.selectRevision, raiseIndexIf, wp_bind, wp_raiseIf]
  -- every check raises on the index as it came, or with an empty history opened
  refine ⟨fun _ => .refl s, fun _ => ⟨fun _ => .refl s, fun _ => ⟨fun _ => .refl s, fun _ =>
    ⟨fun _ => .refl s, fun _ => ⟨fun _ => hopen, fun _ => ⟨fun _ => hopen, fun _ => ?_⟩⟩⟩⟩⟩⟩
  split
  · rename_i hfresh
    exact ⟨(hkeeps _).recordDecision (Option.isNone_iff_eq_none.mp hfresh) _ _ _,
      (hopen.selected _ _ _ _).2⟩
  · exact ⟨hkeeps _, (hopen.selected _ _ _ _).1⟩

theorem storeRevision (asksOwner : Bool) (row : IndexedRow) :
    Leaves (storeRevision asksOwner row) (KeepsIndex s) s := by
  simp only [Retrieval.storeRevision, raiseIndexIf, wp_bind, wp_self]
  split
  · simp only [wp_bind, wp_raiseIf]
    exact ⟨fun _ => .refl s, fun _ => ⟨fun _ => .refl s, fun _ => .refl s⟩⟩
  · rename_i hfresh
    exact ⟨.addRevision hfresh, ⟨fun hs => hs.addRevision hfresh⟩⟩

theorem updateIndex (eventRevision : JsonObject) (select : Option Bool) :
    Leaves (updateIndex services eventRevision select) (KeepsIndex s) s := by
  refine (ofExcept (.refl s) _).bind .trans fun row s₁ =>
    (storeRevision false row).bind .trans fun _ s₂ => ?_
  split
  · refine Leaves.bind .trans (.refl s₂) fun index s₃ =>
      (ofExcept (.refl s₃) _).bind .trans fun decision s₄ => ?_
    exact selectRevision _ _ _ _
  · exact .refl s₂

end KeepsIndex

namespace KeepsOwned

variable {s : EventIndex}

theorem applyRows (revisions : List JsonValue) :
    Leaves (applyRows services revisions) (KeepsOwned s) s := by
  induction revisions generalizing s with
  | nil => exact .refl s
  | cons revision rest ih =>
    refine (ofExcept (.refl _) _).bind .trans fun split s₁ => ?_
    refine Leaves.bind .trans ?_ fun receipt s₂ => ih.bind .trans fun others s₃ => .refl _
    refine (ofExcept (.refl _) _).bind .trans fun row s₂ =>
      Leaves.bind .trans ?_ fun _ s₃ => ?_
    · exact wp_mono (KeepsIndex.storeRevision true row) (fun _ _ h => h.toKeepsOwned)
        fun _ _ h => h.toKeepsOwned
    · simp only [fileMembership, raiseIndexIf, wp_bind, wp_raiseIf]
      exact ⟨fun _ => .refl _, fun _ => (refl _).of_same rfl rfl⟩

theorem applyIdempotentSelection (selection : ProjectedSelection) :
    Leaves (applyIdempotentSelection selection) (KeepsOwned s) s := by
  have hopen := openHistory (s := s) selection.eventId
  simp only [Retrieval.applyIdempotentSelection, raiseIndexIf, wp_bind, wp_raiseIf]
  refine ⟨fun _ => .refl s, fun _ => ?_⟩
  split
  · simp only [wp_bind, wp_raiseIf]
    exact ⟨fun _ => .refl s, fun _ => .refl s⟩
  · simp only [selectFresh, raiseIndexIf, wp_bind, wp_raiseIf]
    exact ⟨fun _ => .refl s, fun _ => ⟨fun _ => hopen, fun _ => (selected hopen _ _ _ _).2⟩⟩

theorem applySelections (selections : List JsonValue) :
    Leaves (applySelections selections) (KeepsOwned s) s := by
  induction selections generalizing s with
  | nil => exact .refl s
  | cons selection rest ih =>
    refine Leaves.bind .trans ?_ fun updated s₁ => ih.bind .trans fun others s₂ => .refl _
    refine (ofExcept (.refl _) _).bind .trans fun read s₁ =>
      (applyIdempotentSelection read).bind .trans fun sequence s₂ => ?_
    exact (refl _).of_same rfl rfl

theorem applyProjection (projection : JsonObject) :
    Leaves (applyProjection services projection) (KeepsOwned s) s := by
  refine (ofExcept (.refl _) _).bind .trans fun read s₁ => ?_
  obtain ⟨revisions, selections⟩ := read
  have hbody : Leaves (applyProjectionBody services revisions selections) (KeepsOwned s₁) s₁ := by
    refine (applyRows services revisions).bind .trans fun applied s₂ =>
      (applySelections _).bind .trans fun updated s₃ => ?_
    exact Leaves.bind .trans (.refl _) fun index s₄ => ofExcept (.refl _) _
  -- a projection that raises puts the index back
  unfold Leaves wp at hbody ⊢
  dsimp only [restoring]
  cases hrun : applyProjectionBody services revisions selections s₁ with
  | mk result s₂ =>
    rw [hrun] at hbody
    cases result with
    | ok _ => exact hbody
    | error _ => exact .refl _

end KeepsOwned

end Robata.Retrieval
