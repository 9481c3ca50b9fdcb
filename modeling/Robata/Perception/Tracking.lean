import Robata.Contracts.Common
import Robata.Lib.KeyedTable
import Robata.Lib.Transaction

/-!
# Event tracks

The temporal reconciliation of segment observations into event tracks: the
immutable revisions of a track with their content-derived identity, the
transitions between revisions, and `EventTrackReconciler.reconcile`.

Conventions of the embedding:

* logical keys, digests, UUIDs and schema versions are texts, compared as texts;
  the patterns they match are checked where they enter the program, and nothing
  here reads them;
* `semantic_sha256` and `uuid5` are parameters, gathered in `Hashing`; what is
  hashed is the explicit projection, as a typed value, of which the literal
  version fields are left out;
* a confidence is a number of the unit interval; nothing here computes with it;
* an exception is a `ValueError`, given by its message.
-/

namespace Robata.Perception

open Contracts Lib

/-- Raise a `ValueError` when a validator finds its condition. -/
def reject (found : Bool) (message : String) : Except String Unit :=
  if found then .error message else .ok ()

@[simp] theorem reject_bind_eq_ok_iff {α : Type} {found : Bool} {message : String}
    {rest : Unit → Except String α} {a : α} :
    (reject found message >>= rest) = .ok a ↔ found = false ∧ rest () = .ok a := by
  cases found <;> simp [reject]

/-! ## Contracts of an observation -/

/-- Text of one to 512 characters. -/
structure NonEmptyString where
  val : String
  minLength : 1 ≤ val.length
  maxLength : val.length ≤ 512
  deriving DecidableEq

@[ext]
structure UnitInterval where
  val : ℚ
  nonneg : 0 ≤ val
  leOne : val ≤ 1

instance : DecidableEq UnitInterval := fun _ _ => decidable_of_iff _ UnitInterval.ext_iff.symm

/-- The characters `[a-z0-9]`. -/
def isTokenChar (c : Char) : Bool :=
  c.isLower || c.isDigit

/-- `[a-z0-9]*(?:_[a-z0-9]+)*$`, the rest of a token after a first character. -/
def tokenRest : List Char → Bool
  | [] => true
  | '_' :: c :: rest => isTokenChar c && tokenRest rest
  | c :: rest => isTokenChar c && tokenRest rest

/-- `CanonicalToken`: `^[a-z][a-z0-9]*(?:_[a-z0-9]+)*$`, at most 128 characters. -/
def isCanonicalToken (text : String) : Bool :=
  decide (text.length ≤ 128) &&
    match text.toList with
    | [] => false
    | c :: rest => c.isLower && tokenRest rest

structure CanonicalToken where
  val : String
  pattern : isCanonicalToken val = true
  deriving DecidableEq

structure ActorObservation where
  (hand actorType : Option CanonicalToken)
  deriving DecidableEq

structure ObjectObservation where
  objectType : CanonicalToken
  identityHint : Option NonEmptyString
  deriving DecidableEq

/-! ## What is hashed -/

/-- `event_hypothesis_semantic_projection`. -/
structure HypothesisContent where
  sourceObservationLogicalKey : NodeLogicalKey
  sourceObservationSemanticSha256 : Sha256Digest
  (sourceLocalRef action : NonEmptyString)
  interval : NanosecondInterval
  modelReportedConfidence : Option UnitInterval
  actor : Option ActorObservation
  object : Option ObjectObservation
  (startConfidence endConfidence : UnitInterval)
  (startedBeforeContext continuesAfterContext : Bool)

/-- `event_track_identity_projection_from_values`. -/
structure TrackIdentity where
  firstHypothesisLogicalKey : NodeLogicalKey
  firstHypothesisSemanticSha256 : Sha256Digest
  action : String
  actor : Option ActorObservation
  object : Option ObjectObservation
  trackingPolicyVersion : SchemaVersion
  deriving DecidableEq

inductive EventTrackState
  | candidate
  | opened
  | updated
  | closed
  | finalized
  deriving DecidableEq

/-- The states in which a track may still be updated or closed. -/
def EventTrackState.isActive : EventTrackState → Bool
  | candidate | opened | updated => true
  | closed | finalized => false

structure EventHypothesisReference where
  hypothesisLogicalKey : NodeLogicalKey
  hypothesisSemanticSha256 : Sha256Digest
  sourceObservationLogicalKey : NodeLogicalKey
  sourceObservationSemanticSha256 : Sha256Digest
  sourceLocalRef : NonEmptyString
  interval : NanosecondInterval

/-- `event_track_revision_semantic_projection`. -/
structure RevisionContent where
  eventTrackIdentitySha256 : Sha256Digest
  identitySeedHypothesisLogicalKey : NodeLogicalKey
  identitySeedHypothesisSemanticSha256 : Sha256Digest
  revisionIndex : Nat
  parentRevisionSemanticSha256 : Option Sha256Digest
  state : EventTrackState
  action : String
  interval : NanosecondInterval
  actor : Option ActorObservation
  object : Option ObjectObservation
  sourceHypotheses : List EventHypothesisReference
  modelReportedConfidenceValues : List UnitInterval
  (startConfidence endConfidence : UnitInterval)
  continuesAfterContext : Bool
  trackingPolicyVersion : SchemaVersion
  resolvedEventSemanticSha256 : Option Sha256Digest

/-- `temporal_reconcile_semantic_projection`. -/
structure ReconcileContent where
  trackingPolicyVersion : SchemaVersion
  sourceEventProjectionSemanticSha256 : Sha256Digest
  (priorRevisionSemanticSha256Values currentRevisionSemanticSha256Values : List Sha256Digest)
  (createdTrackKeys updatedTrackKeys closedTrackKeys : List NodeLogicalKey)

/-- The projections this subsystem hashes. -/
inductive SemanticProjection
  | eventHypothesis (content : HypothesisContent)
  | eventProjection (sourceObservationLogicalKey : NodeLogicalKey)
      (sourceObservationSemanticSha256 : Sha256Digest)
      (orderedHypothesisSemanticSha256Values : List Sha256Digest)
  | trackIdentity (identity : TrackIdentity)
  | trackRevision (content : RevisionContent)
  | temporalReconcile (content : ReconcileContent)

/-- `semantic_sha256`, and `uuid5` in the URL namespace. -/
structure Hashing where
  semanticSha256 : SemanticProjection → Sha256Digest
  uuid5 : String → OpaqueUuid

/-- The order of the tuples `(int, int, str)`. -/
def tupleLe (a b : Int × Int × String) : Bool :=
  a.1 < b.1 || (a.1 == b.1 && (a.2.1 < b.2.1 || (a.2.1 == b.2.1 && decide (a.2.2 ≤ b.2.2))))

/-- `values != tuple(sorted(values))`, negated. -/
def isSortedTuples (values : List (Int × Int × String)) : Bool :=
  values.insertionSort (fun a b => tupleLe a b) == values

/-! ## Hypotheses -/

/-- A projected action hypothesis; its key is derived from its content. -/
structure EventHypothesis (H : Hashing) extends HypothesisContent where
  hypothesisLogicalKey : NodeLogicalKey
  hypothesisSemanticSha256 : Sha256Digest
  digest : hypothesisSemanticSha256 = H.semanticSha256 (.eventHypothesis toHypothesisContent)
  logicalKey : hypothesisLogicalKey = "event-hypothesis-v1:" ++ hypothesisSemanticSha256

structure EventProjection (H : Hashing) where
  sourceObservationLogicalKey : NodeLogicalKey
  sourceObservationSemanticSha256 : Sha256Digest
  hypotheses : List (EventHypothesis H)
  eventProjectionKey : NodeLogicalKey
  eventProjectionSemanticSha256 : Sha256Digest
  ordered : isSortedTuples (hypotheses.map fun h =>
    (h.interval.startNs, h.interval.endNs, h.sourceLocalRef.val)) = true
  digest : eventProjectionSemanticSha256 = H.semanticSha256
    (.eventProjection sourceObservationLogicalKey sourceObservationSemanticSha256
      (hypotheses.map fun h => h.hypothesisSemanticSha256))
  logicalKey : eventProjectionKey =
    "observation-event-projection-v1:" ++ eventProjectionSemanticSha256

structure EventTrackPolicy where
  version : SchemaVersion
  maxMergeGapNs : Nat
  requireContinuationSignalForNonoverlap : Bool

/-! ## Revisions -/

/-- The fields of a revision without its digest. -/
structure TrackFields extends RevisionContent where
  eventTrackId : OpaqueUuid
  eventTrackKey : NodeLogicalKey

variable (H : Hashing)

def eventTrackIdentitySha256FromValues (identity : TrackIdentity) : Sha256Digest :=
  H.semanticSha256 (.trackIdentity identity)

def eventTrackRevisionSemanticSha256 (content : RevisionContent) : Sha256Digest :=
  H.semanticSha256 (.trackRevision content)

/-- `f"{EVENT_TRACK_KEY_NAMESPACE}:{identity_digest}"`. -/
def eventTrackKeyOf (identityDigest : Sha256Digest) : NodeLogicalKey :=
  "event-track-v1:" ++ identityDigest

/-- `str(uuid5(NAMESPACE_URL, f"{EVENT_TRACK_UUID_NAMESPACE}:{identity_digest}"))`. -/
def eventTrackIdOf (identityDigest : Sha256Digest) : OpaqueUuid :=
  H.uuid5 ("robata:event-track-v1:" ++ identityDigest)

/-- What the identity of a track is derived from. -/
def TrackFields.identity (values : TrackFields) : TrackIdentity where
  firstHypothesisLogicalKey := values.identitySeedHypothesisLogicalKey
  firstHypothesisSemanticSha256 := values.identitySeedHypothesisSemanticSha256
  action := values.action
  actor := values.actor
  object := values.object
  trackingPolicyVersion := values.trackingPolicyVersion

/-- The sort key of a source hypothesis. -/
def EventHypothesisReference.temporalKey (item : EventHypothesisReference) : Int × Int × String :=
  (item.interval.startNs, item.interval.endNs, item.hypothesisLogicalKey)

/-- `EventTrackRevision.validate_revision`, after the check of the one field a
hypothesis does not already guarantee. -/
def validateRevision (values : TrackFields) (revisionSemanticSha256 : Sha256Digest) :
    Except String Unit := do
  reject (!isCanonicalToken values.action) "String should match pattern"
  reject values.sourceHypotheses.isEmpty "event track requires at least one source hypothesis"
  reject (decide ¬ (values.sourceHypotheses.map (·.hypothesisLogicalKey)).Nodup)
    "event track source hypotheses must be unique"
  reject (!isSortedTuples (values.sourceHypotheses.map (·.temporalKey)))
    "event track source hypotheses must be in temporal order"
  reject (values.revisionIndex == 0 && values.parentRevisionSemanticSha256.isSome)
    "first event-track revision cannot have a parent"
  reject (decide (0 < values.revisionIndex) && values.parentRevisionSemanticSha256.isNone)
    "later event-track revision requires a parent digest"
  reject (values.state == .finalized && values.resolvedEventSemanticSha256.isNone)
    "finalized track requires a resolved event digest"
  reject (values.state == .finalized && values.continuesAfterContext)
    "finalized track cannot continue"
  reject (values.state != .finalized && values.resolvedEventSemanticSha256.isSome)
    "only finalized tracks may bind a resolved event"
  reject (values.state == .closed && values.continuesAfterContext) "closed track cannot continue"
  reject (!values.sourceHypotheses.any fun item =>
      item.hypothesisLogicalKey == values.identitySeedHypothesisLogicalKey &&
        item.hypothesisSemanticSha256 == values.identitySeedHypothesisSemanticSha256)
    "event-track identity seed must remain in source lineage"
  let identityDigest := eventTrackIdentitySha256FromValues H values.identity
  reject (values.eventTrackIdentitySha256 != identityDigest ||
      values.eventTrackKey != eventTrackKeyOf identityDigest ||
      values.eventTrackId != eventTrackIdOf H identityDigest)
    "event-track logical identity is inconsistent"
  reject (revisionSemanticSha256 != eventTrackRevisionSemanticSha256 H values.toRevisionContent)
    "event-track revision digest is inconsistent"

structure EventTrackRevision extends TrackFields where
  revisionSemanticSha256 : Sha256Digest
  valid : validateRevision H toTrackFields revisionSemanticSha256 = .ok ()

variable {H}

/-- `_build_track_revision`: the digest is computed, then everything is checked. -/
def buildTrackRevision (values : TrackFields) : Except String (EventTrackRevision H) :=
  let digest := eventTrackRevisionSemanticSha256 H values.toRevisionContent
  match h : validateRevision H values digest with
  | .error message => .error message
  | .ok () => .ok ⟨values, digest, h⟩

def hypothesisReference (hypothesis : EventHypothesis H) : EventHypothesisReference where
  hypothesisLogicalKey := hypothesis.hypothesisLogicalKey
  hypothesisSemanticSha256 := hypothesis.hypothesisSemanticSha256
  sourceObservationLogicalKey := hypothesis.sourceObservationLogicalKey
  sourceObservationSemanticSha256 := hypothesis.sourceObservationSemanticSha256
  sourceLocalRef := hypothesis.sourceLocalRef
  interval := hypothesis.interval

/-- The identity of a track whose first hypothesis is the given one. -/
def candidateIdentity (hypothesis : EventHypothesis H) (policy : EventTrackPolicy) :
    TrackIdentity where
  firstHypothesisLogicalKey := hypothesis.hypothesisLogicalKey
  firstHypothesisSemanticSha256 := hypothesis.hypothesisSemanticSha256
  action := hypothesis.action.val
  actor := hypothesis.actor
  object := hypothesis.object
  trackingPolicyVersion := policy.version

/-- `create_candidate_track`: the stable track identity from the first hypothesis. -/
def createCandidateTrack (hypothesis : EventHypothesis H) (policy : EventTrackPolicy) :
    Except String (EventTrackRevision H) :=
  let identityDigest :=
    eventTrackIdentitySha256FromValues H (candidateIdentity hypothesis policy)
  buildTrackRevision
    { eventTrackId := eventTrackIdOf H identityDigest
      eventTrackKey := eventTrackKeyOf identityDigest
      eventTrackIdentitySha256 := identityDigest
      identitySeedHypothesisLogicalKey := hypothesis.hypothesisLogicalKey
      identitySeedHypothesisSemanticSha256 := hypothesis.hypothesisSemanticSha256
      revisionIndex := 0
      parentRevisionSemanticSha256 := none
      state := .candidate
      action := hypothesis.action.val
      interval := hypothesis.interval
      actor := hypothesis.actor
      object := hypothesis.object
      sourceHypotheses := [hypothesisReference hypothesis]
      modelReportedConfidenceValues := hypothesis.modelReportedConfidence.toList
      startConfidence := hypothesis.startConfidence
      endConfidence := hypothesis.endConfidence
      continuesAfterContext := hypothesis.continuesAfterContext
      trackingPolicyVersion := policy.version
      resolvedEventSemanticSha256 := none }

/-- The keyword arguments of `_transition_track`. -/
structure TrackTransition where
  state : EventTrackState
  interval : Option NanosecondInterval := none
  sourceHypotheses : Option (List EventHypothesisReference) := none
  modelReportedConfidenceValues : Option (List UnitInterval) := none
  endConfidence : Option UnitInterval := none
  continuesAfterContext : Option Bool := none
  resolvedEventSemanticSha256 : Option Sha256Digest := none

/-- `_transition_track`: the next revision of the same track.  An empty tuple of
sources counts as none. -/
def transitionTrack (track : EventTrackRevision H) (change : TrackTransition) :
    Except String (EventTrackRevision H) :=
  buildTrackRevision
    { track.toTrackFields with
      revisionIndex := track.revisionIndex + 1
      parentRevisionSemanticSha256 := some track.revisionSemanticSha256
      state := change.state
      interval := change.interval.getD track.interval
      sourceHypotheses :=
        (change.sourceHypotheses.filter fun items => !items.isEmpty).getD track.sourceHypotheses
      modelReportedConfidenceValues :=
        change.modelReportedConfidenceValues.getD track.modelReportedConfidenceValues
      endConfidence := change.endConfidence.getD track.endConfidence
      continuesAfterContext := change.continuesAfterContext.getD track.continuesAfterContext
      resolvedEventSemanticSha256 := change.resolvedEventSemanticSha256 }

def openEventTrack (track : EventTrackRevision H) : Except String (EventTrackRevision H) :=
  if track.state ≠ .candidate then .error "only a candidate track can be opened"
  else transitionTrack track { state := .opened }

/-! ## Association -/

def compatibleOptional {α : Type} [DecidableEq α] (left right : Option α) : Bool :=
  left.isNone || right.isNone || left == right

def compatibleIdentity (track : EventTrackRevision H) (hypothesis : EventHypothesis H) : Bool :=
  track.action == hypothesis.action.val && compatibleOptional track.actor hypothesis.actor &&
    compatibleOptional track.object hypothesis.object

def intervalGapNs (left right : NanosecondInterval) : Int :=
  if left.endNs < right.startNs then right.startNs - left.endNs
  else if right.endNs < left.startNs then left.startNs - right.endNs
  else 0

def canAssociate (track : EventTrackRevision H) (hypothesis : EventHypothesis H)
    (policy : EventTrackPolicy) : Bool :=
  let overlaps := decide (track.interval.startNs < hypothesis.interval.endNs) &&
    decide (hypothesis.interval.startNs < track.interval.endNs)
  track.state.isActive && compatibleIdentity track hypothesis &&
    decide (intervalGapNs track.interval hypothesis.interval ≤ policy.maxMergeGapNs) &&
    !(policy.requireContinuationSignalForNonoverlap && !overlaps &&
      !(track.continuesAfterContext && hypothesis.startedBeforeContext))

def updateEventTrack (track : EventTrackRevision H) (hypothesis : EventHypothesis H) :
    Except String (EventTrackRevision H) :=
  let references := (track.sourceHypotheses ++ [hypothesisReference hypothesis]).insertionSort
    fun a b => tupleLe a.temporalKey b.temporalKey
  if track.state.isActive = false then .error "only an active track can be updated"
  else if compatibleIdentity track hypothesis = false then
    .error "hypothesis is incompatible with the event track"
  else if ¬ (references.map (·.hypothesisLogicalKey)).Nodup then
    .error "hypothesis is already present in the event track"
  else
    transitionTrack track
      { state := .updated
        interval := some (track.interval.hull hypothesis.interval)
        sourceHypotheses := some references
        modelReportedConfidenceValues := some
          (track.modelReportedConfidenceValues ++ hypothesis.modelReportedConfidence.toList)
        endConfidence := some hypothesis.endConfidence
        continuesAfterContext := some hypothesis.continuesAfterContext }

def closeEventTrack (track : EventTrackRevision H) : Except String (EventTrackRevision H) :=
  if track.state.isActive = false then .error "only an active track can be closed"
  else transitionTrack track { state := .closed, continuesAfterContext := some false }

def finalizeEventTrack (track : EventTrackRevision H)
    (resolvedEventSemanticSha256 : Sha256Digest) : Except String (EventTrackRevision H) :=
  if track.state ≠ .closed then .error "only a closed track can be finalized"
  else
    transitionTrack track
      { state := .finalized, continuesAfterContext := some false
        resolvedEventSemanticSha256 := some resolvedEventSemanticSha256 }

/-! ## Reconciliation -/

/-- `dict[str, EventTrackRevision]`. -/
abbrev TrackTable (H : Hashing) :=
  KeyedTable (EventTrackRevision H) NodeLogicalKey (·.eventTrackKey)

/-- The local variables of `reconcile`.  The sets are lists in the order of
their first `add`. -/
structure ReconcileState (H : Hashing) where
  current : TrackTable H
  (usedTrackKeys created updated closed : List NodeLogicalKey)

/-- The tracks a hypothesis may still be associated with. -/
def associable (policy : EventTrackPolicy) (s : ReconcileState H)
    (hypothesis : EventHypothesis H) : List (EventTrackRevision H) :=
  s.current.rows.filter fun track =>
    decide (track.eventTrackKey ∉ s.usedTrackKeys) && canAssociate track hypothesis policy

/-- The order `min` selects a track by. -/
def associationLe (hypothesis : EventHypothesis H) (a b : EventTrackRevision H) : Bool :=
  let ga := intervalGapNs a.interval hypothesis.interval
  let gb := intervalGapNs b.interval hypothesis.interval
  ga < gb || (ga == gb && decide (a.eventTrackKey ≤ b.eventTrackKey))

/-- A track that continues is opened unless it was updated; any other is closed. -/
def openOrClose (track : EventTrackRevision H) : Except String (EventTrackRevision H) :=
  if track.continuesAfterContext then
    if track.state = .candidate then openEventTrack track else .ok track
  else
    closeEventTrack track

/-- One round of the loop over the hypotheses. -/
def reconcileHypothesis (policy : EventTrackPolicy) (s : ReconcileState H)
    (hypothesis : EventHypothesis H) : Except String (ReconcileState H) :=
  match ((associable policy s hypothesis).insertionSort
      fun a b => associationLe hypothesis a b).head? with
  | some selected => do
      let nextTrack ← updateEventTrack selected hypothesis
      let settled ← openOrClose nextTrack
      .ok { s with
        current := s.current.upsert settled
        usedTrackKeys := s.usedTrackKeys ++ [selected.eventTrackKey]
        updated := s.updated ++ [selected.eventTrackKey]
        closed := if nextTrack.continuesAfterContext then s.closed
          else s.closed ++ [settled.eventTrackKey] }
  | none => do
      let nextTrack ← createCandidateTrack hypothesis policy
      let settled ← openOrClose nextTrack
      .ok { s with
        current := s.current.upsert settled
        usedTrackKeys := s.usedTrackKeys ++ [nextTrack.eventTrackKey]
        created := s.created ++ [nextTrack.eventTrackKey]
        closed := if nextTrack.continuesAfterContext then s.closed
          else s.closed ++ [settled.eventTrackKey] }

/-- One round of the loop that closes what the projection did not continue. -/
def closeUnused (s : ReconcileState H) (track : EventTrackRevision H) :
    Except String (ReconcileState H) :=
  if track.eventTrackKey ∉ s.usedTrackKeys ∧ track.state.isActive = true then do
    let settled ← closeEventTrack track
    .ok { s with
      current := s.current.upsert settled
      closed := s.closed ++ [track.eventTrackKey] }
  else
    .ok s

/-- `tuple(sorted(keys))` of a set. -/
def sortedKeys (keys : List NodeLogicalKey) : List NodeLogicalKey :=
  keys.dedup.insertionSort fun a b => a ≤ b

/-- `sorted(tracks, key=lambda item: item.event_track_key)`. -/
def sortedTracks (tracks : List (EventTrackRevision H)) : List (EventTrackRevision H) :=
  tracks.insertionSort fun a b => a.eventTrackKey ≤ b.eventTrackKey

structure TemporalReconcileResult (H : Hashing) where
  trackingPolicyVersion : SchemaVersion
  sourceEventProjectionSemanticSha256 : Sha256Digest
  priorRevisionSemanticSha256Values : List Sha256Digest
  currentTracks : List (EventTrackRevision H)
  (createdTrackKeys updatedTrackKeys closedTrackKeys : List NodeLogicalKey)
  reconcileKey : NodeLogicalKey
  reconcileSemanticSha256 : Sha256Digest

def temporalReconcileSemanticSha256 (result : TemporalReconcileResult H) : Sha256Digest :=
  H.semanticSha256 (.temporalReconcile
    { trackingPolicyVersion := result.trackingPolicyVersion
      sourceEventProjectionSemanticSha256 := result.sourceEventProjectionSemanticSha256
      priorRevisionSemanticSha256Values := result.priorRevisionSemanticSha256Values
      currentRevisionSemanticSha256Values :=
        result.currentTracks.map (·.revisionSemanticSha256)
      createdTrackKeys := result.createdTrackKeys
      updatedTrackKeys := result.updatedTrackKeys
      closedTrackKeys := result.closedTrackKeys })

def validateResult (result : TemporalReconcileResult H) : Except String Unit := do
  let trackKeys := result.currentTracks.map (·.eventTrackKey)
  reject (trackKeys != trackKeys.insertionSort (fun a b => a ≤ b) || decide ¬ trackKeys.Nodup)
    "current tracks must be unique and ordered by key"
  reject (result.createdTrackKeys != sortedKeys result.createdTrackKeys ||
      result.updatedTrackKeys != sortedKeys result.updatedTrackKeys ||
      result.closedTrackKeys != sortedKeys result.closedTrackKeys)
    "track transition key sets must be unique and ordered"
  let digest := temporalReconcileSemanticSha256 result
  reject (result.reconcileSemanticSha256 != digest ||
      result.reconcileKey != "temporal-reconcile-v1:" ++ digest)
    "temporal reconcile identity is inconsistent"

/-- The result of `reconcile`, with its content-derived key. -/
def buildResult (policy : EventTrackPolicy) (priorTracks : List (EventTrackRevision H))
    (eventProjection : EventProjection H) (s : ReconcileState H) :
    Except String (TemporalReconcileResult H) := do
  let draft : TemporalReconcileResult H :=
    { trackingPolicyVersion := policy.version
      sourceEventProjectionSemanticSha256 := eventProjection.eventProjectionSemanticSha256
      priorRevisionSemanticSha256Values :=
        (sortedTracks priorTracks).map (·.revisionSemanticSha256)
      currentTracks := sortedTracks s.current.rows
      createdTrackKeys := sortedKeys s.created
      updatedTrackKeys := sortedKeys s.updated
      closedTrackKeys := sortedKeys s.closed
      reconcileKey := ""
      reconcileSemanticSha256 := "" }
  let digest := temporalReconcileSemanticSha256 draft
  let result := { draft with
    reconcileKey := "temporal-reconcile-v1:" ++ digest
    reconcileSemanticSha256 := digest }
  validateResult result
  .ok result

def reconcile (policy : EventTrackPolicy) (priorTracks : List (EventTrackRevision H))
    (eventProjection : EventProjection H) : Except String (TemporalReconcileResult H) :=
  if h : (priorTracks.map (·.eventTrackKey)).Nodup then
    if priorTracks.any fun item => item.trackingPolicyVersion != policy.version then
      .error "prior track policy version mismatch"
    else do
      let s ← eventProjection.hypotheses.foldlM (reconcileHypothesis policy)
        ⟨⟨priorTracks, h⟩, [], [], [], []⟩
      let s' ← s.current.rows.foldlM closeUnused s
      buildResult policy priorTracks eventProjection s'
  else
    .error "prior event tracks must be unique"

end Robata.Perception
