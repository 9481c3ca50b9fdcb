import Robata.Contracts.Common
import Robata.Lib.Transaction

/-!
# The records of coarse and dense QA

The contract models of `coarse.py`, `dense.py` and `completion.py`, without their validators: what
a coarse result says of each package and camera, the dense work planned from it, the evidence that
comes back, and the completion that is made of both.  A record that carries its own identity
extends the projection that is hashed for it.
-/

namespace Robata.QaPipeline

open Contracts

/-- The error of this subsystem: a contract refuses a value, a value has no canonical JSON, or a
projector refuses its input. -/
inductive QAError
  | canonicalization
  | value (message : String)
  | denseProjection (message : String)
  | completionProjection (message : String)
  deriving DecidableEq

inductive CameraQAStatus
  | good
  | degraded
  | unusable
  | unknown
  | incomplete
  deriving DecidableEq

/-- The statuses that dense work is planned for. -/
def CameraQAStatus.isSuspicious : CameraQAStatus → Bool
  | .degraded | .unusable => true
  | .good | .unknown | .incomplete => false

inductive ProviderClaimKind
  | actionObservation
  | boundaryObservation
  | crossViewHypothesis
  | eventProposal
  | fusionHypothesis
  | qaObservation
  deriving DecidableEq

def ProviderClaimKind.isCameraClaim : ProviderClaimKind → Bool
  | .actionObservation | .boundaryObservation | .qaObservation => true
  | .crossViewHypothesis | .eventProposal | .fusionHypothesis => false

inductive ProviderObservation
  | conflict
  | degraded
  | good
  | missing
  | noBoundary
  | noEvent
  | observed
  | occluded
  | partially
  | proposed
  | supporting
  | unknown
  | unusable
  deriving DecidableEq

/-- One provider token resolved to its package and camera. -/
structure EnrichedEvidenceReference where
  correlationToken : String
  providerItemOrdinal : Nat
  packageId : OpaqueUuid
  packageOrdinal : Nat
  (packageSemanticContentSha256 packageManifestSha256 : Sha256Digest)
  cameraId : CameraId
  frameOrdinal : Nat
  deriving DecidableEq

/-- An enriched provider claim, with what QA reads of it and every integer of it; a confidence has
the ordinal of its source claim. -/
structure EnrichedProviderClaim where
  claimId : OpaqueUuid
  claimOrdinal : Nat
  kind : ProviderClaimKind
  packageId : Option OpaqueUuid
  packageOrdinal : Option Nat
  cameraId : Option CameraId
  interval : Option NanosecondInterval
  observation : ProviderObservation
  evidence : List EnrichedEvidenceReference
  sourceClaimOrdinal : Option Nat
  deriving DecidableEq

/-! ## Coarse QA -/

inductive CoarseQAStatus
  | complete
  | requiresDense
  | incomplete
  deriving DecidableEq

structure CoarseQAOutputRef where
  artifactId : OpaqueUuid
  semanticSha256 : Sha256Digest
  enrichmentLogicalKey : NodeLogicalKey
  inferenceId : OpaqueUuid
  deriving DecidableEq

/-- One package and camera with its complete enriched claim. -/
structure CameraCoarseResult where
  packageId : OpaqueUuid
  packageOrdinal : Nat
  cameraId : CameraId
  localStatus : CameraQAStatus
  sourceOutput : CoarseQAOutputRef
  claim : EnrichedProviderClaim

/-- The result of the complete coarse projection. -/
structure CoarseQAResult where
  (packageSetId mcapId : String)
  inputPlanId : OpaqueUuid
  inputPlanSemanticSha256 : Sha256Digest
  packageIds : List OpaqueUuid
  sourceOutputs : List CoarseQAOutputRef
  packageCameraResults : List CameraCoarseResult
  localStatus : CoarseQAStatus
  (complete requiresDense : Bool)
  policyVersion : SchemaVersion

/-! ## Dense work -/

inductive DenseQAOutcome
  | skippedNotNeeded
  | denseRequired
  | blockedIncomplete
  deriving DecidableEq

inductive DenseQAStatus
  | complete
  | incomplete
  deriving DecidableEq

/-- Exact package and camera observation and its lineage. -/
structure CoarseQAObservationRef where
  packageId : OpaqueUuid
  packageOrdinal : Nat
  cameraId : CameraId
  interval : NanosecondInterval
  providerObservation : ProviderObservation
  localStatus : CameraQAStatus
  sourceClaimId : OpaqueUuid
  sourceOutput : CoarseQAOutputRef
  deriving DecidableEq

structure DenseQAWorkItem where
  source : CoarseQAObservationRef
  contextCameraIds : List CameraId
  deriving DecidableEq

/-- What identifies a unit of dense work. -/
structure DenseQAWorkUnitProjection where
  (requestedInterval effectiveInterval : NanosecondInterval)
  contextTruncated : Bool
  sourceItems : List DenseQAWorkItem
  targetIntervalIds : List OpaqueUuid
  (targetCameraIds contextCameraIds : List CameraId)
  policyVersion : SchemaVersion
  deriving DecidableEq

structure DenseQAWorkUnit extends DenseQAWorkUnitProjection where
  unitId : OpaqueUuid
  semanticDigest : Sha256Digest
  deriving DecidableEq

/-- What identifies a manifest of dense work. -/
structure DenseQAWorkManifestProjection where
  mcapId : String
  coarseResultDigest : Sha256Digest
  outcome : DenseQAOutcome
  items : List DenseQAWorkItem
  units : List DenseQAWorkUnit
  policyVersion : SchemaVersion
  deriving DecidableEq

structure DenseQAWorkManifest extends DenseQAWorkManifestProjection where
  manifestId : OpaqueUuid
  semanticDigest : Sha256Digest
  deriving DecidableEq

structure DenseQAPlanningPolicy where
  version : SchemaVersion
  (paddingNs mergeGapNs : Nat)

/-! ## Dense evidence -/

structure DenseQAPackageRef where
  packageId : OpaqueUuid
  ordinal : Nat
  interval : NanosecondInterval
  (semanticContentSha256 manifestSha256 : Sha256Digest)
  deriving DecidableEq

structure DenseQAInputPlanRef where
  inputPlanId : OpaqueUuid
  semanticSha256 : Sha256Digest
  packageIds : List OpaqueUuid
  deriving DecidableEq

structure DenseQAOutputRef where
  artifactId : OpaqueUuid
  semanticSha256 : Sha256Digest
  enrichmentLogicalKey : NodeLogicalKey
  (inferenceId inputPlanId : OpaqueUuid)
  inputPlanSemanticSha256 : Sha256Digest
  deriving DecidableEq

/-- One package and camera of dense evidence. -/
structure CameraDenseResult where
  packageId : OpaqueUuid
  packageOrdinal : Nat
  cameraId : CameraId
  localStatus : CameraQAStatus
  sourceOutput : DenseQAOutputRef
  claim : EnrichedProviderClaim
  deriving DecidableEq

structure DenseQAUnitEvidence where
  unitId : OpaqueUuid
  unitSemanticDigest : Sha256Digest
  (mcapId cameraMappingRunId : String)
  cameraMappingSemanticSha256 : Sha256Digest
  alignmentId : String
  alignmentSemanticSha256 : Sha256Digest
  packageSetId : String
  (splitPlanDigest memberManifestSha256 : Sha256Digest)
  packages : List DenseQAPackageRef
  inputPlan : DenseQAInputPlanRef
  sourceOutputs : List DenseQAOutputRef
  packageCameraResults : List CameraDenseResult
  deriving DecidableEq

/-- What identifies the result of a unit. -/
structure DenseQAUnitResultProjection where
  workUnitId : OpaqueUuid
  workUnitSemanticDigest : Sha256Digest
  evidence : DenseQAUnitEvidence
  status : DenseQAStatus
  policyVersion : SchemaVersion
  deriving DecidableEq

structure DenseQAUnitResult extends DenseQAUnitResultProjection where
  resultId : OpaqueUuid
  semanticDigest : Sha256Digest
  deriving DecidableEq

/-- What identifies a dense result. -/
structure DenseQAResultProjection where
  mcapId : String
  coarseResultDigest : Sha256Digest
  workManifestId : OpaqueUuid
  workManifestDigest : Sha256Digest
  units : List DenseQAUnitResult
  status : DenseQAStatus
  policyVersion : SchemaVersion
  deriving DecidableEq

structure DenseQAResult extends DenseQAResultProjection where
  resultId : OpaqueUuid
  semanticDigest : Sha256Digest
  deriving DecidableEq

/-! ## Completion -/

inductive QACompletionStatus
  | qaComplete
  | denseRequired
  | qaIncomplete
  deriving DecidableEq

/-- One camera finalized with complete coarse and optional dense lineage; its status is `GOOD`. -/
structure CameraFinalQAResult where
  cameraId : CameraId
  observations : List CoarseQAObservationRef
  denseObservations : List CameraDenseResult
  policyVersion : SchemaVersion
  deriving DecidableEq

/-- Local six-camera final aggregate; its status is `QA_COMPLETE`. -/
structure QACompletionAggregate where
  cameraResults : List CameraFinalQAResult
  policyVersion : SchemaVersion
  deriving DecidableEq

/-- What identifies a completion. -/
structure QACompletionProjection where
  (packageSetId mcapId : String)
  inputPlanId : OpaqueUuid
  inputPlanSemanticSha256 : Sha256Digest
  packageIds : List OpaqueUuid
  coarseResultSemanticSha256 : Sha256Digest
  coarsePolicyVersion : SchemaVersion
  sourceOutputs : List CoarseQAOutputRef
  coarseCoverage : List CoarseQAObservationRef
  denseWorkManifest : DenseQAWorkManifest
  denseResult : Option DenseQAResult
  denseFailureCode : Option String
  finalAggregate : Option QACompletionAggregate
  status : QACompletionStatus
  policyVersion : SchemaVersion
  deriving DecidableEq

/-- Stable result of the local completion gate. -/
structure QACompletionResult extends QACompletionProjection where
  completionId : OpaqueUuid
  semanticSha256 : Sha256Digest
  deriving DecidableEq

/-! ## Identities -/

section Ordinals

def EnrichedEvidenceReference.ordinals (reference : EnrichedEvidenceReference) : List Nat :=
  [reference.providerItemOrdinal, reference.packageOrdinal, reference.frameOrdinal]

def EnrichedProviderClaim.ordinals (claim : EnrichedProviderClaim) : List Nat :=
  claim.claimOrdinal :: claim.packageOrdinal.toList ++
    claim.evidence.flatMap (·.ordinals) ++ claim.sourceClaimOrdinal.toList

def CameraCoarseResult.ordinals (item : CameraCoarseResult) : List Nat :=
  item.packageOrdinal :: item.claim.ordinals

def CameraDenseResult.ordinals (item : CameraDenseResult) : List Nat :=
  item.packageOrdinal :: item.claim.ordinals

def DenseQAWorkManifestProjection.ordinals (manifest : DenseQAWorkManifestProjection) : List Nat :=
  manifest.items.map (·.source.packageOrdinal) ++
    manifest.units.flatMap fun unit => unit.sourceItems.map (·.source.packageOrdinal)

def DenseQAUnitEvidence.ordinals (evidence : DenseQAUnitEvidence) : List Nat :=
  evidence.packages.map (·.ordinal) ++ evidence.packageCameraResults.flatMap (·.ordinals)

def DenseQAResultProjection.ordinals (result : DenseQAResultProjection) : List Nat :=
  result.units.flatMap (·.evidence.ordinals)

def QACompletionAggregate.ordinals (aggregate : QACompletionAggregate) : List Nat :=
  aggregate.cameraResults.flatMap fun camera =>
    camera.observations.map (·.packageOrdinal) ++ camera.denseObservations.flatMap (·.ordinals)

end Ordinals

/-- What this subsystem hashes. -/
inductive SemanticProjection
  | coarseResult (result : CoarseQAResult)
  | workUnit (unit : DenseQAWorkUnitProjection)
  | workManifest (manifest : DenseQAWorkManifestProjection)
  | unitResult (result : DenseQAUnitResultProjection)
  | denseResult (result : DenseQAResultProjection)
  | completion (result : QACompletionProjection)

/-- The JSON numbers of a projection that have no bound of their own.  Nanoseconds are written as
texts. -/
def SemanticProjection.ordinals : SemanticProjection → List Nat
  | .coarseResult result => result.packageCameraResults.flatMap (·.ordinals)
  | .workUnit unit => unit.sourceItems.map (·.source.packageOrdinal)
  | .workManifest manifest => manifest.ordinals
  | .unitResult result => result.evidence.ordinals
  | .denseResult result => result.ordinals
  | .completion result => result.coarseCoverage.map (·.packageOrdinal) ++
      result.denseWorkManifest.ordinals ++ result.denseResult.elim [] (·.ordinals) ++
      result.finalAggregate.elim [] (·.ordinals)

/-- `semantic_sha256`, and `uuid5` in the URL namespace. -/
structure Hashing where
  semanticSha256 : SemanticProjection → Option Sha256Digest
  uuid5 : String → OpaqueUuid

/-- The digests are those of RFC 8785. -/
def Hashing.Rfc8785 (H : Hashing) : Prop :=
  HashesExactly SemanticProjection.ordinals H.semanticSha256

def Hashing.digest (H : Hashing) (projection : SemanticProjection) :
    Except QAError Sha256Digest :=
  match H.semanticSha256 projection with
  | some digest => .ok digest
  | none => .error .canonicalization

/-- RFC 8785 represents every integer of the projection. -/
def SemanticProjection.Exact (projection : SemanticProjection) : Prop :=
  ∀ n ∈ projection.ordinals, n ≤ exactLimit

theorem Hashing.Rfc8785.digest_iff {H : Hashing} (h : H.Rfc8785)
    {projection : SemanticProjection} :
    (∃ digest, H.digest projection = .ok digest) ↔ projection.Exact := by
  have hexact := h projection
  unfold Hashing.digest SemanticProjection.Exact
  rw [← hexact]
  cases H.semanticSha256 projection <;> simp

/-- `_stable_id` of `dense.py`. -/
def Hashing.stableId (H : Hashing) (kind : String) (digest : Sha256Digest) : OpaqueUuid :=
  H.uuid5 ("robata:" ++ kind ++ ":" ++ digest)

/-- `_stable_id` of `completion.py`. -/
def Hashing.completionId (H : Hashing) (digest : Sha256Digest) : OpaqueUuid :=
  H.uuid5 ("robata:qa-completion:" ++ digest)

def Hashing.targetIntervalId (H : Hashing) (source : CoarseQAObservationRef) : OpaqueUuid :=
  H.uuid5 ("robata:dense-target-interval:" ++ source.packageId ++ ":" ++
    toString source.interval.startNs ++ ":" ++ toString source.interval.endNs)

/-! ## Checks -/

/-- A check of a validator: `raise ValueError(message)` unless the condition holds. -/
def require (condition : Prop) [Decidable condition] (message : String) : Except QAError Unit :=
  if condition then .ok () else .error (.value message)

@[simp] theorem require_eq_ok {condition : Prop} [Decidable condition] {message : String}
    {u : Unit} : require condition message = .ok u ↔ condition := by
  unfold require
  by_cases h : condition <;> simp [h]

@[simp] theorem require_bind_eq_ok {condition : Prop} [Decidable condition] {message : String}
    {α : Type} {rest : Unit → Except QAError α} {a : α} :
    (require condition message >>= rest) = .ok a ↔ condition ∧ rest () = .ok a := by
  unfold require
  by_cases h : condition <;> simp [h]

end Robata.QaPipeline
