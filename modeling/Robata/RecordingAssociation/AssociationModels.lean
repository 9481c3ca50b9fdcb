import Mathlib.Data.Prod.Lex
import Mathlib.Data.String.Basic
import Mathlib.Data.List.Lex
import Robata.Contracts.Common
import Robata.Lib.Sorting
import Robata.Lib.Transaction

/-!
# The records of recording association

The contract models of `recording_association.py` with their validators: accepted actions, bridges
between them, the policy, and the parts of the derived report.  A record that carries its own
identity extends the projection that is hashed for it.
-/

namespace Robata.RecordingAssociation

open Contracts Lib

/-- A contract refuses a value, the engine refuses its input, a key is missing in a dictionary, a
value has no canonical JSON, or a loop has not ended. -/
inductive AssociationError
  | value (message : String)
  | association (message : String)
  | key
  | canonicalization
  | endless
  deriving DecidableEq

/-- An integer from 0 to 1000000. -/
abbrev ConfidenceMillionths := Fin 1000001

instance neZeroConfidence : NeZero 1000001 := ⟨by decide⟩

inductive RecordingAssociationOutcome
  | associationsDerived
  | noAssociations
  deriving DecidableEq

inductive AssociationBridgeKind
  | gapContinuity
  | labelTransition
  deriving DecidableEq

inductive AssociationPairDisposition
  | merged
  | split
  | ambiguous
  deriving DecidableEq

inductive AssociationInputDisposition
  | associated
  | unassociated
  | ambiguous
  deriving DecidableEq

inductive AssociationReasonCode
  | touchingOrOverlappingSharedCamera
  | gapContinuityEvidence
  | labelTransitionEvidence
  | gapExceedsPolicy
  | insufficientSharedCameraSupport
  | gapRequiresBridgeEvidence
  | labelTransitionsDisabled
  | labelTransitionRequiresBridgeEvidence
  | bridgeDoesNotSpanInputs
  | bridgeConfidenceBelowPolicy
  | bridgeCameraNotSupportedByInputs
  | ambiguousTiedBridgeSupport
  | maxClusterMembersExceeded
  | associatedByExplicitEvidence
  | noSupportedAssociation
  | ambiguousAlternativeRetained
  deriving DecidableEq

def AssociationReasonCode.value : AssociationReasonCode → String
  | touchingOrOverlappingSharedCamera => "TOUCHING_OR_OVERLAPPING_SHARED_CAMERA"
  | gapContinuityEvidence => "GAP_CONTINUITY_EVIDENCE"
  | labelTransitionEvidence => "LABEL_TRANSITION_EVIDENCE"
  | gapExceedsPolicy => "GAP_EXCEEDS_POLICY"
  | insufficientSharedCameraSupport => "INSUFFICIENT_SHARED_CAMERA_SUPPORT"
  | gapRequiresBridgeEvidence => "GAP_REQUIRES_BRIDGE_EVIDENCE"
  | labelTransitionsDisabled => "LABEL_TRANSITIONS_DISABLED"
  | labelTransitionRequiresBridgeEvidence => "LABEL_TRANSITION_REQUIRES_BRIDGE_EVIDENCE"
  | bridgeDoesNotSpanInputs => "BRIDGE_DOES_NOT_SPAN_INPUTS"
  | bridgeConfidenceBelowPolicy => "BRIDGE_CONFIDENCE_BELOW_POLICY"
  | bridgeCameraNotSupportedByInputs => "BRIDGE_CAMERA_NOT_SUPPORTED_BY_INPUTS"
  | ambiguousTiedBridgeSupport => "AMBIGUOUS_TIED_BRIDGE_SUPPORT"
  | maxClusterMembersExceeded => "MAX_CLUSTER_MEMBERS_EXCEEDED"
  | associatedByExplicitEvidence => "ASSOCIATED_BY_EXPLICIT_EVIDENCE"
  | noSupportedAssociation => "NO_SUPPORTED_ASSOCIATION"
  | ambiguousAlternativeRetained => "AMBIGUOUS_ALTERNATIVE_RETAINED"

structure CompletedRecordingAssociationBinding where
  completedRunId : OpaqueUuid
  completedRecordingLogicalKey : NodeLogicalKey
  (completedRecordingSemanticSha256 completedRecordingExactSha256 : Sha256Digest)
  mcapId : OpaqueUuid
  (sourceContentSha256 cameraMappingSemanticSha256 alignmentSemanticSha256 : Sha256Digest)
  deriving DecidableEq

structure AssociationSourceActionRef where
  sourceActionLogicalKey : NodeLogicalKey
  sourceActionSemanticSha256 : Sha256Digest
  deriving DecidableEq

structure AssociationAcceptedEvidenceRef where
  sourceAction : AssociationSourceActionRef
  acceptedEvidenceLogicalKey : NodeLogicalKey
  (acceptedEvidenceSemanticSha256 acceptedEvidenceExactSha256 : Sha256Digest)
  cameraId : CameraId
  interval : NanosecondInterval
  label : String
  confidenceMillionths : ConfidenceMillionths
  deriving DecidableEq

/-- What identifies an association input. -/
structure RecordingAssociationInputProjection where
  sourceAction : AssociationSourceActionRef
  mcapId : OpaqueUuid
  (sourceContentSha256 cameraMappingSemanticSha256 alignmentSemanticSha256 : Sha256Digest)
  interval : NanosecondInterval
  label : String
  acceptedEvidence : List AssociationAcceptedEvidenceRef
  deriving DecidableEq

structure RecordingAssociationInput extends RecordingAssociationInputProjection where
  semanticSha256 : Sha256Digest
  deriving DecidableEq

/-- `input.source_action.source_action_logical_key`. -/
def RecordingAssociationInput.key (input : RecordingAssociationInput) : NodeLogicalKey :=
  input.sourceAction.sourceActionLogicalKey

structure RecordingAssociationBridgeEvidence where
  sourceActions : AssociationSourceActionRef × AssociationSourceActionRef
  acceptedBridgeEvidenceLogicalKey : NodeLogicalKey
  (acceptedBridgeEvidenceSemanticSha256 acceptedBridgeEvidenceExactSha256 : Sha256Digest)
  cameraId : CameraId
  interval : NanosecondInterval
  confidenceMillionths : ConfidenceMillionths
  kind : AssociationBridgeKind
  deriving DecidableEq

/-- What identifies a policy. -/
structure RecordingAssociationPolicyProjection where
  version : SchemaVersion
  maxGapNs : Nat
  (minInputConfidenceMillionths minBridgeConfidenceMillionths : ConfidenceMillionths)
  allowLabelTransitions : Bool
  maxInputs : Nat
  deriving DecidableEq

structure RecordingAssociationPolicy extends RecordingAssociationPolicyProjection where
  semanticSha256 : Sha256Digest
  deriving DecidableEq

structure RecordingAssociationPairDecision where
  sourceActions : AssociationSourceActionRef × AssociationSourceActionRef
  disposition : AssociationPairDisposition
  reasonCodes : List AssociationReasonCode
  temporalGapNs : Nat
  sharedCameraIds : List CameraId
  bridgeEvidenceLogicalKeys : List NodeLogicalKey
  selectedBridgeEvidenceLogicalKey : Option NodeLogicalKey
  confidenceMillionths : Option ConfidenceMillionths
  deriving DecidableEq

structure RecordingAssociationInputDecision where
  sourceAction : AssociationSourceActionRef
  disposition : AssociationInputDisposition
  reasonCodes : List AssociationReasonCode
  deriving DecidableEq

structure RecordingAssociationCluster where
  ordinal : Nat
  sourceActions : List AssociationSourceActionRef
  interval : NanosecondInterval
  labels : List String
  continuityConfidenceMillionths : ConfidenceMillionths
  deriving DecidableEq

/-- What identifies a report. -/
structure RecordingAssociationReportProjection where
  recording : CompletedRecordingAssociationBinding
  policy : RecordingAssociationPolicy
  inputs : List RecordingAssociationInput
  bridgeEvidence : List RecordingAssociationBridgeEvidence
  pairDecisions : List RecordingAssociationPairDecision
  inputDecisions : List RecordingAssociationInputDecision
  clusters : List RecordingAssociationCluster
  outcome : RecordingAssociationOutcome
  deriving DecidableEq

/-- Content-addressed association report. -/
structure RecordingAssociationReport extends RecordingAssociationReportProjection where
  semanticSha256 : Sha256Digest
  logicalKey : NodeLogicalKey
  deriving DecidableEq

/-! ## Identities -/

/-- What this subsystem hashes. -/
inductive SemanticProjection
  | policy (policy : RecordingAssociationPolicyProjection)
  | input (input : RecordingAssociationInputProjection)
  | report (report : RecordingAssociationReportProjection)

/-- `semantic_sha256`; it has no value where the projection has no canonical JSON. -/
structure Hashing where
  semanticSha256 : SemanticProjection → Option Sha256Digest

/-- The integers of a policy in its JSON form. -/
def RecordingAssociationPolicyProjection.integers (policy : RecordingAssociationPolicyProjection) :
    List Nat :=
  [policy.maxGapNs, policy.minInputConfidenceMillionths, policy.minBridgeConfidenceMillionths,
    policy.maxInputs]

/-- The integers of an input in its JSON form; nanoseconds are written as strings. -/
def RecordingAssociationInputProjection.integers (input : RecordingAssociationInputProjection) :
    List Nat :=
  input.acceptedEvidence.map (·.confidenceMillionths.val)

/-- The integers of a projection in its JSON form.  The gap of a pair is one of them. -/
def SemanticProjection.integers : SemanticProjection → List Nat
  | .policy values => values.integers
  | .input values => values.integers
  | .report values =>
    values.policy.integers ++
    values.inputs.flatMap (·.integers) ++
    values.bridgeEvidence.map (·.confidenceMillionths.val) ++
    values.pairDecisions.flatMap (fun decision =>
      decision.temporalGapNs :: (decision.confidenceMillionths.map (·.val)).toList) ++
    values.clusters.flatMap fun cluster =>
      [cluster.ordinal, cluster.continuityConfidenceMillionths.val]

/-- A projection has canonical JSON exactly if RFC 8785 represents its integers. -/
def Hashing.Rfc8785 (H : Hashing) : Prop :=
  HashesExactly SemanticProjection.integers H.semanticSha256

/-! ## Keys -/

def AssociationSourceActionRef.sortKey (item : AssociationSourceActionRef) : String ×ₗ String :=
  toLex (item.sourceActionLogicalKey, item.sourceActionSemanticSha256)

def AssociationAcceptedEvidenceRef.sortKey (item : AssociationAcceptedEvidenceRef) :
    Int ×ₗ Int ×ₗ String ×ₗ String :=
  toLex (item.interval.startNs, toLex (item.interval.endNs,
    toLex (item.cameraId.value, item.acceptedEvidenceLogicalKey)))

def RecordingAssociationInput.sortKey (item : RecordingAssociationInput) :
    Int ×ₗ Int ×ₗ String ×ₗ String :=
  toLex (item.interval.startNs, toLex (item.interval.endNs, toLex (item.label, item.key)))

def RecordingAssociationBridgeEvidence.sortKey (item : RecordingAssociationBridgeEvidence) :
    String ×ₗ String ×ₗ String :=
  toLex (item.sourceActions.1.sourceActionLogicalKey,
    toLex (item.sourceActions.2.sourceActionLogicalKey, item.acceptedBridgeEvidenceLogicalKey))

def orderedSourceActionPair (left right : AssociationSourceActionRef) :
    AssociationSourceActionRef × AssociationSourceActionRef :=
  if left.sortKey ≤ right.sortKey then (left, right) else (right, left)

def pairKey (left right : AssociationSourceActionRef) : String ×ₗ String :=
  if left.sourceActionLogicalKey ≤ right.sourceActionLogicalKey then
    toLex (left.sourceActionLogicalKey, right.sourceActionLogicalKey)
  else toLex (right.sourceActionLogicalKey, left.sourceActionLogicalKey)

def RecordingAssociationPairDecision.key (item : RecordingAssociationPairDecision) :
    String ×ₗ String := pairKey item.sourceActions.1 item.sourceActions.2

def RecordingAssociationCluster.sortKey (item : RecordingAssociationCluster) :
    Int ×ₗ Int ×ₗ List String :=
  toLex (item.interval.startNs, toLex (item.interval.endNs,
    item.sourceActions.map (·.sourceActionLogicalKey)))

def canonicalCameraIds (cameraIds : List CameraId) : List CameraId :=
  CameraId.all.filter fun cameraId => decide (cameraId ∈ cameraIds)

/-- `a, b` for every two places of a list, in order. -/
def pairs {α : Type} : List α → List (α × α)
  | [] => []
  | left :: rest => rest.map (fun right => (left, right)) ++ pairs rest

/-! ## Validators -/

/-- A check of a validator: `raise ValueError(message)` unless the condition holds. -/
def require (condition : Prop) [Decidable condition] (message : String) :
    Except AssociationError Unit :=
  if condition then .ok () else .error (.value message)

/-- A check of the engine: `raise RecordingAssociationError(message)` unless the condition holds. -/
def requireInput (condition : Prop) [Decidable condition] (message : String) :
    Except AssociationError Unit :=
  if condition then .ok () else .error (.association message)

/-- `_require_logical_key_digest`: what follows the last colon is the digest. -/
def requireLogicalKeyDigest (logicalKey : NodeLogicalKey) (digest : Sha256Digest)
    (subject : String) : Except AssociationError Unit :=
  require ((logicalKey.toList.reverse.takeWhile fun c => c != ':').reverse = digest.toList)
    (subject ++ " logical key must end with its semantic SHA-256")

def CompletedRecordingAssociationBinding.validateBinding
    (recording : CompletedRecordingAssociationBinding) : Except AssociationError Unit :=
  requireLogicalKeyDigest recording.completedRecordingLogicalKey
    recording.completedRecordingSemanticSha256 "completed recording"

def AssociationSourceActionRef.validateIdentity (ref : AssociationSourceActionRef) :
    Except AssociationError Unit :=
  requireLogicalKeyDigest ref.sourceActionLogicalKey ref.sourceActionSemanticSha256 "source action"

def AssociationAcceptedEvidenceRef.modelValidate (ref : AssociationAcceptedEvidenceRef) :
    Except AssociationError Unit := do
  ref.sourceAction.validateIdentity
  requireLogicalKeyDigest ref.acceptedEvidenceLogicalKey ref.acceptedEvidenceSemanticSha256
    "accepted evidence"

variable (H : Hashing)

def RecordingAssociationInput.modelValidate (input : RecordingAssociationInput) :
    Except AssociationError Unit := do
  input.sourceAction.validateIdentity
  input.acceptedEvidence.forM (·.modelValidate)
  require (input.acceptedEvidence ≠ []) "recording association input requires accepted evidence"
  require (input.acceptedEvidence = sortedBy (·.sortKey) input.acceptedEvidence)
    "recording association accepted evidence must be canonically ordered"
  require (input.acceptedEvidence.map (·.acceptedEvidenceLogicalKey)).Nodup
    "recording association accepted evidence must be unique"
  require (∀ item ∈ input.acceptedEvidence,
      item.sourceAction = input.sourceAction ∧ item.label = input.label)
    "accepted evidence must bind the input source action and label"
  require (some input.interval.startNs = (input.acceptedEvidence.map (·.interval.startNs)).min? ∧
      some input.interval.endNs = (input.acceptedEvidence.map (·.interval.endNs)).max?)
    "input interval must be the accepted-evidence envelope"
  require (some input.semanticSha256 =
      H.semanticSha256 (.input input.toRecordingAssociationInputProjection))
    "recording association input semantic identity is inconsistent"

def RecordingAssociationBridgeEvidence.modelValidate
    (bridge : RecordingAssociationBridgeEvidence) : Except AssociationError Unit := do
  bridge.sourceActions.1.validateIdentity
  bridge.sourceActions.2.validateIdentity
  require (bridge.sourceActions.1 ≠ bridge.sourceActions.2)
    "bridge evidence must bind two distinct source actions"
  require (bridge.sourceActions.1.sortKey ≤ bridge.sourceActions.2.sortKey)
    "bridge source actions must be canonically ordered"
  requireLogicalKeyDigest bridge.acceptedBridgeEvidenceLogicalKey
    bridge.acceptedBridgeEvidenceSemanticSha256 "accepted bridge evidence"

def RecordingAssociationPolicy.validateIdentity (policy : RecordingAssociationPolicy) :
    Except AssociationError Unit :=
  require (some policy.semanticSha256 =
      H.semanticSha256 (.policy policy.toRecordingAssociationPolicyProjection))
    "recording association policy semantic identity is inconsistent"

def RecordingAssociationPairDecision.validateDecision
    (decision : RecordingAssociationPairDecision) : Except AssociationError Unit := do
  require (decision.sourceActions.1 ≠ decision.sourceActions.2)
    "pair decision must bind two distinct source actions"
  require (decision.sourceActions.1.sortKey ≤ decision.sourceActions.2.sortKey)
    "pair decision source actions must be canonically ordered"
  require (decision.reasonCodes ≠ [] ∧
      decision.reasonCodes = canonical (·.value) decision.reasonCodes)
    "pair decision reasons must be unique and canonically ordered"
  require (decision.sharedCameraIds = canonicalCameraIds decision.sharedCameraIds)
    "pair decision cameras must be unique and canonically ordered"
  require (decision.bridgeEvidenceLogicalKeys =
      canonical (fun key => key) decision.bridgeEvidenceLogicalKeys)
    "pair decision bridge references must be unique and ordered"
  require (∀ key ∈ decision.selectedBridgeEvidenceLogicalKey,
      key ∈ decision.bridgeEvidenceLogicalKeys)
    "selected bridge evidence must be present in the decision evidence"
  require (decision.disposition = .merged → decision.confidenceMillionths ≠ none)
    "merged pair decision requires explicit confidence"
  require (decision.disposition = .merged → decision.sharedCameraIds ≠ [])
    "merged pair decision requires shared camera evidence"

def RecordingAssociationInputDecision.validateDecision
    (decision : RecordingAssociationInputDecision) : Except AssociationError Unit :=
  require (decision.reasonCodes ≠ [] ∧
      decision.reasonCodes = canonical (·.value) decision.reasonCodes)
    "input decision reasons must be unique and canonically ordered"

def RecordingAssociationCluster.validateCluster (cluster : RecordingAssociationCluster) :
    Except AssociationError Unit := do
  require (2 ≤ cluster.sourceActions.length)
    "association cluster requires at least two source actions"
  require (cluster.sourceActions = sortedBy (·.sortKey) cluster.sourceActions)
    "cluster source actions must be canonically ordered"
  require (cluster.sourceActions.map (·.sourceActionLogicalKey)).Nodup
    "cluster source actions must be unique"
  require (cluster.labels = canonical (fun label => label) cluster.labels)
    "cluster labels must be unique and canonically ordered"

def validateInputLineage (recording : CompletedRecordingAssociationBinding)
    (inputs : List RecordingAssociationInput) : Except AssociationError Unit :=
  requireInput (∀ item ∈ inputs, item.mcapId = recording.mcapId ∧
      item.sourceContentSha256 = recording.sourceContentSha256 ∧
      item.cameraMappingSemanticSha256 = recording.cameraMappingSemanticSha256 ∧
      item.alignmentSemanticSha256 = recording.alignmentSemanticSha256)
    "association input does not bind the completed recording"

/-- One round of `_validate_bridges`. -/
def validateBridge (inputs : List RecordingAssociationInput)
    (bridge : RecordingAssociationBridgeEvidence) : Except AssociationError Unit := do
  let refs := [bridge.sourceActions.1, bridge.sourceActions.2]
  requireInput (∀ ref ∈ refs, ref.sourceActionLogicalKey ∈ inputs.map (·.key))
    "bridge evidence references a foreign association input"
  requireInput (∀ ref ∈ refs, ∀ item ∈ inputs,
      item.key = ref.sourceActionLogicalKey → item.sourceAction = ref)
    "bridge evidence source action identity is inconsistent"

def validateBridges (inputs : List RecordingAssociationInput)
    (bridges : List RecordingAssociationBridgeEvidence) : Except AssociationError Unit :=
  bridges.forM (validateBridge inputs)

/-- The outcome of a report with the given clusters. -/
def outcomeOf (clusters : List RecordingAssociationCluster) : RecordingAssociationOutcome :=
  if clusters ≠ [] then .associationsDerived else .noAssociations

/-- The last check of `validate_report`, on the digest of the projection. -/
def RecordingAssociationReport.validateIdentity (report : RecordingAssociationReport) :
    Option Sha256Digest → Except AssociationError Unit
  | none => .error .canonicalization
  | some digest =>
    require (report.semanticSha256 = digest ∧
        report.logicalKey = "recording-association-report-v1:" ++ digest)
      "recording association report semantic identity is inconsistent"

def RecordingAssociationReport.validateReport (report : RecordingAssociationReport) :
    Except AssociationError Unit := do
  require (report.inputs ≠ []) "recording association report requires at least one input"
  require (report.inputs = sortedBy (·.sortKey) report.inputs)
    "report inputs must be canonically ordered"
  require (report.inputs.map (·.key)).Nodup "report inputs must have unique source actions"
  validateInputLineage report.recording report.inputs
  require (report.bridgeEvidence = sortedBy (·.sortKey) report.bridgeEvidence)
    "report bridge evidence must be canonically ordered"
  require (report.bridgeEvidence.map (·.acceptedBridgeEvidenceLogicalKey)).Nodup
    "report bridge evidence must be unique"
  validateBridges report.inputs report.bridgeEvidence
  require (report.pairDecisions = sortedBy (·.key) report.pairDecisions)
    "report pair decisions must be canonically ordered"
  let expectedPairKeys := (pairs report.inputs).map fun p =>
    pairKey p.1.sourceAction p.2.sourceAction
  let actualPairKeys := report.pairDecisions.map (·.key)
  require (actualPairKeys ⊆ expectedPairKeys ∧ expectedPairKeys ⊆ actualPairKeys ∧
      actualPairKeys.Nodup)
    "report must retain exactly one decision for every input pair"
  require (report.inputDecisions.map (·.sourceAction) = report.inputs.map (·.sourceAction))
    "report must retain exactly one ordered input decision per input"
  require (report.clusters = sortedBy (·.sortKey) report.clusters ∧
      report.clusters.map (·.ordinal) = List.range report.clusters.length)
    "report clusters must be canonically ordered and ordinaled"
  let clusterMembers : List NodeLogicalKey := report.clusters.flatMap fun cluster =>
    cluster.sourceActions.map (·.sourceActionLogicalKey)
  require clusterMembers.Nodup "a source action cannot appear in multiple association clusters"
  require (∀ key ∈ clusterMembers, key ∈ report.inputs.map (·.key))
    "association cluster references a foreign input"
  require (report.outcome = outcomeOf report.clusters)
    "association report outcome does not match its clusters"
  report.validateIdentity (H.semanticSha256 (.report report.toRecordingAssociationReportProjection))

@[simp] theorem require_eq_ok {condition : Prop} [Decidable condition] {message : String}
    {u : Unit} : require condition message = .ok u ↔ condition := by
  unfold require
  by_cases h : condition <;> simp [h]

@[simp] theorem require_bind_eq_ok {condition : Prop} [Decidable condition] {message : String}
    {α : Type} {rest : Unit → Except AssociationError α} {a : α} :
    (require condition message >>= rest) = .ok a ↔ condition ∧ rest () = .ok a := by
  unfold require
  by_cases h : condition <;> simp [h]

@[simp] theorem requireInput_eq_ok {condition : Prop} [Decidable condition] {message : String}
    {u : Unit} : requireInput condition message = .ok u ↔ condition := by
  unfold requireInput
  by_cases h : condition <;> simp [h]

end Robata.RecordingAssociation
