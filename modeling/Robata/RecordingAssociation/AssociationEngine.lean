import Robata.Lib.Buckets
import Robata.Lib.DisjointSet
import Robata.RecordingAssociation.AssociationModels

/-!
# The recording association engine

`RecordingAssociationEngine.derive` and the functions it calls.  Every pair of inputs is classified,
ties between bridges make pairs ambiguous, the edges that remain are joined in a disjoint set, and
the trees of two and more inputs become the clusters of the report.  The dictionaries
`initial_decisions` and `candidate_edges` are filled in the same loop and are one list here; the
loops of the disjoint set have the number of inputs as fuel.
-/

namespace Robata.RecordingAssociation

open Contracts Lib

/-- The value, or the exception that its absence raises. -/
def orRaise {α : Type} (error : AssociationError) : Option α → Except AssociationError α
  | some a => .ok a
  | none => .error error

/-- `min()` and `max()` of nothing. -/
def emptyIterable : AssociationError := .value "iterable argument is empty"

/-! ## Pairs -/

/-- `_CandidateEdge`; its pair key is that of its two source actions. -/
structure CandidateEdge where
  (left right : AssociationSourceActionRef)
  reason : AssociationReasonCode
  temporalGapNs : Nat
  confidenceMillionths : ConfidenceMillionths
  sharedCameraIds : List CameraId
  bridgeEvidence : List RecordingAssociationBridgeEvidence

/-- `edge.pair_key`. -/
def CandidateEdge.key (edge : CandidateEdge) : String ×ₗ String := pairKey edge.left edge.right

def CandidateEdge.sortKey (edge : CandidateEdge) : Nat ×ₗ String ×ₗ String ×ₗ String :=
  toLex (if edge.reason = .touchingOrOverlappingSharedCamera then 0 else 1,
    toLex (edge.left.sourceActionLogicalKey,
      toLex (edge.right.sourceActionLogicalKey, edge.reason.value)))

def CandidateEdge.bridgeKeys (edge : CandidateEdge) : List NodeLogicalKey :=
  edge.bridgeEvidence.map (·.acceptedBridgeEvidenceLogicalKey)

def temporalGap (left right : NanosecondInterval) : Nat :=
  if left.endNs < right.startNs then (right.startNs - left.endNs).toNat
  else if right.endNs < left.startNs then (left.startNs - right.endNs).toNat
  else 0

/-- One round of `_camera_confidences`. -/
def raiseConfidence (values : CameraId → Option ConfidenceMillionths)
    (evidence : AssociationAcceptedEvidenceRef) : CameraId → Option ConfidenceMillionths :=
  Function.update values evidence.cameraId
    (some (max ((values evidence.cameraId).getD 0) evidence.confidenceMillionths))

def cameraConfidences (input : RecordingAssociationInput) :
    CameraId → Option ConfidenceMillionths :=
  input.acceptedEvidence.foldl raiseConfidence fun _ => none

def sharedSupportedCameras (left right : RecordingAssociationInput)
    (minimumConfidence : ConfidenceMillionths) : List CameraId :=
  CameraId.all.filter fun cameraId =>
    decide (minimumConfidence ≤ (cameraConfidences left cameraId).getD 0 ∧
      minimumConfidence ≤ (cameraConfidences right cameraId).getD 0)

/-- The evidence of an input on a camera that has the confidence. -/
def confidentEvidence (input : RecordingAssociationInput) (cameraId : CameraId)
    (minimumConfidence : ConfidenceMillionths) : List AssociationAcceptedEvidenceRef :=
  input.acceptedEvidence.filter fun item =>
    decide (item.cameraId = cameraId ∧ minimumConfidence ≤ item.confidenceMillionths)

def sharedTouchingOrOverlappingCameras (left right : RecordingAssociationInput)
    (minimumConfidence : ConfidenceMillionths) : List CameraId :=
  CameraId.all.filter fun cameraId =>
    decide (∃ leftItem ∈ confidentEvidence left cameraId minimumConfidence,
      ∃ rightItem ∈ confidentEvidence right cameraId minimumConfidence,
        temporalGap leftItem.interval rightItem.interval = 0)

/-- The lower of the confidences of two inputs on a camera. -/
def sharedConfidence (left right : RecordingAssociationInput) (cameraId : CameraId) :
    Except AssociationError ConfidenceMillionths := do
  let leftConfidence ← orRaise .key (cameraConfidences left cameraId)
  let rightConfidence ← orRaise .key (cameraConfidences right cameraId)
  return min leftConfidence rightConfidence

def sharedInputConfidence (left right : RecordingAssociationInput)
    (sharedCameraIds : List CameraId) : Except AssociationError ConfidenceMillionths := do
  let confidences ← sharedCameraIds.mapM (sharedConfidence left right)
  orRaise emptyIterable confidences.min?

def bridgeSpansInputs (bridge : RecordingAssociationBridgeEvidence)
    (left right : RecordingAssociationInput) : Bool :=
  let (earlier, later) :=
    if toLex (left.interval.startNs, left.interval.endNs) ≤
        toLex (right.interval.startNs, right.interval.endNs) then (left, right)
    else (right, left)
  decide (bridge.interval.startNs ≤ earlier.interval.endNs ∧
    later.interval.startNs ≤ bridge.interval.endNs)

/-- Why a bridge of the expected kind is not eligible. -/
def bridgeFailure (left right : RecordingAssociationInput)
    (minimumConfidence : ConfidenceMillionths) (bridge : RecordingAssociationBridgeEvidence) :
    Option AssociationReasonCode :=
  if bridge.confidenceMillionths < minimumConfidence then some .bridgeConfidenceBelowPolicy
  else if (cameraConfidences left bridge.cameraId).getD 0 < minimumConfidence ∨
      (cameraConfidences right bridge.cameraId).getD 0 < minimumConfidence then
    some .bridgeCameraNotSupportedByInputs
  else if ¬ bridgeSpansInputs bridge left right then some .bridgeDoesNotSpanInputs
  else none

def eligibleBridges (left right : RecordingAssociationInput)
    (bridges : List RecordingAssociationBridgeEvidence) (expectedKind : AssociationBridgeKind)
    (minimumConfidence : ConfidenceMillionths) :
    List RecordingAssociationBridgeEvidence × Option AssociationReasonCode :=
  let expected := bridges.filter fun bridge => decide (bridge.kind = expectedKind)
  let candidates := expected.filter fun bridge =>
    decide (bridgeFailure left right minimumConfidence bridge = none)
  let failureReasons := expected.filterMap (bridgeFailure left right minimumConfidence)
  if candidates ≠ [] then (sortedBy (·.sortKey) candidates, none)
  else ([], (canonical (·.value) failureReasons).head?)

/-! ## Decisions -/

/-- The constructor of a pair decision, with its validation. -/
def construct (decision : RecordingAssociationPairDecision) :
    Except AssociationError RecordingAssociationPairDecision := do
  decision.validateDecision
  return decision

/-- `_pair_decision`, for a pair that is split for a reason. -/
def pairDecision (left right : RecordingAssociationInput) (reason : AssociationReasonCode)
    (gapNs : Nat) (sharedCameraIds : List CameraId) (bridgeKeys : List NodeLogicalKey) :
    RecordingAssociationPairDecision where
  sourceActions := orderedSourceActionPair left.sourceAction right.sourceAction
  disposition := .split
  reasonCodes := canonical (·.value) [reason]
  temporalGapNs := gapNs
  sharedCameraIds := canonicalCameraIds sharedCameraIds
  bridgeEvidenceLogicalKeys := canonical (fun key => key) bridgeKeys
  selectedBridgeEvidenceLogicalKey := none
  confidenceMillionths := none

def edgeDecision (edge : CandidateEdge) (disposition : AssociationPairDisposition)
    (reason : AssociationReasonCode) (selected : Option NodeLogicalKey) :
    RecordingAssociationPairDecision where
  sourceActions := orderedSourceActionPair edge.left edge.right
  disposition := disposition
  reasonCodes := [reason]
  temporalGapNs := edge.temporalGapNs
  sharedCameraIds := edge.sharedCameraIds
  bridgeEvidenceLogicalKeys := edge.bridgeKeys
  selectedBridgeEvidenceLogicalKey := selected
  confidenceMillionths := some edge.confidenceMillionths

def mergedPairDecision (edge : CandidateEdge) : RecordingAssociationPairDecision :=
  edgeDecision edge .merged edge.reason
    (if edge.bridgeKeys.length = 1 then edge.bridgeKeys.head? else none)

def ambiguousPairDecision (edge : CandidateEdge) : RecordingAssociationPairDecision :=
  edgeDecision edge .ambiguous .ambiguousTiedBridgeSupport none

def splitForClusterLimit (edge : CandidateEdge) : RecordingAssociationPairDecision :=
  edgeDecision edge .split .maxClusterMembersExceeded none

/-- A pair that has been classified: its decision, and its edge if it is a candidate. -/
structure Classified where
  decision : RecordingAssociationPairDecision
  edge : Option CandidateEdge

/-- A split of `_classify_pair`. -/
def splitPair (left right : RecordingAssociationInput) (reason : AssociationReasonCode)
    (sharedCameraIds : List CameraId) (bridges : List RecordingAssociationBridgeEvidence) :
    Except AssociationError Classified := do
  let decision ← construct (pairDecision left right reason
    (temporalGap left.interval right.interval) sharedCameraIds
    (bridges.map (·.acceptedBridgeEvidenceLogicalKey)))
  return ⟨decision, none⟩

/-- The first branch of `_classify_pair`: inputs with one label that touch or overlap. -/
def classifyTouching (policy : RecordingAssociationPolicy) (left right : RecordingAssociationInput)
    (bridges : List RecordingAssociationBridgeEvidence) : Except AssociationError Classified :=
  let sharedCameraIds :=
    sharedTouchingOrOverlappingCameras left right policy.minInputConfidenceMillionths
  if sharedCameraIds = [] then
    splitPair left right .insufficientSharedCameraSupport sharedCameraIds bridges
  else do
    let confidence ← sharedInputConfidence left right sharedCameraIds
    let edge : CandidateEdge := {
      left := left.sourceAction
      right := right.sourceAction
      reason := .touchingOrOverlappingSharedCamera
      temporalGapNs := temporalGap left.interval right.interval
      confidenceMillionths := confidence
      sharedCameraIds := sharedCameraIds
      bridgeEvidence := [] }
    let decision ← construct (mergedPairDecision edge)
    return ⟨decision, some edge⟩

/-- The edge of a pair with its best bridges. -/
def bridgedEdge (left right : RecordingAssociationInput) (sharedCameraIds : List CameraId)
    (topConfidence : ConfidenceMillionths)
    (candidates : List RecordingAssociationBridgeEvidence) : CandidateEdge where
  left := left.sourceAction
  right := right.sourceAction
  reason := if left.label ≠ right.label then .labelTransitionEvidence else .gapContinuityEvidence
  temporalGapNs := temporalGap left.interval right.interval
  confidenceMillionths := topConfidence
  sharedCameraIds := sharedCameraIds
  bridgeEvidence := candidates.filter fun item => decide (item.confidenceMillionths = topConfidence)

/-- The decision on a pair with eligible bridges: a tie leaves it ambiguous. -/
def bridgedDecision (edge : CandidateEdge) : RecordingAssociationPairDecision :=
  if 1 < edge.bridgeEvidence.length then ambiguousPairDecision edge else mergedPairDecision edge

/-- The last part of `_classify_pair`: inputs that only a bridge can merge. -/
def classifyBridged (policy : RecordingAssociationPolicy) (left right : RecordingAssociationInput)
    (sharedCameraIds : List CameraId) (bridges : List RecordingAssociationBridgeEvidence) :
    Except AssociationError Classified :=
  let expectedKind : AssociationBridgeKind :=
    if left.label ≠ right.label then .labelTransition else .gapContinuity
  let (candidates, failureReason) :=
    eligibleBridges left right bridges expectedKind policy.minBridgeConfidenceMillionths
  match (candidates.map (·.confidenceMillionths)).max? with
  | none =>
    let reason := failureReason.getD
      (if left.label ≠ right.label then .labelTransitionRequiresBridgeEvidence
        else .gapRequiresBridgeEvidence)
    splitPair left right reason sharedCameraIds bridges
  | some topConfidence => do
      let edge := bridgedEdge left right sharedCameraIds topConfidence candidates
      let decision ← construct (bridgedDecision edge)
      return ⟨decision, some edge⟩

def classifyPair (policy : RecordingAssociationPolicy) (left right : RecordingAssociationInput)
    (bridges : List RecordingAssociationBridgeEvidence) : Except AssociationError Classified :=
  let gapNs := temporalGap left.interval right.interval
  let sharedCameraIds :=
    sharedSupportedCameras left right policy.minInputConfidenceMillionths
  if left.label = right.label ∧ gapNs = 0 then classifyTouching policy left right bridges
  else if policy.maxGapNs < gapNs then
    splitPair left right .gapExceedsPolicy sharedCameraIds bridges
  else if sharedCameraIds = [] then
    splitPair left right .insufficientSharedCameraSupport sharedCameraIds bridges
  else if left.label ≠ right.label ∧ ¬ policy.allowLabelTransitions then
    splitPair left right .labelTransitionsDisabled sharedCameraIds bridges
  else classifyBridged policy left right sharedCameraIds bridges

/-! ## Ties -/

/-- The side of an input on which another one lies. -/
inductive Side
  | earlier
  | later
  deriving DecidableEq

def inputByKey (inputs : List RecordingAssociationInput) (key : NodeLogicalKey) :
    Except AssociationError RecordingAssociationInput :=
  orRaise .key (inputs.find? fun item => decide (item.key = key))

/-- What decides which of two inputs is the earlier one. -/
def RecordingAssociationInput.position (input : RecordingAssociationInput) : Int ×ₗ Int ×ₗ String :=
  toLex (input.interval.startNs, toLex (input.interval.endNs, input.key))

/-- The side of the source on which the other input lies. -/
def sideOf (sourceInput otherInput : RecordingAssociationInput) : Side :=
  if otherInput.position < sourceInput.position then .earlier else .later

/-- A round of the first loop of `_ambiguous_bridge_pairs`: the places at which an edge with
bridges is a choice. -/
def choicesOf (inputs : List RecordingAssociationInput) (edge : CandidateEdge) :
    Except AssociationError (List ((NodeLogicalKey × Side) × CandidateEdge)) :=
  if edge.bridgeEvidence = [] then .ok []
  else do
    let leftInput ← inputByKey inputs edge.left.sourceActionLogicalKey
    let rightInput ← inputByKey inputs edge.right.sourceActionLogicalKey
    return [((edge.left.sourceActionLogicalKey, sideOf leftInput rightInput), edge),
      ((edge.right.sourceActionLogicalKey, sideOf rightInput leftInput), edge)]

/-- A round of its second loop: the choices of a place that share the highest confidence. -/
def tiedPairs (choices : List CandidateEdge) : List (String ×ₗ String) :=
  let top := (choices.map (·.confidenceMillionths)).max?
  let tied := choices.filter fun item => decide (some item.confidenceMillionths = top)
  if 1 < tied.length then tied.map (·.key) else []

def ambiguousBridgePairs (inputs : List RecordingAssociationInput) (edges : List CandidateEdge) :
    Except AssociationError (List (String ×ₗ String)) := do
  let perSide ← edges.mapM (choicesOf inputs)
  let choices := perSide.flatten
  let ambiguous := (edges.filter fun edge => decide (1 < edge.bridgeEvidence.length)).map (·.key)
  return ambiguous ++ (bucketKeys Prod.fst choices).flatMap fun place =>
    tiedPairs ((inBucket Prod.fst choices place).map Prod.snd)

/-- A candidate edge among the ambiguous pairs changes the decision on its pair. -/
def resolveAmbiguous (ambiguousPairs : List (String ×ₗ String)) (classified : Classified) :
    Except AssociationError RecordingAssociationPairDecision :=
  match classified.edge with
  | none => .ok classified.decision
  | some edge =>
    if edge.key ∈ ambiguousPairs then construct (ambiguousPairDecision edge)
    else .ok classified.decision

/-! ## Components -/

/-- The size that the component of an edge would have. -/
def joinedSize (fuel : Nat) (disjoint : DisjointSet String) (edge : CandidateEdge) :
    Option (Nat × DisjointSet String) := do
  let (leftSize, disjoint) ← disjoint.componentSize fuel edge.left.sourceActionLogicalKey
  let (leftRoot, disjoint) ← disjoint.find fuel edge.left.sourceActionLogicalKey
  let (rightRoot, disjoint) ← disjoint.find fuel edge.right.sourceActionLogicalKey
  if leftRoot ≠ rightRoot then
    let (rightSize, disjoint) ← disjoint.componentSize fuel edge.right.sourceActionLogicalKey
    return (leftSize + rightSize, disjoint)
  else return (leftSize, disjoint)

/-- `final_decisions[key] = decision`, for a key that is there. -/
def assign (decisions : List RecordingAssociationPairDecision)
    (decision : RecordingAssociationPairDecision) : List RecordingAssociationPairDecision :=
  decisions.map fun other => if other.key = decision.key then decision else other

/-- A round of the loop over the accepted edges. -/
def joinEdge (fuel maxInputs : Nat)
    (state : List RecordingAssociationPairDecision × DisjointSet String) (edge : CandidateEdge) :
    Except AssociationError (List RecordingAssociationPairDecision × DisjointSet String) := do
  let (size, disjoint) ← orRaise .endless (joinedSize fuel state.2 edge)
  if maxInputs < size then
    let decision ← construct (splitForClusterLimit edge)
    return (assign state.1 decision, disjoint)
  else
    let disjoint ← orRaise .endless
      (disjoint.union fuel edge.left.sourceActionLogicalKey edge.right.sourceActionLogicalKey)
    return (state.1, disjoint)

/-- The merged decisions between members. -/
def internalDecisions (decisions : List RecordingAssociationPairDecision)
    (members : List NodeLogicalKey) : List RecordingAssociationPairDecision :=
  decisions.filter fun decision =>
    decide (decision.disposition = .merged ∧
      decision.sourceActions.1.sourceActionLogicalKey ∈ members ∧
      decision.sourceActions.2.sourceActionLogicalKey ∈ members)

/-- A round of `_build_clusters`: the cluster of a group of two and more inputs. -/
def buildCluster (inputs : List RecordingAssociationInput)
    (decisions : List RecordingAssociationPairDecision) (memberKeys : List NodeLogicalKey) :
    Except AssociationError RecordingAssociationCluster := do
  let members := sortedBy (fun key => key) memberKeys
  let memberInputs ← members.mapM (inputByKey inputs)
  let confidence ← orRaise emptyIterable
    ((internalDecisions decisions members).filterMap (·.confidenceMillionths)).min?
  let startNs ← orRaise emptyIterable (memberInputs.map (·.interval.startNs)).min?
  let endNs ← orRaise emptyIterable (memberInputs.map (·.interval.endNs)).max?
  let interval ← orRaise (.value "interval must be non-empty")
    (NanosecondInterval.make? startNs endNs)
  let cluster : RecordingAssociationCluster := {
    ordinal := 0
    sourceActions := memberInputs.map (·.sourceAction)
    interval := interval
    labels := canonical (fun label => label) (memberInputs.map (·.label))
    continuityConfidenceMillionths := confidence }
  cluster.validateCluster
  return cluster

/-- The keys of the inputs, in groups that have one root. -/
def groupsOf (roots keys : List NodeLogicalKey) : List (List NodeLogicalKey) :=
  let rooted := roots.zip keys
  (bucketKeys Prod.fst rooted).map fun root => (inBucket Prod.fst rooted root).map Prod.snd

def buildClusters (inputs : List RecordingAssociationInput)
    (decisions : List RecordingAssociationPairDecision) (disjoint : DisjointSet String) :
    Except AssociationError (List RecordingAssociationCluster) := do
  let keys := inputs.map (·.key)
  let (roots, _) ← orRaise .endless (disjoint.findAll inputs.length keys)
  let groups := (groupsOf roots keys).filter fun memberKeys => decide (2 ≤ memberKeys.length)
  let unsortedClusters ← groups.mapM (buildCluster inputs decisions)
  return (sortedBy (·.sortKey) unsortedClusters).zipIdx.map fun item =>
    { item.1 with ordinal := item.2 }

/-! ## The report -/

/-- The final status of an input and the reasons for it. -/
def inputStatus (clustered ambiguous : List NodeLogicalKey) (key : NodeLogicalKey) :
    AssociationInputDisposition × List AssociationReasonCode :=
  if key ∈ clustered then
    (.associated, if key ∈ ambiguous then
      [.associatedByExplicitEvidence, .ambiguousAlternativeRetained]
      else [.associatedByExplicitEvidence])
  else if key ∈ ambiguous then (.ambiguous, [.ambiguousTiedBridgeSupport])
  else (.unassociated, [.noSupportedAssociation])

/-- A round of `_build_input_decisions`. -/
def buildInputDecision (clustered ambiguous : List NodeLogicalKey)
    (input : RecordingAssociationInput) :
    Except AssociationError RecordingAssociationInputDecision := do
  let (disposition, reasons) := inputStatus clustered ambiguous input.key
  let decision : RecordingAssociationInputDecision := {
    sourceAction := input.sourceAction
    disposition := disposition
    reasonCodes := canonical (·.value) reasons }
  decision.validateDecision
  return decision

def buildInputDecisions (inputs : List RecordingAssociationInput)
    (pairDecisions : List RecordingAssociationPairDecision)
    (clusters : List RecordingAssociationCluster) :
    Except AssociationError (List RecordingAssociationInputDecision) :=
  let clustered := clusters.flatMap fun cluster =>
    cluster.sourceActions.map (·.sourceActionLogicalKey)
  let ambiguous := (pairDecisions.filter fun decision =>
      decide (decision.disposition = .ambiguous)).flatMap fun decision =>
    [decision.sourceActions.1.sourceActionLogicalKey,
      decision.sourceActions.2.sourceActionLogicalKey]
  inputs.mapM (buildInputDecision clustered ambiguous)

/-- `bridges_by_pair.get(pair_key, ())`. -/
def bridgesOfPair (bridges : List RecordingAssociationBridgeEvidence) (key : String ×ₗ String) :
    List RecordingAssociationBridgeEvidence :=
  sortedBy (·.sortKey) (bridges.filter fun bridge =>
    decide (pairKey bridge.sourceActions.1 bridge.sourceActions.2 = key))

/-- A round of the first loop of `derive`. -/
def classify (policy : RecordingAssociationPolicy)
    (bridges : List RecordingAssociationBridgeEvidence)
    (pair : RecordingAssociationInput × RecordingAssociationInput) :
    Except AssociationError Classified :=
  classifyPair policy pair.1 pair.2
    (bridgesOfPair bridges (pairKey pair.1.sourceAction pair.2.sourceAction))

/-- The final decisions and the components of the accepted edges. -/
def decidePairs (policy : RecordingAssociationPolicy) (inputs : List RecordingAssociationInput)
    (bridges : List RecordingAssociationBridgeEvidence) :
    Except AssociationError (List RecordingAssociationPairDecision × DisjointSet String) := do
  let classified ← (pairs inputs).mapM (classify policy bridges)
  let candidateEdges := classified.filterMap (·.edge)
  let ambiguousPairs ← ambiguousBridgePairs inputs candidateEdges
  let decisions ← classified.mapM (resolveAmbiguous ambiguousPairs)
  let acceptedEdges := candidateEdges.filter fun edge => decide (edge.key ∉ ambiguousPairs)
  (sortedBy (·.sortKey) acceptedEdges).foldlM (joinEdge inputs.length policy.maxInputs)
    (decisions, .start)

/-- The part of `derive` between the checks of its arguments and the identity of the report. -/
def associate (policy : RecordingAssociationPolicy)
    (recording : CompletedRecordingAssociationBinding) (inputs : List RecordingAssociationInput)
    (bridges : List RecordingAssociationBridgeEvidence) :
    Except AssociationError RecordingAssociationReportProjection := do
  let (finalDecisions, disjoint) ← decidePairs policy inputs bridges
  let clusters ← buildClusters inputs finalDecisions disjoint
  let inputDecisions ← buildInputDecisions inputs finalDecisions clusters
  return {
    recording := recording
    policy := policy
    inputs := inputs
    bridgeEvidence := bridges
    pairDecisions := sortedBy (·.key) finalDecisions
    inputDecisions := inputDecisions
    clusters := clusters
    outcome := outcomeOf clusters }

variable (H : Hashing)

/-- The report with its identity, and its validation. -/
def publish (draft : RecordingAssociationReportProjection) :
    Except AssociationError RecordingAssociationReport := do
  let digest ← orRaise .canonicalization (H.semanticSha256 (.report draft))
  let report : RecordingAssociationReport := {
    draft with
    semanticSha256 := digest
    logicalKey := "recording-association-report-v1:" ++ digest }
  report.validateReport H
  return report

def derive (policy : RecordingAssociationPolicy) (recording : CompletedRecordingAssociationBinding)
    (inputs : List RecordingAssociationInput)
    (bridgeEvidence : List RecordingAssociationBridgeEvidence) :
    Except AssociationError RecordingAssociationReport := do
  recording.validateBinding
  inputs.forM (·.modelValidate H)
  let checkedInputs := sortedBy (·.sortKey) inputs
  requireInput (checkedInputs ≠ []) "recording association requires at least one input"
  requireInput (checkedInputs.length ≤ policy.maxInputs)
    "recording association input count exceeds policy"
  requireInput (checkedInputs.map (·.key)).Nodup
    "recording association inputs duplicate a source action"
  validateInputLineage recording checkedInputs
  bridgeEvidence.forM (·.modelValidate)
  let checkedBridges := sortedBy RecordingAssociationBridgeEvidence.sortKey bridgeEvidence
  requireInput (checkedBridges.map (·.acceptedBridgeEvidenceLogicalKey)).Nodup
    "recording association bridge evidence is duplicated"
  validateBridges checkedInputs checkedBridges
  let draft ← associate policy recording checkedInputs checkedBridges
  publish H draft

end Robata.RecordingAssociation
