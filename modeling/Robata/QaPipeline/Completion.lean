import Robata.QaPipeline.DenseProjector

/-!
# The completion gate

`QACompletionProjector`: dense work is planned from the coarse result, a dense result is accepted
only for exactly that work, and QA is complete with a final aggregate or not at all.
-/

namespace Robata.QaPipeline

open Contracts Lib

/-- `_observation_ref` of `completion.py`. -/
def completionObservationRef : CameraCoarseResult → Except QAError CoarseQAObservationRef :=
  observationRefOr (.completionProjection "coarse observation is missing its exact interval")

def completionStatus (coverage : List CoarseQAObservationRef) (denseResult : Option DenseQAResult)
    (denseFailureCode : Option String) : Except QAError QACompletionStatus :=
  let statuses := coverage.map (·.localStatus)
  if .unknown ∈ statuses then
    if denseResult ≠ none ∨ denseFailureCode ≠ none then
      .error (.value "unknown coarse evidence cannot enter dense execution")
    else .ok .qaIncomplete
  else if .degraded ∈ statuses ∨ .unusable ∈ statuses then
    if denseResult ≠ none ∧ denseFailureCode ≠ none then
      .error (.value "dense result and dense failure are mutually exclusive")
    else if denseFailureCode ≠ none then .ok .qaIncomplete
    else
      match denseResult with
      | none => .ok .denseRequired
      | some dense => .ok (if dense.status = .complete then .qaComplete else .qaIncomplete)
  else if statuses ≠ [] ∧ ∀ status ∈ statuses, status = .good then
    if denseResult ≠ none ∨ denseFailureCode ≠ none then
      .error (.value "all-GOOD coarse evidence requires zero dense children")
    else .ok .qaComplete
  else .error (.value "coarse coverage contains unsupported statuses")

def CameraFinalQAResult.validateCamera (camera : CameraFinalQAResult) : Except QAError Unit := do
  require (camera.observations ≠ []) "a final camera result requires observations"
  require (∀ item ∈ camera.observations, item.cameraId = camera.cameraId)
    "final coarse observations must match their camera"
  require (camera.observations.map (·.packageOrdinal) = List.range camera.observations.length)
    "final camera observations must cover every package in order"
  require (∀ item ∈ camera.denseObservations,
      item.cameraId = camera.cameraId ∧ item.localStatus = .good)
    "final dense observations must be matching GOOD evidence"

def QACompletionAggregate.validateAggregate (aggregate : QACompletionAggregate) :
    Except QAError Unit := do
  require (aggregate.cameraResults.map (·.cameraId) = CameraId.all)
    "final aggregate requires six cameras in canonical order"
  require (∀ camera ∈ aggregate.cameraResults, camera.policyVersion = aggregate.policyVersion)
    "final camera policy must match the aggregate"

/-- The observations of all units of a dense result. -/
def denseObservations (denseResult : Option DenseQAResult) : List CameraDenseResult :=
  denseResult.elim [] fun dense => dense.units.flatMap (·.evidence.packageCameraResults)

def finalAggregate (coverage : List CoarseQAObservationRef) (denseResult : Option DenseQAResult)
    (policyVersion : SchemaVersion) : Except QAError QACompletionAggregate := do
  let cameraResults ← CameraId.all.mapM fun cameraId => do
    let camera : CameraFinalQAResult :=
      { cameraId := cameraId
        observations := coverage.filter (·.cameraId == cameraId)
        denseObservations := (denseObservations denseResult).filter fun item =>
          item.cameraId == cameraId
        policyVersion := policyVersion }
    camera.validateCamera
    pure camera
  let aggregate : QACompletionAggregate :=
    { cameraResults := cameraResults, policyVersion := policyVersion }
  aggregate.validateAggregate
  pure aggregate

def validateDenseResultBinding (manifest : DenseQAWorkManifest)
    (denseResult : Option DenseQAResult) : Except QAError Unit :=
  if manifest.outcome ≠ .denseRequired then
    require (denseResult = none) "zero-child dense outcome cannot retain a dense result"
  else
    match denseResult with
    | none => .ok ()
    | some dense => do
        require (dense.mcapId = manifest.mcapId ∧
            dense.coarseResultDigest = manifest.coarseResultDigest ∧
            dense.workManifestId = manifest.manifestId ∧
            dense.workManifestDigest = manifest.semanticDigest ∧
            dense.policyVersion = manifest.policyVersion)
          "dense result does not bind the exact work manifest"
        require (dense.units.map (fun unit => (unit.workUnitId, unit.workUnitSemanticDigest)) =
            manifest.units.map fun unit => (unit.unitId, unit.semanticDigest))
          "dense result does not preserve planned unit order"

/-- The dense outcome that a coarse control status requires. -/
def expectedOutcome : QACompletionStatus → DenseQAOutcome
  | .qaComplete => .skippedNotNeeded
  | .denseRequired => .denseRequired
  | .qaIncomplete => .blockedIncomplete

def QACompletionResult.validateManifestBinding (result : QACompletionResult) :
    Except QAError Unit := do
  require (result.denseWorkManifest.policyVersion = result.policyVersion)
    "dense manifest policy does not match completion"
  let coarseStatus ← completionStatus result.coarseCoverage none none
  require (result.denseWorkManifest.outcome = expectedOutcome coarseStatus)
    "dense outcome does not match coarse control status"
  require (result.denseWorkManifest.items.map (·.source) =
      if coarseStatus = .denseRequired then
        result.coarseCoverage.filter (·.localStatus.isSuspicious)
      else [])
    "dense manifest does not preserve exact suspicious lineage"
  validateDenseResultBinding result.denseWorkManifest result.denseResult

/-- One round of the loop of `_validate_aggregate_binding`. -/
def QACompletionResult.validateCameraBinding (result : QACompletionResult)
    (camera : CameraFinalQAResult) : Except QAError Unit := do
  require (camera.observations = result.coarseCoverage.filter (·.cameraId == camera.cameraId))
    "final aggregate does not preserve complete coarse coverage"
  require (camera.denseObservations =
      (denseObservations result.denseResult).filter (·.cameraId == camera.cameraId))
    "final aggregate does not preserve complete dense evidence"

def QACompletionResult.validateAggregateBinding (result : QACompletionResult) :
    Except QAError Unit :=
  if result.status ≠ .qaComplete then
    require (result.finalAggregate = none) "non-complete QA cannot publish a final aggregate"
  else
    match result.finalAggregate with
    | none => .error (.value "QA_COMPLETE requires a matching final aggregate")
    | some aggregate => do
        require (aggregate.policyVersion = result.policyVersion)
          "QA_COMPLETE requires a matching final aggregate"
        aggregate.cameraResults.forM result.validateCameraBinding
        require (result.denseResult = none →
            ∀ item ∈ result.coarseCoverage, item.localStatus = .good)
          "QA_COMPLETE requires GOOD coarse or complete dense evidence"

variable (H : Hashing)

def QACompletionResult.validateResult (result : QACompletionResult) : Except QAError Unit := do
  require (result.packageIds ≠ [] ∧ result.packageIds.Nodup)
    "QA completion package IDs must be nonempty and unique"
  require ((result.sourceOutputs.map (·.artifactId)).Pairwise (· < ·))
    "source outputs must be unique and canonically ordered"
  require (result.coarseCoverage.map (fun item => (item.packageOrdinal, item.cameraId)) =
      canonicalCoordinates result.packageIds.length)
    "QA completion must preserve package-by-six coverage"
  require (∀ item ∈ result.coarseCoverage,
      result.packageIds[item.packageOrdinal]? = some item.packageId)
    "coverage does not match package IDs"
  require (∀ item ∈ result.coarseCoverage, item.sourceOutput ∈ result.sourceOutputs)
    "coverage references an undeclared enriched output"
  let expectedStatus ←
    completionStatus result.coarseCoverage result.denseResult result.denseFailureCode
  require (result.status = expectedStatus) "completion status does not match coarse/dense evidence"
  result.validateManifestBinding
  result.validateAggregateBinding
  let digest ← H.digest (.completion result.toQACompletionProjection)
  require (result.semanticSha256 = digest) "QA completion semantic_sha256 is inconsistent"
  require (result.completionId = H.completionId digest) "QA completion ID is inconsistent"

def QACompletionProjection.identified (values : QACompletionProjection) (digest : Sha256Digest) :
    QACompletionResult :=
  { values with completionId := H.completionId digest, semanticSha256 := digest }

def validatedDenseResult (denseResult : Option DenseQAResult) : Except QAError Unit :=
  match denseResult with
  | none => .ok ()
  | some dense =>
    revalidated (.completionProjection "dense_result failed immutable contract validation")
      (dense.modelValidate H)

/-- The aggregate of a completion: there is one where QA is complete. -/
def aggregateAt (status : QACompletionStatus) (coverage : List CoarseQAObservationRef)
    (denseResult : Option DenseQAResult) (policyVersion : SchemaVersion) :
    Except QAError (Option QACompletionAggregate) :=
  if status = .qaComplete then do
    let aggregate ← finalAggregate coverage denseResult policyVersion
    pure (some aggregate)
  else pure none

/-- `_project`; the version of the planning policy is that of the completion. -/
def projectWith (policy : DenseQAPlanningPolicy) (coarse : CoarseQAResult)
    (denseResult : Option DenseQAResult) (denseFailureCode : Option String)
    (recordingInterval : Option NanosecondInterval) : Except QAError QACompletionResult := do
  revalidated (.completionProjection "coarse_result failed immutable contract validation")
    coarse.modelValidate
  validatedDenseResult H denseResult
  let coverage ← coarse.packageCameraResults.mapM completionObservationRef
  let manifest ← plan H policy coarse recordingInterval
  validateDenseResultBinding manifest denseResult
  let status ← completionStatus coverage denseResult denseFailureCode
  let aggregate ← aggregateAt status coverage denseResult policy.version
  let coarseResultSemanticSha256 ← H.digest (.coarseResult coarse)
  let values : QACompletionProjection :=
    { packageSetId := coarse.packageSetId
      mcapId := coarse.mcapId
      inputPlanId := coarse.inputPlanId
      inputPlanSemanticSha256 := coarse.inputPlanSemanticSha256
      packageIds := coarse.packageIds
      coarseResultSemanticSha256 := coarseResultSemanticSha256
      coarsePolicyVersion := coarse.policyVersion
      sourceOutputs := coarse.sourceOutputs
      coarseCoverage := coverage
      denseWorkManifest := manifest
      denseResult := denseResult
      denseFailureCode := denseFailureCode
      finalAggregate := aggregate
      status := status
      policyVersion := policy.version }
  let digest ← H.digest (.completion values)
  let result := values.identified H digest
  result.validateResult H
  pure result

def project (policy : DenseQAPlanningPolicy) (coarse : CoarseQAResult)
    (denseResult : Option DenseQAResult) (recordingInterval : Option NanosecondInterval) :
    Except QAError QACompletionResult :=
  projectWith H policy coarse denseResult none recordingInterval

def block (policy : DenseQAPlanningPolicy) (coarse : CoarseQAResult) (failureCode : String)
    (recordingInterval : Option NanosecondInterval) : Except QAError QACompletionResult :=
  if failureCode = "" then .error (.value "failure_code must be a non-empty string")
  else projectWith H policy coarse none (some failureCode) recordingInterval

end Robata.QaPipeline
