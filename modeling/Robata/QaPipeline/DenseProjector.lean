import Robata.QaPipeline.DensePlanner

/-!
# Projection of dense evidence

The validators of the dense evidence and of its results, and `DenseQAProjector`: every planned unit
has exactly one bundle of evidence, whose packages cover the unit's interval.
-/

namespace Robata.QaPipeline

open Contracts Lib

def DenseQAInputPlanRef.validatePackages (plan : DenseQAInputPlanRef) : Except QAError Unit :=
  require (plan.packageIds ≠ [] ∧ plan.packageIds.Nodup)
    "dense input plan requires unique ordered packages"

def CameraDenseResult.validateBinding (item : CameraDenseResult) : Except QAError Unit := do
  require (item.claim.kind = .qaObservation ∧ item.claim.packageId = some item.packageId ∧
      item.claim.packageOrdinal = some item.packageOrdinal ∧
      item.claim.cameraId = some item.cameraId)
    "dense result must retain its exact enriched QA claim binding"
  let expected ← denseCameraStatus item.claim.observation
  require (item.localStatus = expected)
    "dense local status must derive from the provider observation"

def validateDenseClaim (claim : EnrichedProviderClaim) (package : DenseQAPackageRef) :
    Except QAError Unit := do
  require (claim.interval ≠ none) "dense QA claims require an exact package interval"
  require (∀ interval ∈ claim.interval, package.interval.startNs ≤ interval.startNs ∧
      interval.endNs ≤ package.interval.endNs)
    "dense QA claim interval lies outside its package"
  require (claim.observation = .good ∨ claim.observation = .degraded → claim.evidence ≠ [])
    "observed GOOD/DEGRADED dense claims require evidence"
  require (∀ e ∈ claim.evidence, e.packageId = package.packageId ∧
      e.packageOrdinal = package.ordinal ∧ some e.cameraId = claim.cameraId ∧
      e.packageSemanticContentSha256 = package.semanticContentSha256 ∧
      e.packageManifestSha256 = package.manifestSha256)
    "dense claim evidence does not resolve to its package/camera"

/-- One round of the last loop of `validate_evidence`. -/
def DenseQAUnitEvidence.validateLineage (evidence : DenseQAUnitEvidence)
    (item : CameraDenseResult) : Except QAError Unit :=
  match evidence.packages[item.packageOrdinal]? with
  | none => .error (.value "tuple index out of range")
  | some package => do
      require (item.packageId = package.packageId ∧ item.sourceOutput ∈ evidence.sourceOutputs)
        "dense observation references undeclared lineage"
      validateDenseClaim item.claim package

def DenseQAUnitEvidence.validateEvidence (evidence : DenseQAUnitEvidence) :
    Except QAError Unit := do
  require (evidence.packages ≠ []) "dense evidence requires materialized packages"
  require (evidence.packages.map (·.ordinal) = List.range evidence.packages.length)
    "dense packages must be stored in ordinal order"
  require (evidence.packages.map (·.packageId)).Nodup "dense package IDs must be unique"
  require (evidence.inputPlan.packageIds = evidence.packages.map (·.packageId))
    "dense input plan does not bind the exact package sequence"
  require (evidence.packages.IsChain fun previous current =>
      previous.interval.startNs < current.interval.startNs ∧
      previous.interval.endNs < current.interval.endNs ∧
      current.interval.startNs ≤ previous.interval.endNs)
    "dense packages must make progress without temporal gaps"
  require ((evidence.sourceOutputs.map (·.artifactId)).Pairwise (· < ·))
    "dense output references must be unique and canonically ordered"
  require (∀ output ∈ evidence.sourceOutputs,
      output.inputPlanId = evidence.inputPlan.inputPlanId ∧
      output.inputPlanSemanticSha256 = evidence.inputPlan.semanticSha256)
    "dense outputs do not bind the exact input plan"
  require (evidence.packageCameraResults.map (fun item => (item.packageOrdinal, item.cameraId)) =
      evidence.packages.flatMap fun package =>
        CameraId.all.map fun cameraId => (package.ordinal, cameraId))
    "dense evidence requires exact package-by-six terminal coverage"
  evidence.packageCameraResults.forM evidence.validateLineage

/-- `DenseQAUnitEvidence.model_validate`: the parts and then the whole. -/
def DenseQAUnitEvidence.modelValidate (evidence : DenseQAUnitEvidence) : Except QAError Unit := do
  evidence.inputPlan.validatePackages
  evidence.packageCameraResults.forM fun item => do
    item.claim.validateBindingShape
    item.validateBinding
  evidence.validateEvidence

def denseStatus (results : List CameraDenseResult) : DenseQAStatus :=
  if results ≠ [] ∧ ∀ item ∈ results, item.localStatus = .good then .complete else .incomplete

/-- The status of a dense result. -/
def aggregateStatus (units : List DenseQAUnitResult) : DenseQAStatus :=
  if ∀ unit ∈ units, unit.status = .complete then .complete else .incomplete

variable (H : Hashing)

def DenseQAUnitResult.validateResult (result : DenseQAUnitResult) : Except QAError Unit := do
  require (result.evidence.unitId = result.workUnitId ∧
      result.evidence.unitSemanticDigest = result.workUnitSemanticDigest)
    "dense unit result does not bind its planned work unit"
  require (result.status = denseStatus result.evidence.packageCameraResults)
    "dense unit status does not match terminal observations"
  let digest ← H.digest (.unitResult result.toDenseQAUnitResultProjection)
  require (result.semanticDigest = digest ∧ result.resultId = H.stableId "dense-unit-result" digest)
    "dense unit result identity is inconsistent"

def DenseQAResult.validateResult (result : DenseQAResult) : Except QAError Unit := do
  require (result.units ≠ []) "a dense QA result requires unit results"
  require (result.units.map (·.workUnitId)).Nodup "dense unit results must be unique"
  require (∀ unit ∈ result.units, unit.evidence.mcapId = result.mcapId ∧
      unit.policyVersion = result.policyVersion)
    "dense unit results do not share aggregate lineage"
  require (result.status = aggregateStatus result.units)
    "dense aggregate status does not match unit results"
  let digest ← H.digest (.denseResult result.toDenseQAResultProjection)
  require (result.semanticDigest = digest ∧ result.resultId = H.stableId "dense-result" digest)
    "dense QA result identity is inconsistent"

/-- `DenseQAResult.model_validate` of a dumped result: the parts and then the whole. -/
def DenseQAResult.modelValidate (result : DenseQAResult) : Except QAError Unit := do
  result.units.forM fun unit => do
    unit.evidence.modelValidate
    unit.validateResult H
  result.validateResult H

/-- `DenseQAWorkManifest.model_validate` of a dumped manifest. -/
def DenseQAWorkManifest.modelValidate (manifest : DenseQAWorkManifest) : Except QAError Unit := do
  let validateParts (item : DenseQAWorkItem) : Except QAError Unit := do
    item.source.validateStatus
    item.validateItem
  manifest.items.forM validateParts
  manifest.units.forM fun unit => do
    unit.sourceItems.forM validateParts
    unit.validateUnit H
  manifest.validateManifest H

/-! ## The projector -/

def DenseQAUnitResultProjection.identified (values : DenseQAUnitResultProjection)
    (digest : Sha256Digest) : DenseQAUnitResult :=
  { values with resultId := H.stableId "dense-unit-result" digest, semanticDigest := digest }

def DenseQAResultProjection.identified (values : DenseQAResultProjection)
    (digest : Sha256Digest) : DenseQAResult :=
  { values with resultId := H.stableId "dense-result" digest, semanticDigest := digest }

/-- A refusal of the projector unless the condition holds. -/
def requireProjection (condition : Prop) [Decidable condition] (message : String) :
    Except QAError Unit :=
  if condition then .ok () else .error (.denseProjection message)

def projectUnit (policyVersion : SchemaVersion) (mcapId : String) (unit : DenseQAWorkUnit)
    (evidence : DenseQAUnitEvidence) : Except QAError DenseQAUnitResult := do
  requireProjection (evidence.unitSemanticDigest = unit.semanticDigest ∧ evidence.mcapId = mcapId)
    "dense evidence does not bind its planned unit"
  requireProjection
    (evidence.packages.head?.map (·.interval.startNs) = some unit.effectiveInterval.startNs ∧
      evidence.packages.getLast?.map (·.interval.endNs) = some unit.effectiveInterval.endNs)
    "dense packages do not cover the exact work interval"
  let values : DenseQAUnitResultProjection :=
    { workUnitId := unit.unitId
      workUnitSemanticDigest := unit.semanticDigest
      evidence := evidence
      status := denseStatus evidence.packageCameraResults
      policyVersion := policyVersion }
  let digest ← H.digest (.unitResult values)
  let result := values.identified H digest
  result.validateResult H
  pure result

/-- The loop that files the evidence by unit; `filed` is what has been filed. -/
def fileEvidence (filed : List DenseQAUnitEvidence) :
    List DenseQAUnitEvidence → Except QAError (List DenseQAUnitEvidence)
  | [] => .ok filed
  | evidence :: rest => do
      revalidated (.denseProjection "dense evidence failed immutable contract validation")
        evidence.modelValidate
      requireProjection (evidence.unitId ∉ filed.map (·.unitId))
        "dense evidence contains a duplicate work unit"
      fileEvidence (filed ++ [evidence]) rest

/-- `evidence_by_unit[unit_id]`. -/
def evidenceOf (filed : List DenseQAUnitEvidence) (unitId : OpaqueUuid) :
    Except QAError DenseQAUnitEvidence :=
  match filed.find? fun evidence => evidence.unitId == unitId with
  | some evidence => .ok evidence
  | none => .error (.value unitId)

def projectDense (policyVersion : SchemaVersion) (manifest : DenseQAWorkManifest)
    (unitEvidence : List DenseQAUnitEvidence) : Except QAError DenseQAResult := do
  revalidated (.denseProjection "manifest failed immutable contract validation")
    (manifest.modelValidate H)
  requireProjection (manifest.outcome = .denseRequired)
    "only DENSE_REQUIRED manifests accept dense evidence"
  requireProjection (manifest.policyVersion = policyVersion)
    "dense projector policy does not match the manifest"
  let filed ← fileEvidence [] unitEvidence
  requireProjection ((∀ evidence ∈ filed, evidence.unitId ∈ manifest.units.map (·.unitId)) ∧
      ∀ unit ∈ manifest.units, unit.unitId ∈ filed.map (·.unitId))
    "dense evidence must cover every planned unit exactly"
  let units ← manifest.units.mapM fun unit => do
    let evidence ← evidenceOf filed unit.unitId
    projectUnit H policyVersion manifest.mcapId unit evidence
  let values : DenseQAResultProjection :=
    { mcapId := manifest.mcapId
      coarseResultDigest := manifest.coarseResultDigest
      workManifestId := manifest.manifestId
      workManifestDigest := manifest.semanticDigest
      units := units
      status := aggregateStatus units
      policyVersion := policyVersion }
  let digest ← H.digest (.denseResult values)
  let result := values.identified H digest
  result.validateResult H
  pure result

end Robata.QaPipeline
