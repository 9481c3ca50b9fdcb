import Mathlib.Data.Prod.Lex
import Mathlib.Data.String.Basic
import Robata.Lib.Intervals
import Robata.Lib.Sorting
import Robata.QaPipeline.QaModels

/-!
# Planning of dense work

The validators of the coarse result and of the dense work, and `DenseQAPlanner`: the suspicious
coordinates of a coarse result are merged into units, each is padded and clipped to the recording,
and the planner checks its own manifest.
-/

namespace Robata.QaPipeline

open Contracts Lib

/-! ## Coarse results -/

/-- The table of `_camera_status`, which both projectors have with a message of their own. -/
def cameraStatusOr (unsupported : String) : ProviderObservation → Except QAError CameraQAStatus
  | .good => .ok .good
  | .degraded => .ok .degraded
  | .unusable => .ok .unusable
  | .unknown => .ok .unknown
  | _ => .error (.value unsupported)

/-- `_camera_status` of `coarse.py`. -/
def coarseCameraStatus : ProviderObservation → Except QAError CameraQAStatus :=
  cameraStatusOr "unsupported coarse QA observation"

/-- `_camera_status` of `dense.py`. -/
def denseCameraStatus : ProviderObservation → Except QAError CameraQAStatus :=
  cameraStatusOr "unsupported QA observation"

def EnrichedProviderClaim.validateBindingShape (claim : EnrichedProviderClaim) :
    Except QAError Unit := do
  require (claim.kind.isCameraClaim =
      (claim.packageId.isSome && claim.packageOrdinal.isSome && claim.cameraId.isSome))
    "enriched camera identity shape does not match claim kind"
  require (claim.evidence.map (·.correlationToken)).Nodup
    "enriched evidence references must be unique within a claim"
  require (claim.cameraId = none ∨
      ∀ e ∈ claim.evidence, some e.cameraId = claim.cameraId ∧ some e.packageId = claim.packageId)
    "camera claim evidence must match its authoritative camera"

def CameraCoarseResult.validateBinding (item : CameraCoarseResult) : Except QAError Unit := do
  require (item.claim.kind = .qaObservation ∧ item.claim.packageId = some item.packageId ∧
      item.claim.packageOrdinal = some item.packageOrdinal ∧
      item.claim.cameraId = some item.cameraId)
    "coarse result must retain its exact enriched QA claim binding"
  let expected ← coarseCameraStatus item.claim.observation
  require (item.localStatus = expected)
    "coarse local status must be derived from the provider observation"

/-- Every package with each of the six cameras, in the canonical order. -/
def canonicalCoordinates (packages : Nat) : List (Nat × CameraId) :=
  (List.range packages).flatMap fun ordinal => CameraId.all.map fun cameraId => (ordinal, cameraId)

def resultStatus (statuses : List CameraQAStatus) : Except QAError CoarseQAStatus :=
  if .unknown ∈ statuses then .ok .incomplete
  else if .degraded ∈ statuses ∨ .unusable ∈ statuses then .ok .requiresDense
  else if statuses ≠ [] ∧ ∀ status ∈ statuses, status = .good then .ok .complete
  else .error (.value "coarse QA observations contain an unsupported local status")

def CoarseQAResult.validateResult (result : CoarseQAResult) : Except QAError Unit := do
  require (result.packageIds ≠ []) "coarse QA requires at least one package"
  require result.packageIds.Nodup "coarse QA package IDs must be unique"
  require (result.sourceOutputs.map (·.artifactId)).Nodup
    "coarse QA source output references must be unique"
  require (result.packageCameraResults.map (fun item => (item.packageOrdinal, item.cameraId)) =
      canonicalCoordinates result.packageIds.length)
    "coarse QA package/camera results must be complete and canonically ordered"
  require (∀ item ∈ result.packageCameraResults,
      result.packageIds[item.packageOrdinal]? = some item.packageId)
    "coarse QA package result does not match package_ids"
  require (∀ item ∈ result.packageCameraResults, item.sourceOutput ∈ result.sourceOutputs)
    "coarse QA result references an undeclared enriched output"
  let expectedStatus ← resultStatus (result.packageCameraResults.map (·.localStatus))
  require (result.localStatus = expectedStatus)
    "coarse QA local status is inconsistent with camera observations"
  require (result.complete = decide (expectedStatus = .complete) ∧
      result.requiresDense = decide (expectedStatus = .requiresDense))
    "coarse QA control flags are inconsistent with local status"

/-- `CoarseQAResult.model_validate`: the parts and then the whole. -/
def CoarseQAResult.modelValidate (result : CoarseQAResult) : Except QAError Unit := do
  result.packageCameraResults.forM fun item => do
    item.claim.validateBindingShape
    item.validateBinding
  result.validateResult

/-- A coarse result that its contract accepts. -/
def CoarseQAResult.Valid (result : CoarseQAResult) : Prop := result.modelValidate = .ok ()

/-! ## Dense work -/

def CoarseQAObservationRef.validateStatus (ref : CoarseQAObservationRef) : Except QAError Unit := do
  let expected ← denseCameraStatus ref.providerObservation
  require (ref.localStatus = expected) "local status must match the provider observation"

/-- `_observation_ref`, which both projectors have with an error of their own. -/
def observationRefOr (missing : QAError) (item : CameraCoarseResult) :
    Except QAError CoarseQAObservationRef :=
  match item.claim.interval with
  | none => .error missing
  | some interval => do
      let ref : CoarseQAObservationRef :=
        { packageId := item.packageId
          packageOrdinal := item.packageOrdinal
          cameraId := item.cameraId
          interval := interval
          providerObservation := item.claim.observation
          localStatus := item.localStatus
          sourceClaimId := item.claim.claimId
          sourceOutput := item.sourceOutput }
      ref.validateStatus
      pure ref

/-- `_observation_ref` of `dense.py`. -/
def denseObservationRef : CameraCoarseResult → Except QAError CoarseQAObservationRef :=
  observationRefOr (.denseProjection "coarse observation is missing its exact interval")

def DenseQAWorkItem.validateItem (item : DenseQAWorkItem) : Except QAError Unit := do
  require (item.contextCameraIds = CameraId.all) "dense work must retain all six context cameras"
  require (item.source.localStatus.isSuspicious = true)
    "dense work requires DEGRADED or UNUSABLE coarse evidence"

/-- `CAMERA_IDS.index`. -/
def cameraIndex (cameraId : CameraId) : Nat := CameraId.all.idxOf cameraId

def DenseQAWorkItem.sortKey (item : DenseQAWorkItem) : Nat ×ₗ Nat :=
  toLex (item.source.packageOrdinal, cameraIndex item.source.cameraId)

/-- The first item with each key, in order: `setdefault` in a loop, and then `values()`. -/
def firstByKey {α κ : Type} [DecidableEq κ] (key : α → κ) (items : List α) : List α :=
  items.foldl (fun selected item => if key item ∈ selected.map key then selected
    else selected ++ [item]) []

def uniqueSourceIntervals (items : List DenseQAWorkItem) : List DenseQAWorkItem :=
  firstByKey (fun item => (item.source.packageId, item.source.interval.startNs,
      item.source.interval.endNs))
    (sortedBy (κ := Int ×ₗ Int ×ₗ String ×ₗ Nat) (fun item =>
      toLex (item.source.interval.startNs, toLex (item.source.interval.endNs,
        toLex (item.source.packageId, cameraIndex item.source.cameraId)))) items)

/-- The cameras of the items, in the canonical order. -/
def targetCameras (items : List DenseQAWorkItem) : List CameraId :=
  CameraId.all.filter fun cameraId => items.any (·.source.cameraId == cameraId)

variable (H : Hashing)

def DenseQAWorkUnit.validateUnit (unit : DenseQAWorkUnit) : Except QAError Unit := do
  require (unit.sourceItems ≠ []) "a dense work unit requires source items"
  require (unit.contextCameraIds = CameraId.all)
    "dense work units require canonical six-camera context"
  require (unit.sourceItems = canonical (·.sortKey) unit.sourceItems)
    "dense unit sources must be unique and canonically ordered"
  require (∀ item ∈ unit.sourceItems,
      unit.requestedInterval.startNs ≤ item.source.interval.startNs ∧
      item.source.interval.endNs ≤ unit.requestedInterval.endNs)
    "dense unit requested interval must contain every source"
  require (unit.effectiveInterval.startNs ≤ unit.requestedInterval.startNs ∧
      unit.requestedInterval.endNs ≤ unit.effectiveInterval.endNs)
    "dense unit effective interval cannot discard source evidence"
  require (unit.targetCameraIds = targetCameras unit.sourceItems)
    "dense target cameras must be derived from source evidence"
  require (unit.targetIntervalIds =
      (uniqueSourceIntervals unit.sourceItems).map fun item => H.targetIntervalId item.source)
    "dense target interval IDs are inconsistent"
  let digest ← H.digest (.workUnit unit.toDenseQAWorkUnitProjection)
  require (unit.semanticDigest = digest ∧ unit.unitId = H.stableId "dense-unit" digest)
    "dense work unit identity is inconsistent"

/-- The part of `validate_manifest` that the outcome decides. -/
def DenseQAWorkManifest.validateOutcome (manifest : DenseQAWorkManifest) : Except QAError Unit :=
  if manifest.outcome = .denseRequired then do
    require (manifest.items ≠ [] ∧ manifest.units ≠ [])
      "DENSE_REQUIRED requires items and work units"
    require (sortedBy (·.sortKey) (manifest.units.flatMap (·.sourceItems)) = manifest.items)
      "dense units must partition the exact manifest items"
    require ((manifest.units.map (·.effectiveInterval.startNs)).Pairwise (· ≤ ·))
      "dense units must be stored in temporal order"
    require (∀ unit ∈ manifest.units, unit.policyVersion = manifest.policyVersion)
      "dense unit policy must match its manifest"
  else
    require (manifest.items = [] ∧ manifest.units = [])
      "a non-required dense outcome must have zero children"

def DenseQAWorkManifest.validateManifest (manifest : DenseQAWorkManifest) :
    Except QAError Unit := do
  require (manifest.items = canonical (·.sortKey) manifest.items)
    "dense work must be unique and canonically ordered"
  manifest.validateOutcome
  let digest ← H.digest (.workManifest manifest.toDenseQAWorkManifestProjection)
  require (manifest.semanticDigest = digest ∧
      manifest.manifestId = H.stableId "dense-manifest" digest)
    "dense work manifest identity is inconsistent"

/-! ## The planner -/

/-- The order in which `_build_units` goes through the items. -/
def DenseQAWorkItem.temporalKey (item : DenseQAWorkItem) : Int ×ₗ Int ×ₗ Nat ×ₗ Nat :=
  toLex (item.source.interval.startNs, toLex (item.source.interval.endNs, item.sortKey))

/-- The interval around the sources of a unit. -/
def requestedInterval (sources : List DenseQAWorkItem) : Except QAError NanosecondInterval :=
  match (sources.map (·.source.interval.startNs)).min?,
      (sources.map (·.source.interval.endNs)).max? with
  | some startNs, some endNs =>
    match NanosecondInterval.make? startNs endNs with
    | some interval => .ok interval
    | none => .error (.value "start_ns must be less than end_ns")
  | _, _ => .error (.value "min() arg is an empty sequence")

/-- The requested interval, padded and clipped, and whether it was clipped. -/
def effectiveInterval (policy : DenseQAPlanningPolicy) (bounds : Option NanosecondInterval)
    (requested : NanosecondInterval) : Except QAError (NanosecondInterval × Bool) :=
  let paddedStart := requested.startNs - policy.paddingNs
  let paddedEnd := requested.endNs + policy.paddingNs
  let effectiveStart := bounds.elim paddedStart fun b => max paddedStart b.startNs
  let effectiveEnd := bounds.elim paddedEnd fun b => min paddedEnd b.endNs
  match NanosecondInterval.make? effectiveStart effectiveEnd with
  | some effective =>
    .ok (effective, effectiveStart != paddedStart || effectiveEnd != paddedEnd)
  | none => .error (.denseProjection "dense padding and clipping produced an empty interval")

def DenseQAWorkUnitProjection.identified (values : DenseQAWorkUnitProjection)
    (digest : Sha256Digest) : DenseQAWorkUnit :=
  { values with unitId := H.stableId "dense-unit" digest, semanticDigest := digest }

def unitValues (policy : DenseQAPlanningPolicy) (sources : List DenseQAWorkItem)
    (requested effective : NanosecondInterval) (truncated : Bool) : DenseQAWorkUnitProjection where
  requestedInterval := requested
  effectiveInterval := effective
  contextTruncated := truncated
  sourceItems := sources
  targetIntervalIds := (uniqueSourceIntervals sources).map fun item => H.targetIntervalId item.source
  targetCameraIds := targetCameras sources
  contextCameraIds := CameraId.all
  policyVersion := policy.version

def makeUnit (policy : DenseQAPlanningPolicy) (bounds : Option NanosecondInterval)
    (group : List DenseQAWorkItem) : Except QAError DenseQAWorkUnit := do
  let sources := sortedBy (·.sortKey) group
  let requested ← requestedInterval sources
  let (effective, truncated) ← effectiveInterval policy bounds requested
  let values := unitValues H policy sources requested effective truncated
  let digest ← H.digest (.workUnit values)
  let unit := values.identified H digest
  unit.validateUnit H
  pure unit

/-- The items of `_build_units` in groups.  The source refuses an item outside the bounds in the
round that comes to it; nothing but the groups is made in those rounds. -/
def groupItems (policy : DenseQAPlanningPolicy) (bounds : Option NanosecondInterval)
    (items : List DenseQAWorkItem) : Except QAError (List (List DenseQAWorkItem)) := do
  let ordered := sortedBy (·.temporalKey) items
  if ∀ b ∈ bounds, ∀ item ∈ ordered,
      b.startNs ≤ item.source.interval.startNs ∧ item.source.interval.endNs ≤ b.endNs then
    .ok (gapGroups (·.source.interval.startNs)
      (·.source.interval.endNs) (fun groupEnd => groupEnd + policy.mergeGapNs)
      ordered)
  else
    .error (.denseProjection "coarse interval lies outside recording bounds")

def buildUnits (policy : DenseQAPlanningPolicy) (bounds : Option NanosecondInterval)
    (items : List DenseQAWorkItem) : Except QAError (List DenseQAWorkUnit) := do
  let groups ← groupItems policy bounds items
  groups.mapM (makeUnit H policy bounds)

/-- A suspicious observation as an item of dense work. -/
def workItem (source : CoarseQAObservationRef) : Except QAError DenseQAWorkItem := do
  let item : DenseQAWorkItem := { source := source, contextCameraIds := CameraId.all }
  item.validateItem
  pure item

/-- The outcome that the coarse status decides, and the items that are planned. -/
def planOutcome (status : CoarseQAStatus) (suspicious : List DenseQAWorkItem) :
    DenseQAOutcome × List DenseQAWorkItem :=
  match status with
  | .complete => (.skippedNotNeeded, suspicious)
  | .incomplete => (.blockedIncomplete, [])
  | .requiresDense => (.denseRequired, suspicious)

def DenseQAWorkManifestProjection.identified (values : DenseQAWorkManifestProjection)
    (digest : Sha256Digest) : DenseQAWorkManifest :=
  { values with manifestId := H.stableId "dense-manifest" digest, semanticDigest := digest }

/-- A failed validation, as a projector reports it. -/
def revalidated (failure : QAError) : Except QAError Unit → Except QAError Unit
  | .ok u => .ok u
  | .error _ => .error failure

def plan (policy : DenseQAPlanningPolicy) (coarse : CoarseQAResult)
    (recordingInterval : Option NanosecondInterval) : Except QAError DenseQAWorkManifest := do
  revalidated (.denseProjection "coarse_result failed immutable contract validation")
    coarse.modelValidate
  let coverage ← coarse.packageCameraResults.mapM denseObservationRef
  let suspicious ← (coverage.filter (·.localStatus.isSuspicious)).mapM workItem
  let (outcome, items) := planOutcome coarse.localStatus suspicious
  let units ← buildUnits H policy recordingInterval items
  let coarseResultDigest ← H.digest (.coarseResult coarse)
  let values : DenseQAWorkManifestProjection :=
    { mcapId := coarse.mcapId
      coarseResultDigest := coarseResultDigest
      outcome := outcome
      items := items
      units := units
      policyVersion := policy.version }
  let digest ← H.digest (.workManifest values)
  let manifest := values.identified H digest
  manifest.validateManifest H
  pure manifest

end Robata.QaPipeline
