import Mathlib.Algebra.Order.Ring.Unbundled.Rat
import Robata.Inference.CallBarrier
import Robata.Lib.Sorting
import Robata.QaPipeline.QaModels

/-!
# Claims and input plans

The records of `enrichment.py` and `input_plan.py` that fusion reads: what a provider claims, the
request catalog its citations are resolved in, the rendering of that catalog and the call plan
over it.  A record whose contract checks its own shape carries the check.
-/

namespace Robata.Fusion

open Contracts Lib
open Inference (VisionTask)
open QaPipeline (ProviderClaimKind ProviderObservation)

/-- A contract refuses a value, an enrichment or a reduction refuses its input, an index is out of
range, or a rendering does not follow its catalog. -/
inductive FusionError
  | value (message : String)
  | enrichment (message : String)
  | configuration (message : String)
  | inputPlan (message : String)
  | index
  deriving DecidableEq

/-- Raise an error unless the condition holds. -/
def require (condition : Prop) [Decidable condition] (error : FusionError) :
    Except FusionError Unit :=
  if condition then .ok () else .error error

@[simp] theorem require_eq_ok {condition : Prop} [Decidable condition] {error : FusionError}
    {u : Unit} : require condition error = .ok u ↔ condition := by
  unfold require
  split <;> simp_all

@[simp] theorem require_bind_eq_ok {condition : Prop} [Decidable condition] {error : FusionError}
    {β : Type} {next : Unit → Except FusionError β} {b : β} :
    (require condition error >>= next) = .ok b ↔ condition ∧ next () = .ok b := by
  by_cases h : condition <;> simp [require, h]

/-! ## Provider claims -/

def allowedObservations : ProviderClaimKind → List ProviderObservation
  | .qaObservation => [.good, .degraded, .unusable, .unknown]
  | .eventProposal => [.proposed]
  | .actionObservation => [.supporting, .partially, .noEvent, .occluded, .unusable, .missing]
  | .crossViewHypothesis => [.supporting, .partially]
  | .boundaryObservation => [.observed, .noBoundary, .occluded, .unusable, .missing]
  | .fusionHypothesis => [.proposed, .conflict]

def taskKinds : VisionTask → List ProviderClaimKind
  | .qaCoarse | .qaDense => [.qaObservation]
  | .eventProposal => [.eventProposal]
  | .actionEvidence => [.actionObservation, .crossViewHypothesis]
  | .boundaryRefinement => [.boundaryObservation]
  | .fusionAdjudication => [.fusionHypothesis]

def evidenceRequired : List ProviderObservation :=
  [.conflict, .degraded, .good, .noEvent, .observed, .partially, .proposed, .supporting]

/-- A provider claim without its local ordinal: what `model_dump(exclude={"claim_ordinal"})`
keeps. -/
structure ProviderClaimContent where
  kind : ProviderClaimKind
  packageOrdinal : Option Nat
  cameraOrdinal : Option (Fin 6)
  interval : Option NanosecondInterval
  label : Option String
  observation : ProviderObservation
  evidenceTokens : List String
  modelReportedScore : Option Rat
  conflictCodes : List String
  deriving DecidableEq

structure ProviderTaskClaim extends ProviderClaimContent where
  claimOrdinal : Nat

/-- Camera claims, and no others, name a package and a camera. -/
def ProviderTaskClaim.validateCameraShape (claim : ProviderTaskClaim) : Except FusionError Unit :=
  if claim.kind.isCameraClaim then
    require (claim.packageOrdinal ≠ none ∧ claim.cameraOrdinal ≠ none)
      (.value "camera claims require local package and camera ordinals")
  else
    require (claim.packageOrdinal = none ∧ claim.cameraOrdinal = none)
      (.value "cross-view claims cannot author package or camera identity")

def ProviderTaskClaim.validateClaimShape (claim : ProviderTaskClaim) : Except FusionError Unit := do
  require (claim.observation ∈ allowedObservations claim.kind)
    (.value "observation is not valid for the provider claim kind")
  require claim.evidenceTokens.Nodup
    (.value "provider evidence tokens must be unique within a claim")
  require claim.conflictCodes.Nodup (.value "provider conflict codes must be unique within a claim")
  claim.validateCameraShape
  require (claim.kind ∈ [.eventProposal, .crossViewHypothesis, .fusionHypothesis] →
      claim.interval ≠ none)
    (.value "temporal hypotheses require a provider-reported interval")
  require (claim.kind = .qaObservation → claim.interval ≠ none)
    (.value "QA observations require an observed interval")
  require (claim.observation = .missing → claim.interval = none ∧ claim.evidenceTokens = [])
    (.value "MISSING claims cannot assert intervals or evidence")
  require (claim.observation ∈ evidenceRequired → claim.evidenceTokens ≠ [])
    (.value "observing claims require at least one evidence token")
  require (claim.conflictCodes ≠ [] → claim.kind = .fusionHypothesis)
    (.value "conflict codes are valid only for fusion hypotheses")

/-- The fields of a provider-facing document. -/
structure ProviderClaimPayload where
  claims : List ProviderTaskClaim
  abstained : Bool

def ProviderClaimPayload.validateOrdinals (payload : ProviderClaimPayload) :
    Except FusionError Unit := do
  require (payload.claims.map (·.claimOrdinal) = List.range payload.claims.length)
    (.value "provider claim ordinals must be contiguous from zero")
  require (payload.abstained = true → payload.claims = [])
    (.value "an abstained provider response cannot contain claims")

structure ProviderClaimPayload.Accepted (payload : ProviderClaimPayload) : Prop where
  shapes : ∀ claim ∈ payload.claims, claim.validateClaimShape = .ok ()
  ordinals : payload.validateOrdinals = .ok ()

/-! ## The request catalog -/

structure CatalogFrame where
  frameId : OpaqueUuid
  ordinal : Nat
  (alignedTimestampNs sourceTimestampNs : Int)
  sourceArtifactUri : String
  sourceArtifactSha256 : Sha256Digest

structure CatalogCamera where
  cameraId : CameraId
  ordinal : Fin 6
  frames : List CatalogFrame
  position : CameraId.all[ordinal.val]? = some cameraId
  frameOrdinals : frames.map (·.ordinal) = List.range frames.length
  timestamps : frames.Pairwise fun a b => a.alignedTimestampNs ≤ b.alignedTimestampNs

structure CatalogPackage where
  packageId : OpaqueUuid
  ordinal : Nat
  (semanticContentSha256 manifestBytesSha256 : Sha256Digest)
  cameras : List CatalogCamera
  canonicalOrder : cameras.map (·.cameraId) = CameraId.all

structure RequestCatalog where
  requestCatalogId : OpaqueUuid
  task : VisionTask
  packages : List CatalogPackage
  semanticSha256 : Sha256Digest
  nonempty : packages ≠ []
  packageOrdinals : packages.map (·.ordinal) = List.range packages.length
  packageIds : (packages.map (·.packageId)).Nodup
  frameIds : ((packages.flatMap (·.cameras)).flatMap (·.frames)).map (·.frameId) ≠ [] ∧
    (((packages.flatMap (·.cameras)).flatMap (·.frames)).map (·.frameId)).Nodup

/-! ## The input plan -/

/-- One rendered item with the catalog frame it shows. -/
structure RenderedProviderItem where
  providerItemOrdinal : Nat
  packageId : OpaqueUuid
  packageOrdinal : Nat
  cameraId : CameraId
  cameraOrdinal : Fin 6
  frameId : OpaqueUuid
  frameOrdinal : Nat
  (alignedTimestampNs sourceTimestampNs : Int)
  sourceArtifactSha256 : Sha256Digest

def catalogFrameSequence (catalog : RequestCatalog) :
    List (CatalogPackage × CatalogCamera × CatalogFrame) :=
  catalog.packages.flatMap fun package => package.cameras.flatMap fun camera =>
    camera.frames.map fun frame => (package, camera, frame)

/-- The binding that an item must have at a place of the sequence. -/
def RenderedProviderItem.Binds (item : RenderedProviderItem)
    (place : CatalogPackage × CatalogCamera × CatalogFrame) : Prop :=
  item.packageId = place.1.packageId ∧ item.packageOrdinal = place.1.ordinal ∧
    item.cameraId = place.2.1.cameraId ∧ item.cameraOrdinal = place.2.1.ordinal ∧
    item.frameId = place.2.2.frameId ∧ item.frameOrdinal = place.2.2.ordinal ∧
    item.alignedTimestampNs = place.2.2.alignedTimestampNs ∧
    item.sourceTimestampNs = place.2.2.sourceTimestampNs ∧
    item.sourceArtifactSha256 = place.2.2.sourceArtifactSha256

instance RenderedProviderItem.decidableBinds (item : RenderedProviderItem)
    (place : CatalogPackage × CatalogCamera × CatalogFrame) : Decidable (item.Binds place) :=
  inferInstanceAs (Decidable (_ ∧ _ ∧ _ ∧ _ ∧ _ ∧ _ ∧ _ ∧ _ ∧ _))

def validateRenderedItems (catalog : RequestCatalog) (items : List RenderedProviderItem) :
    Except FusionError Unit := do
  let expected := catalogFrameSequence catalog
  require (items.length = expected.length)
    (.inputPlan "rendering must map every catalog frame exactly once")
  require (items.map (·.providerItemOrdinal) = List.range items.length)
    (.inputPlan "provider item ordinals must be contiguous and stored in order")
  (items.zip expected).forM fun pair =>
    require (pair.1.Binds pair.2)
      (.inputPlan "rendering must preserve package, camera, and frame catalog order")

/-- One ordered provider call: a range of the rendered items. -/
structure InferenceCallPart where
  (ordinal startItemOrdinal endItemOrdinalExclusive : Nat)
  partSemanticSha256 : Sha256Digest

/-- The item is in the range of the part. -/
def InferenceCallPart.Shows (part : InferenceCallPart) (providerItemOrdinal : Nat) : Prop :=
  part.startItemOrdinal ≤ providerItemOrdinal ∧ providerItemOrdinal < part.endItemOrdinalExclusive

instance InferenceCallPart.decidableShows (part : InferenceCallPart) (providerItemOrdinal : Nat) :
    Decidable (part.Shows providerItemOrdinal) :=
  inferInstanceAs (Decidable (_ ∧ _))

/-- Ordered calls and deterministic reduction. -/
structure InferenceCallPlan where
  parts : List InferenceCallPart
  reductionPolicy : String
  reductionPolicyVersion : SchemaVersion
  nonempty : parts ≠ []
  ordinals : parts.map (·.ordinal) = List.range parts.length

/-- The provider and model an input plan is made for. -/
structure ProviderTarget where
  (provider modelName : String)
  modelVersion : SchemaVersion
  deriving DecidableEq

/-- The prompt and the output schemas an input plan is bound to. -/
structure PromptOutputBinding where
  promptVersion : SchemaVersion
  (promptSha256 providerResponseSchemaSha256 enrichedDomainSchemaSha256 : Sha256Digest)

/-- The input plan, with what enrichment and reduction read of it. -/
structure InferenceInputPlan where
  inputPlanId : OpaqueUuid
  semanticSha256 : Sha256Digest
  subjectTask : VisionTask
  requestCatalog : RequestCatalog
  renderedItems : List RenderedProviderItem
  callPlan : InferenceCallPlan
  target : ProviderTarget
  promptOutput : PromptOutputBinding
  rendered : validateRenderedItems requestCatalog renderedItems = .ok ()

end Robata.Fusion
