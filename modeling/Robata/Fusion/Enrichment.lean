import Robata.Fusion.ClaimModels
import Robata.Lib.Dictionary

/-!
# Enrichment of provider claims

`ProviderClaimEnricher`: the tokens a claim cites are looked up in the reference catalog of the
plan and resolved to frames of the request catalog.  An enriched claim lists its evidence in the
order of the rendered items, whatever the order of the citations.
-/

namespace Robata.Fusion

open Contracts Lib
open Inference (VisionTask)
open QaPipeline (ProviderClaimKind ProviderObservation)

/-! ## Records -/

structure ProviderReferenceCatalogEntry where
  correlationToken : String
  (providerItemOrdinal packageOrdinal : Nat)
  cameraOrdinal : Fin 6
  frameOrdinal : Nat
  deriving DecidableEq

structure ProviderReferenceCatalog where
  (referenceCatalogId inputPlanId : OpaqueUuid)
  inputPlanSemanticSha256 : Sha256Digest
  requestCatalogId : OpaqueUuid
  requestCatalogSha256 : Sha256Digest
  task : VisionTask
  tokenPolicyVersion : SchemaVersion
  entries : List ProviderReferenceCatalogEntry
  semanticSha256 : Sha256Digest
  itemOrdinals : entries.map (·.providerItemOrdinal) = List.range entries.length
  tokens : (entries.map (·.correlationToken)).Nodup

/-- One provider token resolved to authoritative package and frame lineage. -/
structure EnrichedEvidenceReference where
  correlationToken : String
  providerItemOrdinal : Nat
  packageId : OpaqueUuid
  packageOrdinal : Nat
  (packageSemanticContentSha256 packageManifestSha256 : Sha256Digest)
  cameraId : CameraId
  cameraOrdinal : Fin 6
  frameId : OpaqueUuid
  frameOrdinal : Nat
  (alignedTimestampNs sourceTimestampNs : Int)
  sourceArtifactUri : String
  sourceArtifactSha256 : Sha256Digest
  deriving DecidableEq

structure ModelReportedUncalibrated where
  (confidenceId producerId : OpaqueUuid)
  producerVersion : SchemaVersion
  sourceClaimOrdinal : Nat
  value : Rat
  deriving DecidableEq

/-- Provider claim plus only orchestrator-owned identity and evidence references. -/
structure EnrichedProviderClaim where
  claimId : OpaqueUuid
  claimOrdinal : Nat
  kind : ProviderClaimKind
  packageId : Option OpaqueUuid
  packageOrdinal : Option Nat
  cameraId : Option CameraId
  interval : Option NanosecondInterval
  label : Option String
  observation : ProviderObservation
  evidence : List EnrichedEvidenceReference
  modelReportedConfidence : Option ModelReportedUncalibrated
  conflictCodes : List String
  deriving DecidableEq

def EnrichedProviderClaim.validateBindingShape (claim : EnrichedProviderClaim) :
    Except FusionError Unit := do
  require (claim.kind.isCameraClaim = true ↔
      claim.packageId ≠ none ∧ claim.packageOrdinal ≠ none ∧ claim.cameraId ≠ none)
    (.value "enriched camera identity shape does not match claim kind")
  require (claim.evidence.map (·.correlationToken)).Nodup
    (.value "enriched evidence references must be unique within a claim")
  require (claim.cameraId ≠ none → ∀ item ∈ claim.evidence,
      some item.cameraId = claim.cameraId ∧ some item.packageId = claim.packageId)
    (.value "camera claim evidence must match its authoritative camera")

/-- The bytes a provider returned, and the target that returned them. -/
structure RawProviderResponseArtifact where
  artifactId : OpaqueUuid
  exactBytesSha256 : Sha256Digest
  inferenceId : OpaqueUuid
  target : ProviderTarget

structure JsonSchemaRef where
  schemaId : String
  version : SchemaVersion
  sha256 : Sha256Digest
  deriving DecidableEq

/-- Parsed claims, a separate immutable untrusted artifact. -/
structure ParsedProviderClaimArtifact where
  artifactId : OpaqueUuid
  semanticSha256 : Sha256Digest
  rawResponse : RawProviderResponseArtifact
  providerClaimSchema : JsonSchemaRef
  task : VisionTask
  payload : ProviderClaimPayload

/-- `ParsedProviderClaimArtifact.validate_artifact`, with the payload's own contract. -/
structure ParsedProviderClaimArtifact.Accepted (parsed : ParsedProviderClaimArtifact) : Prop where
  payload : parsed.payload.Accepted
  kinds : ∀ claim ∈ parsed.payload.claims, claim.kind ∈ taskKinds parsed.task
  abstention : parsed.task ≠ .fusionAdjudication → parsed.payload.abstained = false

structure SelectedAttemptOutput where
  (inferenceId logicalInvocationId : OpaqueUuid)
  selectionDecisionLogicalKey : NodeLogicalKey
  rawResponseArtifactId : OpaqueUuid
  rawResponseSha256 : Sha256Digest
  parsedClaimArtifactId : OpaqueUuid
  (parsedClaimSha256 outputSha256 : Sha256Digest)
  deriving DecidableEq

structure EnrichmentAuthorityContext where
  recordingIdentity : Sha256Digest
  (inferenceId logicalInvocationId : OpaqueUuid)
  promptVersion : SchemaVersion
  promptSha256 : Sha256Digest
  deriving DecidableEq

/-- What is hashed of an enriched output: all of it but the artifact locator and the clock. -/
structure EnrichedOutputProjection where
  enrichmentLogicalKey : NodeLogicalKey
  task : VisionTask
  selectedAttempt : SelectedAttemptOutput
  requestCatalogId : OpaqueUuid
  requestCatalogSha256 : Sha256Digest
  referenceCatalogId : OpaqueUuid
  referenceCatalogSha256 : Sha256Digest
  inputPlanId : OpaqueUuid
  inputPlanSemanticSha256 : Sha256Digest
  (providerClaimSchema enrichedOutputSchema : JsonSchemaRef)
  enrichmentPolicyVersion : SchemaVersion
  authority : EnrichmentAuthorityContext
  claims : List EnrichedProviderClaim
  abstained : Bool
  deriving DecidableEq

structure OrchestratorEnrichedOutput extends EnrichedOutputProjection where
  artifactId : OpaqueUuid
  semanticSha256 : Sha256Digest
  createdAt : String

/-! ## What is hashed -/

/-- One evidence reference in `_fusion_claim_reduction_projection`. -/
structure FusionEvidenceProjection where
  packageOrdinal : Nat
  packageSemanticContentSha256 : Sha256Digest
  cameraId : CameraId
  cameraOrdinal : Fin 6
  frameOrdinal : Nat
  (alignedTimestampNs sourceTimestampNs : Int)
  sourceArtifactSha256 : Sha256Digest
  deriving DecidableEq

/-- Enriched claim content without row IDs or storage locators. -/
structure FusionClaimProjection where
  kind : ProviderClaimKind
  packageOrdinal : Option Nat
  cameraId : Option CameraId
  interval : Option NanosecondInterval
  label : Option String
  observation : ProviderObservation
  evidence : List FusionEvidenceProjection
  modelReportedConfidence : Option (SchemaVersion × Rat)
  conflictCodes : List String
  deriving DecidableEq

/-- One part in the projection of a reduction. -/
structure FusionPartProjection where
  partOrdinal : Nat
  (partSemanticSha256 selectedAttemptOutputSha256 recordingIdentity : Sha256Digest)
  enrichmentLogicalKey : NodeLogicalKey
  enrichmentPolicyVersion : SchemaVersion
  abstained : Bool
  deriving DecidableEq

/-- One reduced claim in the projection of a reduction, with its sources. -/
structure ReducedClaimProjection where
  fusionOutputOrdinal : Nat
  claimSemanticSha256 : Sha256Digest
  representative : FusionClaimProjection
  sources : List (Nat × Nat × NodeLogicalKey)
  deriving DecidableEq

inductive FusionOutcome
  | claims
  | noSurvivingEvents
  | allPartsAbstained
  deriving DecidableEq

structure FusionReductionProjection where
  (inputPlanSemanticSha256 barrierReductionSemanticSha256 : Sha256Digest)
  reductionPolicy : String
  reductionPolicyVersion : SchemaVersion
  outcome : FusionOutcome
  parts : List FusionPartProjection
  claims : List ReducedClaimProjection
  deriving DecidableEq

/-- The projections this subsystem hashes. -/
inductive SemanticProjection
  | providerClaim (content : ProviderClaimContent)
  | fusionClaim (projection : FusionClaimProjection)
  | correlation (requestCatalogSha256 : Sha256Digest) (tokenPolicyVersion : SchemaVersion)
      (providerItemOrdinal packageOrdinal cameraOrdinal frameOrdinal : Nat)
  | selectedAttempt (rawResponseSha256 parsedClaimSha256 : Sha256Digest)
      (selectionDecisionLogicalKey : NodeLogicalKey)
  | enrichment (selectedAttemptOutputSha256 requestCatalogSha256 targetSchemaSha256 : Sha256Digest)
      (enrichmentPolicyVersion : SchemaVersion)
  | enrichedOutput (projection : EnrichedOutputProjection)
  | reduction (projection : FusionReductionProjection)
  deriving DecidableEq

/-- `semantic_sha256`, and `uuid5` in the URL namespace. -/
structure Hashing where
  semanticSha256 : SemanticProjection → Sha256Digest
  uuid5 : String → OpaqueUuid

/-- The digest is free of collisions among the given values. -/
def Hashing.CollisionFree (H : Hashing) (hashed : List SemanticProjection) : Prop :=
  ∀ p ∈ hashed, ∀ q ∈ hashed, H.semanticSha256 p = H.semanticSha256 q → p = q

variable (H : Hashing)

/-- `SelectedAttemptOutput.validate_digest`: the output digest is derived. -/
def SelectedAttemptOutput.Accepted (selected : SelectedAttemptOutput) : Prop :=
  selected.outputSha256 = H.semanticSha256 (.selectedAttempt selected.rawResponseSha256
    selected.parsedClaimSha256 selected.selectionDecisionLogicalKey)

def Hashing.stableUuid (name digest : String) (ordinal : Nat) : OpaqueUuid :=
  H.uuid5 ("robata:" ++ name ++ ":" ++ digest ++ ":" ++ toString ordinal)

def Hashing.correlationToken (requestCatalogSha256 : Sha256Digest)
    (tokenPolicyVersion : SchemaVersion) (item : RenderedProviderItem) : String :=
  "ref:" ++ H.semanticSha256 (.correlation requestCatalogSha256 tokenPolicyVersion
    item.providerItemOrdinal item.packageOrdinal item.cameraOrdinal.val item.frameOrdinal)

/-- `_reference_entries_for_rendering`: the rendered items are numbered from zero, as the plan
checks. -/
def referenceEntriesForRendering (requestCatalogSha256 : Sha256Digest)
    (renderedItems : List RenderedProviderItem) (tokenPolicyVersion : SchemaVersion) :
    List ProviderReferenceCatalogEntry :=
  renderedItems.map fun item =>
    { correlationToken := H.correlationToken requestCatalogSha256 tokenPolicyVersion item
      providerItemOrdinal := item.providerItemOrdinal
      packageOrdinal := item.packageOrdinal
      cameraOrdinal := item.cameraOrdinal
      frameOrdinal := item.frameOrdinal }

def expectedReferenceEntries (plan : InferenceInputPlan) (tokenPolicyVersion : SchemaVersion) :
    List ProviderReferenceCatalogEntry :=
  referenceEntriesForRendering H plan.requestCatalog.semanticSha256 plan.renderedItems
    tokenPolicyVersion

/-! ## Claims -/

/-- The package and camera coordinates that a part shows. -/
def allowedCoordinates (plan : InferenceInputPlan) (part : InferenceCallPart) :
    List (Nat × Fin 6) :=
  ((plan.renderedItems.take part.endItemOrdinalExclusive).drop part.startItemOrdinal).map
    fun item => (item.packageOrdinal, item.cameraOrdinal)

/-- The package and the camera at the ordinals a camera claim gives. -/
def catalogCamera (plan : InferenceInputPlan) (packageOrdinal : Nat) (cameraOrdinal : Fin 6) :
    Except FusionError (CatalogPackage × CatalogCamera) :=
  match plan.requestCatalog.packages[packageOrdinal]? with
  | none => .error .index
  | some package =>
    match package.cameras[cameraOrdinal.val]? with
    | none => .error .index
    | some camera => .ok (package, camera)

/-- The package and camera that a camera claim is bound to. -/
def boundCamera (plan : InferenceInputPlan) (part : InferenceCallPart)
    (packageOrdinal : Nat) (cameraOrdinal : Fin 6) :
    Except FusionError (CatalogPackage × CatalogCamera) :=
  match catalogCamera plan packageOrdinal cameraOrdinal with
  | .error _ =>
    .error (.enrichment "provider local package or camera ordinal is out of catalog")
  | .ok bound => do
      require ((bound.1.ordinal, bound.2.ordinal) ∈ allowedCoordinates plan part)
        (.enrichment "provider local package or camera ordinal is outside the call part")
      pure bound

/-- Only camera claims are bound to a camera. -/
def claimCamera (plan : InferenceInputPlan) (part : InferenceCallPart)
    (claim : ProviderTaskClaim) : Except FusionError (Option (CatalogPackage × CatalogCamera)) :=
  match claim.kind.isCameraClaim, claim.packageOrdinal, claim.cameraOrdinal with
  | false, _, _ => .ok none
  | true, some packageOrdinal, some cameraOrdinal =>
    (boundCamera plan part packageOrdinal cameraOrdinal).map some
  -- the two assertions
  | true, _, _ => .error (.value "assertion")

/-- The frame at the coordinates of an entry. -/
def catalogFrame (plan : InferenceInputPlan) (entry : ProviderReferenceCatalogEntry) :
    Except FusionError (CatalogPackage × CatalogCamera × CatalogFrame) :=
  match catalogCamera plan entry.packageOrdinal entry.cameraOrdinal with
  | .error error => .error error
  | .ok (package, camera) =>
    match camera.frames[entry.frameOrdinal]? with
    | none => .error (.enrichment "provider frame ordinal is outside the request catalog")
    | some frame => .ok (package, camera, frame)

/-- The evidence reference of a token that stands for a frame. -/
def evidenceReference (entry : ProviderReferenceCatalogEntry)
    (place : CatalogPackage × CatalogCamera × CatalogFrame) : EnrichedEvidenceReference where
  correlationToken := entry.correlationToken
  providerItemOrdinal := entry.providerItemOrdinal
  packageId := place.1.packageId
  packageOrdinal := place.1.ordinal
  packageSemanticContentSha256 := place.1.semanticContentSha256
  packageManifestSha256 := place.1.manifestBytesSha256
  cameraId := place.2.1.cameraId
  cameraOrdinal := place.2.1.ordinal
  frameId := place.2.2.frameId
  frameOrdinal := place.2.2.ordinal
  alignedTimestampNs := place.2.2.alignedTimestampNs
  sourceTimestampNs := place.2.2.sourceTimestampNs
  sourceArtifactUri := place.2.2.sourceArtifactUri
  sourceArtifactSha256 := place.2.2.sourceArtifactSha256

/-- The entry is of the camera that the claim is bound to, if it is bound to one. -/
def MatchesBound (entry : ProviderReferenceCatalogEntry) :
    Option (CatalogPackage × CatalogCamera) → Prop
  | none => True
  | some bound =>
    entry.packageOrdinal = bound.1.ordinal ∧ entry.cameraOrdinal = bound.2.ordinal

instance decidableMatchesBound (entry : ProviderReferenceCatalogEntry) :
    ∀ bound, Decidable (MatchesBound entry bound)
  | none => inferInstanceAs (Decidable True)
  | some _ => inferInstanceAs (Decidable (_ ∧ _))

/-- One citation of a claim. -/
def resolveToken (plan : InferenceInputPlan) (part : InferenceCallPart)
    (entries : Dict String ProviderReferenceCatalogEntry)
    (bound : Option (CatalogPackage × CatalogCamera)) (token : String) :
    Except FusionError EnrichedEvidenceReference :=
  match entries.get? token with
  | none => .error (.enrichment "provider evidence token is outside the request catalog")
  | some entry => do
      require (part.Shows entry.providerItemOrdinal)
        (.enrichment "provider evidence token is outside the selected call part")
      require (MatchesBound entry bound)
        (.enrichment "provider evidence token does not match claim-local ordinals")
      let place ← catalogFrame plan entry
      pure (evidenceReference entry place)

/-- The confidence record of a reported score. -/
def reportedConfidence (parsed : ParsedProviderClaimArtifact) (selected : SelectedAttemptOutput)
    (logicalDigest : Sha256Digest) (claim : ProviderTaskClaim) :
    Option ModelReportedUncalibrated :=
  claim.modelReportedScore.map fun score =>
    { confidenceId := H.stableUuid "model-reported-uncalibrated" logicalDigest claim.claimOrdinal
      producerId := selected.inferenceId
      producerVersion := parsed.rawResponse.target.modelVersion
      sourceClaimOrdinal := claim.claimOrdinal
      value := score }

/-- One iteration of `_enrich_claims`. -/
def enrichClaim (plan : InferenceInputPlan) (part : InferenceCallPart)
    (entries : Dict String ProviderReferenceCatalogEntry) (parsed : ParsedProviderClaimArtifact)
    (selected : SelectedAttemptOutput) (logicalDigest : Sha256Digest)
    (claim : ProviderTaskClaim) : Except FusionError EnrichedProviderClaim := do
  let bound ← claimCamera plan part claim
  let evidence ← claim.evidenceTokens.mapM (resolveToken plan part entries bound)
  let enriched : EnrichedProviderClaim :=
    { claimId := H.stableUuid "enriched-provider-claim" logicalDigest claim.claimOrdinal
      claimOrdinal := claim.claimOrdinal
      kind := claim.kind
      packageId := bound.map fun place => place.1.packageId
      packageOrdinal := bound.map fun place => place.1.ordinal
      cameraId := bound.map fun place => place.2.cameraId
      interval := claim.interval
      label := claim.label
      observation := claim.observation
      evidence := sortedBy (·.providerItemOrdinal) evidence
      modelReportedConfidence := reportedConfidence H parsed selected logicalDigest claim
      conflictCodes := claim.conflictCodes }
  enriched.validateBindingShape
  pure enriched

def enrichClaims (plan : InferenceInputPlan) (part : InferenceCallPart)
    (reference : ProviderReferenceCatalog) (parsed : ParsedProviderClaimArtifact)
    (selected : SelectedAttemptOutput) (logicalDigest : Sha256Digest) :
    Except FusionError (List EnrichedProviderClaim) :=
  parsed.payload.claims.mapM
    (enrichClaim H plan part (Dict.index (·.correlationToken) reference.entries) parsed selected
      logicalDigest)

/-! ## One part -/

def enrichmentPart (plan : InferenceInputPlan) (partOrdinal : Option Nat) :
    Except FusionError InferenceCallPart :=
  match partOrdinal, plan.callPlan.parts with
  | none, [part] => .ok part
  | none, _ =>
    .error (.enrichment "multi-part enrichment requires an explicit input-plan part ordinal")
  | some ordinal, parts =>
    match parts[ordinal]? with
    | some part => .ok part
    | none => .error (.enrichment "input-plan part ordinal is out of range")

/-- The kind of claim that has to cover every camera, for the tasks that ask for it. -/
def coverageKind : VisionTask → Option ProviderClaimKind
  | .qaCoarse | .qaDense => some .qaObservation
  | .actionEvidence => some .actionObservation
  | .boundaryRefinement => some .boundaryObservation
  | .eventProposal | .fusionAdjudication => none

def validateCameraCoverage (plan : InferenceInputPlan) (part : InferenceCallPart)
    (parsed : ParsedProviderClaimArtifact) : Except FusionError Unit :=
  match coverageKind parsed.task with
  | none => .ok ()
  | some kind =>
    let expected : List (Option Nat × Option (Fin 6)) :=
      (allowedCoordinates plan part).map fun place => (some place.1, some place.2)
    let actual : List (Option Nat × Option (Fin 6)) :=
      (parsed.payload.claims.filter (·.kind = kind)).map
        fun claim => (claim.packageOrdinal, claim.cameraOrdinal)
    require (actual.Nodup ∧ actual.toFinset = expected.toFinset)
      (.enrichment "camera claims must cover each request-catalog package/camera exactly once")

/-- The registered schemas: whether a reference resolves exactly, and what its document accepts. -/
structure SchemaRegistry where
  resolveExact : JsonSchemaRef → Except FusionError Unit
  validatePayload : JsonSchemaRef → ProviderClaimPayload → Except FusionError Unit
  validateOutput : JsonSchemaRef → OrchestratorEnrichedOutput → Except FusionError Unit

def enrichedOutputSchemaId : String :=
  "https://schemas.robata.dev/orchestrator-enriched-output"

def enrichedOutputSchemaVersion : SchemaVersion := "2.0.0"

def validateBoundary (registry : SchemaRegistry) (plan : InferenceInputPlan)
    (part : InferenceCallPart) (reference : ProviderReferenceCatalog)
    (parsed : ParsedProviderClaimArtifact) (selected : SelectedAttemptOutput)
    (authority : EnrichmentAuthorityContext) (schema : JsonSchemaRef) :
    Except FusionError Unit := do
  require (parsed.task = plan.subjectTask ∧ plan.requestCatalog.task = parsed.task)
    (.enrichment "provider claims do not match the input-plan task")
  require (reference.inputPlanId = plan.inputPlanId ∧
      reference.inputPlanSemanticSha256 = plan.semanticSha256 ∧
      reference.requestCatalogId = plan.requestCatalog.requestCatalogId ∧
      reference.requestCatalogSha256 = plan.requestCatalog.semanticSha256 ∧
      reference.task = plan.requestCatalog.task ∧
      reference.entries = expectedReferenceEntries H plan reference.tokenPolicyVersion)
    (.enrichment "provider reference catalog does not match input plan")
  require (parsed.providerClaimSchema.sha256 = plan.promptOutput.providerResponseSchemaSha256)
    (.enrichment "provider claim schema is not bound by input plan")
  require (schema.sha256 = plan.promptOutput.enrichedDomainSchemaSha256)
    (.enrichment "enriched output schema is not bound by input plan")
  require (schema.schemaId = enrichedOutputSchemaId)
    (.enrichment "unexpected enriched output schema identity")
  require (schema.version = enrichedOutputSchemaVersion)
    (.enrichment "enriched output schema must be pinned to v2")
  require (parsed.providerClaimSchema.sha256 ≠ schema.sha256)
    (.enrichment "provider and enriched schemas must be distinct")
  require (selected.inferenceId = parsed.rawResponse.inferenceId ∧
      selected.rawResponseArtifactId = parsed.rawResponse.artifactId ∧
      selected.rawResponseSha256 = parsed.rawResponse.exactBytesSha256 ∧
      selected.parsedClaimArtifactId = parsed.artifactId ∧
      selected.parsedClaimSha256 = parsed.semanticSha256 ∧
      authority.inferenceId = selected.inferenceId ∧
      authority.logicalInvocationId = selected.logicalInvocationId)
    (.enrichment "selected attempt artifact lineage is inconsistent")
  require (parsed.rawResponse.target = plan.target)
    (.enrichment "raw provider target does not match input plan")
  require (authority.promptVersion = plan.promptOutput.promptVersion ∧
      authority.promptSha256 = plan.promptOutput.promptSha256)
    (.enrichment "prompt authority does not match input plan")
  registry.resolveExact parsed.providerClaimSchema
  registry.resolveExact schema
  registry.validatePayload parsed.providerClaimSchema parsed.payload
  validateCameraCoverage plan part parsed

def enrichmentLogicalDigest (selectedAttemptOutputSha256 requestCatalogSha256
    targetSchemaSha256 : Sha256Digest) (enrichmentPolicyVersion : SchemaVersion) : Sha256Digest :=
  H.semanticSha256 (.enrichment selectedAttemptOutputSha256 requestCatalogSha256
    targetSchemaSha256 enrichmentPolicyVersion)

/-- The lineage of one claim in `validate_output`. -/
def validateClaimLineage (output : OrchestratorEnrichedOutput) (digest : Sha256Digest)
    (claim : EnrichedProviderClaim) : Except FusionError Unit := do
  require (claim.claimId = H.stableUuid "enriched-provider-claim" digest claim.claimOrdinal)
    (.value "enriched provider claim ID is inconsistent")
  require (∀ confidence ∈ claim.modelReportedConfidence,
      confidence.confidenceId =
          H.stableUuid "model-reported-uncalibrated" digest claim.claimOrdinal ∧
        confidence.producerId = output.selectedAttempt.inferenceId ∧
        confidence.sourceClaimOrdinal = claim.claimOrdinal)
    (.value "model-reported confidence lineage is inconsistent")

def validateOutput (output : OrchestratorEnrichedOutput) : Except FusionError Unit := do
  require (output.providerClaimSchema.schemaId =
      "https://schemas.robata.dev/provider-claim-payload")
    (.value "provider claim schema reference is not authoritative")
  require (output.enrichedOutputSchema.schemaId = enrichedOutputSchemaId)
    (.value "enriched output requires its dedicated registered schema")
  require (output.enrichedOutputSchema.version = enrichedOutputSchemaVersion)
    (.value "enriched output requires the exact v2 registered schema")
  require (output.providerClaimSchema.sha256 ≠ output.enrichedOutputSchema.sha256)
    (.value "provider and enriched schemas must be distinct artifacts")
  require (output.selectedAttempt.inferenceId = output.authority.inferenceId)
    (.value "selected attempt does not match authoritative inference")
  require (output.selectedAttempt.logicalInvocationId = output.authority.logicalInvocationId)
    (.value "selected attempt does not match authoritative logical invocation")
  require (output.claims.map (·.claimOrdinal) = List.range output.claims.length)
    (.value "enriched claim ordinals must be contiguous from zero")
  let digest := enrichmentLogicalDigest H output.selectedAttempt.outputSha256
    output.requestCatalogSha256 output.enrichedOutputSchema.sha256 output.enrichmentPolicyVersion
  require (output.enrichmentLogicalKey = "orchestrator-enrichment:" ++ digest)
    (.value "enrichment logical key is inconsistent")
  output.claims.forM (validateClaimLineage H output digest)
  require (output.semanticSha256 =
      H.semanticSha256 (.enrichedOutput output.toEnrichedOutputProjection))
    (.value "enriched output semantic_sha256 is inconsistent")

/-- The arguments of one call of `enrich` but the input plan and the reference catalog, which one
run has once. -/
structure EnrichmentCall where
  parsed : ParsedProviderClaimArtifact
  selected : SelectedAttemptOutput
  authority : EnrichmentAuthorityContext
  enrichedOutputSchema : JsonSchemaRef
  enrichmentPolicyVersion : SchemaVersion
  artifactId : OpaqueUuid
  createdAt : String
  inputPlanPartOrdinal : Option Nat

/-- The values of the enriched output of a call, with the claims as enriched. -/
def enrichedValues (plan : InferenceInputPlan) (reference : ProviderReferenceCatalog)
    (call : EnrichmentCall) (logicalDigest : Sha256Digest) (claims : List EnrichedProviderClaim) :
    EnrichedOutputProjection where
  enrichmentLogicalKey := "orchestrator-enrichment:" ++ logicalDigest
  task := call.parsed.task
  selectedAttempt := call.selected
  requestCatalogId := plan.requestCatalog.requestCatalogId
  requestCatalogSha256 := plan.requestCatalog.semanticSha256
  referenceCatalogId := reference.referenceCatalogId
  referenceCatalogSha256 := reference.semanticSha256
  inputPlanId := plan.inputPlanId
  inputPlanSemanticSha256 := plan.semanticSha256
  providerClaimSchema := call.parsed.providerClaimSchema
  enrichedOutputSchema := call.enrichedOutputSchema
  enrichmentPolicyVersion := call.enrichmentPolicyVersion
  authority := call.authority
  claims
  abstained := call.parsed.payload.abstained

def EnrichmentCall.logicalDigest (plan : InferenceInputPlan) (call : EnrichmentCall) :
    Sha256Digest :=
  enrichmentLogicalDigest H call.selected.outputSha256 plan.requestCatalog.semanticSha256
    call.enrichedOutputSchema.sha256 call.enrichmentPolicyVersion

/-- The enriched output of a call, with its digest. -/
def enrichedOutput (plan : InferenceInputPlan) (reference : ProviderReferenceCatalog)
    (call : EnrichmentCall) (claims : List EnrichedProviderClaim) : OrchestratorEnrichedOutput :=
  let values := enrichedValues plan reference call (call.logicalDigest H plan) claims
  { values with
    artifactId := call.artifactId
    semanticSha256 := H.semanticSha256 (.enrichedOutput values)
    createdAt := call.createdAt }

def enrich (registry : SchemaRegistry) (plan : InferenceInputPlan)
    (reference : ProviderReferenceCatalog) (call : EnrichmentCall) :
    Except FusionError OrchestratorEnrichedOutput := do
  let part ← enrichmentPart plan call.inputPlanPartOrdinal
  validateBoundary H registry plan part reference call.parsed call.selected call.authority
    call.enrichedOutputSchema
  let claims ← enrichClaims H plan part reference call.parsed call.selected
    (call.logicalDigest H plan)
  let output := enrichedOutput H plan reference call claims
  validateOutput H output
  registry.validateOutput call.enrichedOutputSchema output
  pure output

end Robata.Fusion
