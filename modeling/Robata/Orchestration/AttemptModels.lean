import Robata.Contracts.JsonValues
import Robata.Inference.CallBarrier

/-!
# Records of an inference attempt

What the orchestrator is given, what it asks of an adapter and what it keeps: requests and
outcomes, policies and capabilities, and the three records of the evidence ledger (intent,
terminal attempt, selection).

A contract is a structure with the fields of the source.  Of an input plan, the fields that
the orchestrator reads are kept.  A timestamp is its number of microseconds: the texts are
written with microseconds and are compared after they have been parsed.  A configuration
lists its entries in one order, so that equal mappings are equal lists.
-/

namespace Robata.Orchestration

open Contracts

/-- Microseconds in UTC. -/
abbrev Rfc3339Timestamp := Int

abbrev NonEmptyString := { text : String // text ≠ "" }

export Inference (VisionTask InferenceStatus Retryability)

/-! ## Input plans -/

/-- One ordered provider call of an input plan. -/
structure InferenceCallPart where
  (ordinal partCount startItemOrdinal endItemOrdinalExclusive measuredInputTokens : Nat)
  (itemManifestSha256 partSemanticSha256 : Sha256Digest)
  idempotencyKey : String
  deriving DecidableEq

structure InferenceCallPlan where
  callPlanSha256 : Sha256Digest
  parts : List InferenceCallPart
  deriving DecidableEq

structure SubjectPackageDigest where
  packageId : OpaqueUuid
  ordinal : Nat
  (semanticContentSha256 manifestBytesSha256 : Sha256Digest)
  deriving DecidableEq

structure InputPlanSubject where
  task : VisionTask
  packages : List SubjectPackageDigest
  deriving DecidableEq

structure InputPlanTarget where
  (provider modelName : String)
  (modelVersion adapterVersion : SchemaVersion)
  capabilitySnapshotId : OpaqueUuid
  capabilitySnapshotSha256 : Sha256Digest
  deriving DecidableEq

/-- What is read of a rendered provider item: its artifact. -/
structure RenderedArtifact where
  byteCount : Nat
  (mediaType encoding : String)
  (width height : Nat)
  deriving DecidableEq

structure PromptOutputContract where
  promptVersion : SchemaVersion
  (promptSha256 providerResponseSchemaSha256 enrichedDomainSchemaSha256 : Sha256Digest)
  deriving DecidableEq

/-- Pinned per-request limits; `none` means explicitly unbounded. -/
structure ApplicableProviderLimits where
  (maxImagesPerRequest maxPixelsPerImage maxPayloadBytesPerRequest : Option Nat)
  maxInputTokensPerRequest : Option Nat
  deriving DecidableEq

structure MeasuredProviderLimits where
  (maxImagesPerRequest maxPixelsPerImage maxPayloadBytesPerRequest maxInputTokensPerRequest : Nat)
  deriving DecidableEq

structure InferenceInputPlan where
  inputPlanId : OpaqueUuid
  catalogTask : VisionTask
  subject : InputPlanSubject
  target : InputPlanTarget
  renderedItems : List RenderedArtifact
  renderingSha256 : Sha256Digest
  promptOutput : PromptOutputContract
  applicableLimits : ApplicableProviderLimits
  measuredLimits : MeasuredProviderLimits
  callPlan : InferenceCallPlan
  semanticSha256 : Sha256Digest
  deriving DecidableEq

/-- `items[start_item_ordinal : end_item_ordinal_exclusive]`. -/
def InferenceInputPlan.partItems (plan : InferenceInputPlan) (part : InferenceCallPart) :
    List RenderedArtifact :=
  (plan.renderedItems.take part.endItemOrdinalExclusive).drop part.startItemOrdinal

/-! ## Requests and outcomes -/

structure JsonSchemaRef where
  schemaId : String
  version : SchemaVersion
  artifactId : String
  sha256 : Sha256Digest
  deriving DecidableEq

structure PackageInput where
  packageId : OpaqueUuid
  (packageSemanticContentSha256 packageManifestSha256 : Sha256Digest)
  role : String
  ordinal : Nat
  deriving DecidableEq

/-- Normalized request accepted by any adapter. -/
structure VisionInferenceRequest where
  (logicalInvocationId requestId : OpaqueUuid)
  (idempotencyKey provider modelName : String)
  modelVersion : SchemaVersion
  packageSetId : Option OpaqueUuid
  packageInputs : List PackageInput
  packageInputSetSha256 : Sha256Digest
  task : VisionTask
  promptVersion : SchemaVersion
  promptArtifactId : String
  (promptSha256 renderedInputDigest : Sha256Digest)
  inputPlanId : Option OpaqueUuid
  inputPlanSemanticSha256 : Option Sha256Digest
  (inputPlanPartOrdinal inputPlanPartCount : Option Nat)
  inputPlanPartSemanticSha256 : Option Sha256Digest
  inputPlan : Option InferenceInputPlan
  outputSchema : JsonSchemaRef
  capabilitySnapshotId : OpaqueUuid
  capabilitySnapshotDigest : Sha256Digest
  modelPolicyVersion : SchemaVersion
  generationConfig : JsonObject
  providerIdempotencyKey : String
  timeoutMs : Nat
  metadata : JsonObject
  deriving DecidableEq

structure VisionUsage where
  (inputFrames inputImages : Nat)
  (inputTokens outputTokens : Option Nat)
  cost : Option Rat
  currency : Option String
  deriving DecidableEq

structure NormalizedOutputEnvelope where
  task : VisionTask
  outputSchema : JsonSchemaRef
  packageInputSetSha256 : Sha256Digest
  inputPlanSemanticSha256 : Option Sha256Digest
  inputPlanPartOrdinal : Option Nat
  inputPlanPartSemanticSha256 : Option Sha256Digest
  payload : JsonObject
  deriving DecidableEq

/-- A failure; its texts are not empty where its contract has been checked. -/
structure InferenceFailure where
  (code detail : String)
  retryability : Retryability
  deriving DecidableEq

structure VisionInferenceSuccess where
  (providerRequestId provider modelName : String)
  modelVersion : SchemaVersion
  normalizedOutput : NormalizedOutputEnvelope
  rawOutputArtifactId : String
  reportedConfidence : Option Rat
  usage : VisionUsage
  latencyMs : Nat
  deriving DecidableEq

/-- A failure.  Its contract allows no success, but an adapter need not have checked it. -/
structure VisionInferenceFailure where
  status : InferenceStatus
  providerRequestId : Option String
  (provider modelName : String)
  modelVersion : SchemaVersion
  rawOutputArtifactId : Option String
  usage : VisionUsage
  latencyMs : Nat
  failure : InferenceFailure
  deriving DecidableEq

/-- The exceptions an awaited call can end with, as the handlers tell them apart: the last kind
is any other `BaseException`. -/
inductive RaisedKind
  | cancelled
  | timeout
  | exception
  | baseException
  deriving DecidableEq

/-- An exception and the name of its type.  It has no text where `str` of it raises, or gives what
no contract takes as a text. -/
structure Raised where
  kind : RaisedKind
  text : Option String
  typeName : String
  deriving DecidableEq

/-- What an adapter returns: one of the two outcomes, or some other object.  An instance of one of
the two classes that its contract has not checked is unreadable where a field that is read of it
is missing or the terminal attempt refuses it. -/
inductive AdapterOutcome
  | success (outcome : VisionInferenceSuccess)
  | failure (outcome : VisionInferenceFailure)
  | unreadable (exc : Raised)
  | unsupported
  deriving DecidableEq

/-! ## Policies and capabilities -/

inductive InputMode
  | image
  | multiImage
  | video
  deriving DecidableEq

structure ModelCapabilities where
  snapshotId : OpaqueUuid
  snapshotDigest : Sha256Digest
  (provider modelName : String)
  modelVersion : SchemaVersion
  supportedTasks : List VisionTask
  inputModes : List InputMode
  acceptedMediaTypes : List String
  (maxImagesPerRequest maxPixelsPerImage maxPayloadBytes maxInputTokens : Option Nat)
  supportsJsonSchema : Bool
  dataHandlingPolicyVersion : SchemaVersion

structure InferencePolicy where
  policyVersion : SchemaVersion
  task : VisionTask
  (provider modelName : String)
  (modelVersion adapterVersion promptVersion : SchemaVersion)
  promptArtifactId : String
  promptSha256 : Sha256Digest
  outputSchema : JsonSchemaRef
  enrichedOutputSchema : Option JsonSchemaRef
  generationConfig : JsonObject
  timeoutMs : Nat
  selectionPolicyVersion : SchemaVersion
  requiredInputMode : InputMode
  requiredMediaTypes : List String
  requiredDataHandlingPolicyVersion : Option SchemaVersion

/-! ## The records of the evidence ledger -/

structure InferenceIntent where
  (inferenceId logicalInvocationId requestId : OpaqueUuid)
  idempotencyKey : String
  task : VisionTask
  (provider modelName : String)
  (modelVersion adapterVersion : SchemaVersion)
  (mcapId cameraMappingRunId alignmentId : OpaqueUuid)
  (startNs endNs : Int)
  (inputConfig samplingConfig : JsonObject)
  inputPlanId : Option OpaqueUuid
  inputPlanSemanticSha256 : Option Sha256Digest
  (inputPlanPartOrdinal inputPlanPartCount : Option Nat)
  inputPlanPartSemanticSha256 : Option Sha256Digest
  (experimentId shadowRouteId primaryInferenceId : Option String)
  (attempt retryCount : Nat)
  shadow : Bool
  request : VisionInferenceRequest
  (queuedAt createdAt : Rfc3339Timestamp)
  deriving DecidableEq

structure ModelInferenceUsage where
  (inputFrames inputImages : Nat)
  (inputTokens outputTokens : Option Nat)
  cost : Option Rat
  currency : Option String
  deriving DecidableEq

structure ModelInference where
  (inferenceId logicalInvocationId requestId : OpaqueUuid)
  idempotencyKey : String
  mcapId : OpaqueUuid
  (packageSetId packageId : Option OpaqueUuid)
  packageIds : List String
  (cameraMappingRunId alignmentId : OpaqueUuid)
  (startNs endNs : Int)
  stage : VisionTask
  (provider modelName : String)
  (modelVersion adapterVersion promptVersion : SchemaVersion)
  promptArtifactId : String
  (promptSha256 renderedInputDigest : Sha256Digest)
  inputPlanId : Option OpaqueUuid
  inputPlanSemanticSha256 : Option Sha256Digest
  (inputPlanPartOrdinal inputPlanPartCount : Option Nat)
  inputPlanPartSemanticSha256 : Option Sha256Digest
  outputSchemaId : String
  outputSchemaVersion : SchemaVersion
  outputSchemaArtifactId : String
  outputSchemaSha256 : Sha256Digest
  capabilitySnapshotId : OpaqueUuid
  (capabilitySnapshotDigest inputManifestSetSha256 : Sha256Digest)
  (inputConfig samplingConfig generationConfig : JsonObject)
  (providerIdempotencyKey providerRequestId experimentId shadowRouteId : Option String)
  primaryInferenceId : Option String
  shadow : Bool
  (attempt retryCount : Nat)
  status : InferenceStatus
  (queuedAt startedAt completedAt : Rfc3339Timestamp)
  latencyMs : Nat
  (rawOutput normalizedOutput : Option JsonObject)
  outputValid : Bool
  reportedConfidence : Option JsonObject
  usage : ModelInferenceUsage
  failure : Option InferenceFailure
  createdAt : Rfc3339Timestamp
  deriving DecidableEq

structure InferenceAttemptSelection where
  (selectionId inferenceId logicalInvocationId : OpaqueUuid)
  policyVersion : SchemaVersion
  selectionReason : String
  selectionDecisionLogicalKey : NodeLogicalKey
  selectedAt : Rfc3339Timestamp
  deriving DecidableEq

end Robata.Orchestration
