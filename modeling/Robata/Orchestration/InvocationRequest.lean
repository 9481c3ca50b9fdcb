import Robata.Orchestration.AttemptLedger

/-!
# From a call to its request

The checks of `orchestrate` on its arguments, on the input plan and on the capabilities, in the
order of the source, and the request and the identities they lead to.  Everything up to the
capabilities is decided by the arguments and the configuration of the orchestrator.
-/

namespace Robata.Orchestration

open Contracts Lib

/-- Raise if the condition holds. -/
def refuse (found : Bool) (e : OrchestrationError) : Except OrchestrationError Unit :=
  if found then .error e else .ok ()

@[simp] theorem refuse_eq_ok {found : Bool} {e : OrchestrationError} {u : Unit} :
    refuse found e = .ok u ↔ found = false := by
  cases found <;> simp [refuse]

def taskValue : VisionTask → String
  | .qaCoarse => "QA_COARSE"
  | .qaDense => "QA_DENSE"
  | .eventProposal => "EVENT_PROPOSAL"
  | .actionEvidence => "ACTION_EVIDENCE"
  | .boundaryRefinement => "BOUNDARY_REFINEMENT"
  | .fusionAdjudication => "FUSION_ADJUDICATION"

def inputModeValue : InputMode → String
  | .image => "IMAGE"
  | .multiImage => "MULTI_IMAGE"
  | .video => "VIDEO"

/-! ## The configured orchestrator -/

/-- What `jsonschema` says of a payload.  Its messages are texts that are not empty. -/
inductive SchemaVerdict
  | valid
  | invalid (message : NonEmptyString)
  | raises (e : OrchestrationError)

structure CompiledSchema where
  validate : JsonObject → SchemaVerdict

/-- The configuration of an orchestrator.  `adapters` holds the provider that each registered
adapter declares; `schemas` is `_schema`, with the schema documents and `jsonschema`. -/
structure Orchestrator where
  hashing : OrchestrationHashing
  policies : VisionTask → Option InferencePolicy
  adapters : String → Option String
  schemas : JsonSchemaRef → Except OrchestrationError CompiledSchema

structure OrchestrateArguments where
  task : VisionTask
  packageSetId : Option OpaqueUuid
  (mcapId cameraMappingRunId alignmentId : OpaqueUuid)
  (startNs endNs : Int)
  packageInputs : List PackageInput
  renderedInputDigest : Option Sha256Digest
  inputPlan : Option InferenceInputPlan
  inputPlanPartOrdinal : Option Int
  inputConfig : JsonObject
  logicalDependencySha256 : Option Sha256Digest
  (samplingConfig metadata : JsonObject)
  (attempt retryCount : Nat)
  shadow : Bool
  (experimentId shadowRouteId primaryInferenceId : Option String)

namespace Orchestrator

variable (O : Orchestrator)

def policy (task : VisionTask) : Except OrchestrationError InferencePolicy :=
  match O.policies task with
  | none =>
    .error (.configuration ("no inference policy configured for " ++ taskValue task))
  | some policy =>
    if policy.task = task then .ok policy
    else .error (.configuration ("policy key " ++ taskValue task ++
      " does not match policy task " ++ taskValue policy.task))

def adapter (policy : InferencePolicy) : Except OrchestrationError Unit :=
  match O.adapters policy.provider with
  | none => .error (.configuration
      ("no inference adapter configured for provider '" ++ policy.provider ++ "'"))
  | some provider =>
    refuse (provider != policy.provider)
      (.configuration "adapter registry key does not match adapter provider identity")

end Orchestrator

/-! ## The arguments -/

/-- The first checks of `orchestrate`. -/
def validateArguments (a : OrchestrateArguments) : Except OrchestrationError Unit := do
  refuse (a.startNs ≥ a.endNs) (.configuration "start_ns must be less than end_ns")
  refuse (a.attempt < 1) (.configuration "attempt must be a positive integer")
  refuse (a.retryCount ≥ a.attempt)
    (.configuration "retry_count must be nonnegative and less than attempt")
  refuse (!a.shadow && (a.experimentId.isSome || a.shadowRouteId.isSome ||
      a.primaryInferenceId.isSome))
    (.configuration "shadow lineage fields require shadow=True")

def validatePackageInputs (inputs : List PackageInput) : Except OrchestrationError Unit := do
  refuse inputs.isEmpty (.configuration "at least one package input is required")
  refuse (inputs.map (·.ordinal) != List.range inputs.length)
    (.configuration "package input ordinals must be contiguous and ordered from zero")
  refuse (!decide (inputs.map (·.packageId)).Nodup)
    (.configuration "package inputs must have unique package IDs")

/-- The part of an input plan that is selected by its ordinal. -/
def selectPart (plan : InferenceInputPlan) (renderedInputDigest : Option Sha256Digest)
    (partOrdinal : Option Int) : Except OrchestrationError (Option InferenceCallPart) :=
  match partOrdinal with
  | none => do
      refuse (renderedInputDigest.any (· != plan.renderingSha256))
        (.configuration "rendered_input_digest does not match input_plan.rendering_sha256")
      return none
  | some ordinal =>
    if ordinal < 0 then
      .error (.configuration "input_plan_part_ordinal is outside the call plan")
    else
      match plan.callPlan.parts[ordinal.toNat]? with
      | none => .error (.configuration "input_plan_part_ordinal is outside the call plan")
      | some part => do
          refuse (renderedInputDigest.any (· != part.itemManifestSha256))
            (.configuration "rendered_input_digest does not match the selected call part")
          return some part

/-- `_validate_input_plan`.  A plan is a valid contract by its type. -/
def validateInputPlan (plan : InferenceInputPlan) (a : OrchestrateArguments) :
    Except OrchestrationError (Option InferenceCallPart) := do
  refuse (plan.catalogTask != a.task || plan.subject.task != a.task)
    (.configuration "input_plan task does not match the request")
  refuse (plan.subject.packages.map (fun item =>
        (item.packageId, item.ordinal, item.semanticContentSha256, item.manifestBytesSha256)) !=
      a.packageInputs.map fun item =>
        (item.packageId, item.ordinal, item.packageSemanticContentSha256,
          item.packageManifestSha256))
    (.configuration "input_plan subject packages do not match the request package inputs")
  selectPart plan a.renderedInputDigest a.inputPlanPartOrdinal

/-- The selected part and the digest of the rendered input. -/
def renderedInput (a : OrchestrateArguments) :
    Except OrchestrationError (Option InferenceCallPart × Sha256Digest) :=
  match a.inputPlan with
  | some plan => do
      let part ← validateInputPlan plan a
      return (part, match part with
        | some part => part.itemManifestSha256
        | none => plan.renderingSha256)
  | none => do
      refuse a.inputPlanPartOrdinal.isSome
        (.configuration "input_plan_part_ordinal requires an input plan")
      match a.renderedInputDigest with
      | none => .error (.configuration "rendered_input_digest is required")
      | some digest => return (none, digest)

/-- The input configuration with the logical dependency. -/
def bindDependency (a : OrchestrateArguments) : Except OrchestrationError JsonObject :=
  match a.logicalDependencySha256 with
  | none => do
      refuse (JsonObject.has a.inputConfig "logical_dependency_sha256") (.configuration
        "input_config.logical_dependency_sha256 requires an explicit logical dependency")
      return a.inputConfig
  | some dependency => do
      let configured := JsonObject.getD a.inputConfig "logical_dependency_sha256"
      refuse (!configured.isNull && configured != .text dependency)
        (.configuration "input_config.logical_dependency_sha256 conflicts with logical identity")
      return JsonObject.set a.inputConfig "logical_dependency_sha256" (.text dependency)

/-- The entries that an input plan adds to the metadata. -/
def planMetadata (plan : InferenceInputPlan) (part : Option InferenceCallPart) :
    List (String × String) :=
  [("input_plan_id", plan.inputPlanId), ("input_plan_semantic_sha256", plan.semanticSha256),
    ("input_plan_call_plan_sha256", plan.callPlan.callPlanSha256)] ++
  match part with
  | some part =>
    [("input_plan_part_ordinal", toString part.ordinal),
      ("input_plan_part_semantic_sha256", part.partSemanticSha256)]
  | none => []

/-- One turn of the metadata loop. -/
def addMetadata (metadata : JsonObject) (entry : String × String) :
    Except OrchestrationError JsonObject := do
  let existing := JsonObject.getD metadata entry.1
  refuse (!existing.isNull && existing != .text entry.2)
    (.configuration ("metadata." ++ entry.1 ++ " conflicts with the input plan"))
  return JsonObject.set metadata entry.1 (.text entry.2)

def requestMetadata (a : OrchestrateArguments) (part : Option InferenceCallPart) :
    Except OrchestrationError JsonObject :=
  match a.inputPlan with
  | some plan => (planMetadata plan part).foldlM addMetadata a.metadata
  | none => .ok a.metadata

/-- A call that waits for the capabilities of its model. -/
structure PreparedCall where
  arguments : OrchestrateArguments
  part : Option InferenceCallPart
  renderedInputDigest : Sha256Digest
  (inputConfig metadata : JsonObject)
  policy : InferencePolicy

/-- `orchestrate`, up to its first await. -/
def Orchestrator.prepare (O : Orchestrator) (a : OrchestrateArguments) :
    Except OrchestrationError PreparedCall := do
  validateArguments a
  validatePackageInputs a.packageInputs
  let rendered ← renderedInput a
  let inputConfig ← bindDependency a
  let metadata ← requestMetadata a rendered.1
  let policy ← O.policy a.task
  O.adapter policy
  let _ ← O.schemas policy.outputSchema
  return ⟨a, rendered.1, rendered.2, inputConfig, metadata, policy⟩

/-! ## The capabilities -/

def validateInputPlanTargetAndLimits (plan : InferenceInputPlan) (policy : InferencePolicy)
    (capabilities : ModelCapabilities) : Except OrchestrationError Unit := do
  let target := plan.target
  refuse (target.provider != policy.provider || target.modelName != policy.modelName ||
      target.modelVersion != policy.modelVersion ||
      target.adapterVersion != policy.adapterVersion ||
      target.capabilitySnapshotId != capabilities.snapshotId ||
      target.capabilitySnapshotSha256 != capabilities.snapshotDigest)
    (.configuration "input_plan target does not match the selected provider capability snapshot")
  let prompt := plan.promptOutput
  refuse (prompt.promptVersion != policy.promptVersion ||
      prompt.promptSha256 != policy.promptSha256)
    (.configuration "input_plan prompt contract does not match the selected policy")
  refuse (prompt.providerResponseSchemaSha256 != policy.outputSchema.sha256) (.configuration
    "input_plan provider-response schema digest does not match the selected policy")
  refuse (policy.enrichedOutputSchema.any fun enriched =>
      prompt.enrichedDomainSchemaSha256 != enriched.sha256)
    (.configuration "input_plan enriched schema digest does not match the selected policy")
  let limits := plan.applicableLimits
  refuse (limits.maxImagesPerRequest != capabilities.maxImagesPerRequest ||
      limits.maxPixelsPerImage != capabilities.maxPixelsPerImage ||
      limits.maxPayloadBytesPerRequest != capabilities.maxPayloadBytes ||
      limits.maxInputTokensPerRequest != capabilities.maxInputTokens)
    (.configuration "input_plan limits are not the pinned capability limits")

/-- The measurements of a plan or of its selected part. -/
def inputMeasurements (plan : InferenceInputPlan) (part : Option InferenceCallPart) :
    List (String × Nat) :=
  match part with
  | none =>
    [("input_images", plan.measuredLimits.maxImagesPerRequest),
      ("max_pixels_per_image", plan.measuredLimits.maxPixelsPerImage),
      ("payload_bytes", plan.measuredLimits.maxPayloadBytesPerRequest),
      ("input_tokens", plan.measuredLimits.maxInputTokensPerRequest)]
  | some part =>
    let items := plan.partItems part
    let images := items.filter (·.mediaType.startsWith "image/")
    [("input_images", images.length),
      ("max_pixels_per_image", (images.map fun item => item.width * item.height).foldl max 0),
      ("payload_bytes", (items.map (·.byteCount)).sum),
      ("input_tokens", part.measuredInputTokens)]

/-- One turn of `_merge_input_measurements`. -/
def mergeMeasurement (config : JsonObject) (measurement : String × Nat) :
    Except OrchestrationError JsonObject := do
  let existing := JsonObject.getD config measurement.1
  refuse (!existing.isNull && !existing.equalsInt measurement.2) (.configuration
    ("input_config." ++ measurement.1 ++ " conflicts with the input plan measurement"))
  return JsonObject.set config measurement.1 (.int measurement.2)

def validateOptionalLimit (config : JsonObject) (field : String) (limit : Option Nat) :
    Except OrchestrationError Unit :=
  match JsonObject.getD config field with
  | .null => .ok ()
  | .int value => do
      refuse (value < 0) (.configuration ("input_config." ++ field ++ " must be a nonnegative int"))
      refuse (limit.any fun limit => value > limit)
        (.capability ("input_config." ++ field ++ " exceeds model limit"))
  | _ => .error (.configuration ("input_config." ++ field ++ " must be a nonnegative int"))

/-- `sorted(set(required) - set(accepted))`, as Python prints it. -/
def unsupportedMedia (required accepted : List String) : List String :=
  ((required.filter fun media => !accepted.contains media).dedup).mergeSort fun a b => a ≤ b

def printTexts (texts : List String) : String :=
  "[" ++ String.intercalate ", " (texts.map fun text => "'" ++ text ++ "'") ++ "]"

def validateCapabilities (policy : InferencePolicy) (capabilities : ModelCapabilities)
    (plan : Option InferenceInputPlan) (config : JsonObject) :
    Except OrchestrationError Unit := do
  refuse (capabilities.provider != policy.provider ||
      capabilities.modelName != policy.modelName ||
      capabilities.modelVersion != policy.modelVersion)
    (.capability "capability snapshot model identity mismatch")
  refuse (!capabilities.supportedTasks.contains policy.task)
    (.capability ("model does not support task " ++ taskValue policy.task))
  refuse (!capabilities.inputModes.contains policy.requiredInputMode)
    (.capability ("model does not support input mode " ++ inputModeValue policy.requiredInputMode))
  let unsupported := unsupportedMedia policy.requiredMediaTypes capabilities.acceptedMediaTypes
  refuse (!unsupported.isEmpty)
    (.capability ("model does not accept required media types: " ++ printTexts unsupported))
  let rendered := unsupportedMedia
    ((plan.map fun plan => plan.renderedItems.map (·.mediaType)).getD [])
    capabilities.acceptedMediaTypes
  refuse (!rendered.isEmpty) (.capability
    ("model does not accept rendered input-plan media types: " ++ printTexts rendered))
  refuse (!capabilities.supportsJsonSchema)
    (.capability "model does not support JSON Schema output")
  refuse (policy.requiredDataHandlingPolicyVersion.any fun required =>
      capabilities.dataHandlingPolicyVersion != required)
    (.capability "data handling policy version mismatch")
  validateOptionalLimit config "input_images" capabilities.maxImagesPerRequest
  validateOptionalLimit config "max_pixels_per_image" capabilities.maxPixelsPerImage
  validateOptionalLimit config "payload_bytes" capabilities.maxPayloadBytes
  validateOptionalLimit config "input_tokens" capabilities.maxInputTokens

/-- The input configuration with the measurements of the input plan. -/
def measuredConfig (p : PreparedCall) (capabilities : ModelCapabilities) :
    Except OrchestrationError JsonObject :=
  match p.arguments.inputPlan with
  | none => .ok p.inputConfig
  | some plan => do
      validateInputPlanTargetAndLimits plan p.policy capabilities
      (inputMeasurements plan p.part).foldlM mergeMeasurement p.inputConfig

/-- The checks that need the capabilities. -/
def checkCapabilities (p : PreparedCall) (capabilities : ModelCapabilities) :
    Except OrchestrationError JsonObject := do
  let config ← measuredConfig p capabilities
  validateCapabilities p.policy capabilities p.arguments.inputPlan config
  return config

/-! ## Identities and the request -/

/-- What a call hashes and requests, once its capabilities are known. -/
structure Invocation where
  prepared : PreparedCall
  capabilities : ModelCapabilities
  inputConfig : JsonObject
  (packageInputSetSha256 logicalDigest : Sha256Digest)
  logicalInvocationId : OpaqueUuid

section Identities

variable (H : OrchestrationHashing)

def packageDigest (inputs : List PackageInput) : Sha256Digest :=
  H.semanticSha256 (.packages (inputs.map fun item =>
    (item.ordinal, item.role, item.packageSemanticContentSha256)))

/-- The projection that `_logical_digest` hashes. -/
def logicalProjection (p : PreparedCall) (capabilities : ModelCapabilities)
    (packageInputSetSha256 : Sha256Digest) : LogicalProjection where
  packageInputSetSha256 := packageInputSetSha256
  task := p.arguments.task
  provider := p.policy.provider
  modelName := p.policy.modelName
  modelVersion := p.policy.modelVersion
  adapterVersion := p.policy.adapterVersion
  promptVersion := p.policy.promptVersion
  promptSha256 := p.policy.promptSha256
  renderedInputDigest := p.renderedInputDigest
  inputPlanSemanticSha256 := p.arguments.inputPlan.map (·.semanticSha256)
  outputSchemaId := p.policy.outputSchema.schemaId
  outputSchemaVersion := p.policy.outputSchema.version
  outputSchemaSha256 := p.policy.outputSchema.sha256
  capabilitySnapshotDigest := capabilities.snapshotDigest
  generationConfig := p.policy.generationConfig
  inputPlanPartSemanticSha256 := p.part.map (·.partSemanticSha256)
  logicalDependencySha256 := p.arguments.logicalDependencySha256

/-- The invocation of a call. -/
def identify (p : PreparedCall) (capabilities : ModelCapabilities) (inputConfig : JsonObject) :
    Except OrchestrationError Invocation := do
  let packages := packageDigest H p.arguments.packageInputs
  refuse (!H.canonical p.policy.generationConfig)
    (.configuration "inference identity inputs are not canonical JSON")
  let logicalDigest :=
    H.semanticSha256 (.logicalInvocation (logicalProjection p capabilities packages))
  return ⟨p, capabilities, inputConfig, packages, logicalDigest,
    stableUuid H "logical-invocation" logicalDigest⟩

def Invocation.attemptDigest (v : Invocation) : Sha256Digest :=
  H.semanticSha256 (.attempt v.logicalDigest v.prepared.arguments.attempt
    v.prepared.arguments.retryCount v.prepared.arguments.shadow)

def Invocation.inferenceId (v : Invocation) : OpaqueUuid :=
  stableUuid H "inference-attempt" (v.attemptDigest H)

def Invocation.request (v : Invocation) : VisionInferenceRequest where
  logicalInvocationId := v.logicalInvocationId
  requestId := stableUuid H "inference-request" (v.attemptDigest H)
  idempotencyKey := "robata-inference:" ++ v.attemptDigest H
  provider := v.prepared.policy.provider
  modelName := v.prepared.policy.modelName
  modelVersion := v.prepared.policy.modelVersion
  packageSetId := v.prepared.arguments.packageSetId
  packageInputs := v.prepared.arguments.packageInputs
  packageInputSetSha256 := v.packageInputSetSha256
  task := v.prepared.arguments.task
  promptVersion := v.prepared.policy.promptVersion
  promptArtifactId := v.prepared.policy.promptArtifactId
  promptSha256 := v.prepared.policy.promptSha256
  renderedInputDigest := v.prepared.renderedInputDigest
  inputPlanId := v.prepared.arguments.inputPlan.map (·.inputPlanId)
  inputPlanSemanticSha256 := v.prepared.arguments.inputPlan.map (·.semanticSha256)
  inputPlanPartOrdinal := v.prepared.part.map (·.ordinal)
  inputPlanPartCount := v.prepared.part.map (·.partCount)
  inputPlanPartSemanticSha256 := v.prepared.part.map (·.partSemanticSha256)
  inputPlan := v.prepared.arguments.inputPlan
  outputSchema := v.prepared.policy.outputSchema
  capabilitySnapshotId := v.capabilities.snapshotId
  capabilitySnapshotDigest := v.capabilities.snapshotDigest
  modelPolicyVersion := v.prepared.policy.policyVersion
  generationConfig := v.prepared.policy.generationConfig
  providerIdempotencyKey := match v.prepared.part with
    | some part => part.idempotencyKey
    | none => "robata-provider:" ++ v.attemptDigest H
  timeoutMs := v.prepared.policy.timeoutMs
  metadata := v.prepared.metadata

end Identities

/-- The part binding of a request, for a plan with parts. -/
def validatePartBinding (r : VisionInferenceRequest) (plan : InferenceInputPlan) :
    Except OrchestrationError Unit :=
  match r.inputPlanPartOrdinal, r.inputPlanPartCount, r.inputPlanPartSemanticSha256 with
  | none, none, none =>
    refuse (r.renderedInputDigest != plan.renderingSha256)
      (.contract "input plan rendering binding is inconsistent")
  | some ordinal, some count, some semanticSha256 =>
    match plan.callPlan.parts[ordinal]? with
    | none => .error (.contract "input plan call part ordinal is out of range")
    | some part =>
      refuse (count != part.partCount || semanticSha256 != part.partSemanticSha256 ||
          r.renderedInputDigest != part.itemManifestSha256)
        (.contract "input plan call part binding is inconsistent")
  | _, _, _ => .error (.contract "input plan call part references must be all present")

def validateInputPlanBinding (r : VisionInferenceRequest) : Except OrchestrationError Unit :=
  match r.inputPlan with
  | none =>
    refuse (r.inputPlanId.isSome || r.inputPlanSemanticSha256.isSome ||
        r.inputPlanPartOrdinal.isSome || r.inputPlanPartCount.isSome ||
        r.inputPlanPartSemanticSha256.isSome)
      (.contract "input plan references require the immutable input plan")
  | some plan => do
      refuse (r.inputPlanId != some plan.inputPlanId ||
          r.inputPlanSemanticSha256 != some plan.semanticSha256)
        (.contract "input plan identity binding is inconsistent")
      validatePartBinding r plan
      refuse (r.task != plan.subject.task || r.provider != plan.target.provider ||
          r.modelName != plan.target.modelName || r.modelVersion != plan.target.modelVersion ||
          r.capabilitySnapshotId != plan.target.capabilitySnapshotId ||
          r.capabilitySnapshotDigest != plan.target.capabilitySnapshotSha256)
        (.contract "input plan target does not match the inference request")
      refuse (r.promptVersion != plan.promptOutput.promptVersion ||
          r.promptSha256 != plan.promptOutput.promptSha256 ||
          r.outputSchema.sha256 != plan.promptOutput.providerResponseSchemaSha256)
        (.contract "input plan prompt/output contract does not match the request")
      refuse (r.packageInputs.map (fun item =>
            (item.packageId, item.ordinal, item.packageSemanticContentSha256,
              item.packageManifestSha256)) !=
          plan.subject.packages.map fun item =>
            (item.packageId, item.ordinal, item.semanticContentSha256, item.manifestBytesSha256))
        (.contract "input plan packages do not match the inference request")

section Intents

variable (H : OrchestrationHashing)

/-- The intent of an invocation, with the times of its first delivery. -/
def Invocation.intent (v : Invocation) (queuedAt createdAt : Rfc3339Timestamp) :
    InferenceIntent where
  inferenceId := v.inferenceId H
  logicalInvocationId := v.logicalInvocationId
  requestId := (v.request H).requestId
  idempotencyKey := (v.request H).idempotencyKey
  task := v.prepared.arguments.task
  provider := v.prepared.policy.provider
  modelName := v.prepared.policy.modelName
  modelVersion := v.prepared.policy.modelVersion
  adapterVersion := v.prepared.policy.adapterVersion
  mcapId := v.prepared.arguments.mcapId
  cameraMappingRunId := v.prepared.arguments.cameraMappingRunId
  alignmentId := v.prepared.arguments.alignmentId
  startNs := v.prepared.arguments.startNs
  endNs := v.prepared.arguments.endNs
  inputConfig := v.inputConfig
  samplingConfig := v.prepared.arguments.samplingConfig
  inputPlanId := (v.request H).inputPlanId
  inputPlanSemanticSha256 := (v.request H).inputPlanSemanticSha256
  inputPlanPartOrdinal := (v.request H).inputPlanPartOrdinal
  inputPlanPartCount := (v.request H).inputPlanPartCount
  inputPlanPartSemanticSha256 := (v.request H).inputPlanPartSemanticSha256
  experimentId := v.prepared.arguments.experimentId
  shadowRouteId := v.prepared.arguments.shadowRouteId
  primaryInferenceId := v.prepared.arguments.primaryInferenceId
  attempt := v.prepared.arguments.attempt
  retryCount := v.prepared.arguments.retryCount
  shadow := v.prepared.arguments.shadow
  request := v.request H
  queuedAt := queuedAt
  createdAt := createdAt

end Intents
end Robata.Orchestration
