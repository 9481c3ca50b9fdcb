import Robata.Orchestration.InvocationRequest

/-!
# The orchestrator

`orchestrate` runs from one await to the next without interruption: such a section is a
`SectionMethod` of the ledger, the clock of the call and its task-local selection.  A call waits
at one of three awaits (capabilities, execution gate, adapter), and is woken with what the await
ends with; between two sections of a call every other call may run.

`Orchestrator.next` is one event of the event loop: a call is made, or a waiting call is woken.
-/

namespace Robata.Orchestration

open Contracts Lib
open InMemoryInferenceLedger (appendIntent appendSelection appendTerminal)
open Method (assign ofExcept)

/-- A clock of timezone-aware times that does not go back. -/
structure Clock where
  read : Nat → Rfc3339Timestamp
  nondecreasing : ∀ n, read n ≤ read (n + 1)

/-- What a section reads and writes: the ledger, the readings taken from the clock, the task-local
`_orchestrated_selection`, and the intent that the call has appended. -/
structure Section where
  ledger : InMemoryInferenceLedger
  ticks : Nat
  selection : Option InferenceAttemptSelection
  appended : Option InferenceIntent

abbrev SectionMethod (α : Type) := Method Section OrchestrationError α

def timestamp (clock : Clock) : SectionMethod Rfc3339Timestamp := do
  let s ← Method.self
  assign fun s => { s with ticks := s.ticks + 1 }
  return clock.read s.ticks

def onLedger {α : Type} (method : LedgerMethod α) : SectionMethod α :=
  Method.within (·.ledger) (fun l s => { s with ledger := l }) method

/-- `_orchestrated_selection.set`. -/
def setSelection (selection : Option InferenceAttemptSelection) : SectionMethod Unit :=
  assign fun s => { s with selection }

def raise {α : Type} (e : OrchestrationError) : SectionMethod α := ofExcept (.error e)

/-! ## Terminal attempts -/

/-- What a terminal attempt says of the dispatch. -/
structure AttemptOutcome where
  status : InferenceStatus
  providerRequestId : Option String
  latencyMs : Nat
  usage : ModelInferenceUsage
  (rawOutput normalizedOutput : Option JsonObject)
  outputValid : Bool
  reportedConfidence : Option Rat
  failure : Option InferenceFailure

/-- The record that `_terminal` builds. -/
def terminalOf (intent : InferenceIntent) (startedAt completedAt : Rfc3339Timestamp)
    (o : AttemptOutcome) : ModelInference where
  inferenceId := intent.inferenceId
  logicalInvocationId := intent.logicalInvocationId
  requestId := intent.requestId
  idempotencyKey := intent.idempotencyKey
  mcapId := intent.mcapId
  packageSetId := intent.request.packageSetId
  packageId := match intent.request.packageInputs with
    | [item] => some item.packageId
    | _ => none
  packageIds := intent.request.packageInputs.map (·.packageId)
  cameraMappingRunId := intent.cameraMappingRunId
  alignmentId := intent.alignmentId
  startNs := intent.startNs
  endNs := intent.endNs
  stage := intent.request.task
  provider := intent.request.provider
  modelName := intent.request.modelName
  modelVersion := intent.request.modelVersion
  adapterVersion := intent.adapterVersion
  promptVersion := intent.request.promptVersion
  promptArtifactId := intent.request.promptArtifactId
  promptSha256 := intent.request.promptSha256
  renderedInputDigest := intent.request.renderedInputDigest
  inputPlanId := intent.request.inputPlanId
  inputPlanSemanticSha256 := intent.request.inputPlanSemanticSha256
  inputPlanPartOrdinal := intent.request.inputPlanPartOrdinal
  inputPlanPartCount := intent.request.inputPlanPartCount
  inputPlanPartSemanticSha256 := intent.request.inputPlanPartSemanticSha256
  outputSchemaId := intent.request.outputSchema.schemaId
  outputSchemaVersion := intent.request.outputSchema.version
  outputSchemaArtifactId := intent.request.outputSchema.artifactId
  outputSchemaSha256 := intent.request.outputSchema.sha256
  capabilitySnapshotId := intent.request.capabilitySnapshotId
  capabilitySnapshotDigest := intent.request.capabilitySnapshotDigest
  inputManifestSetSha256 := intent.request.packageInputSetSha256
  inputConfig := intent.inputConfig
  samplingConfig := intent.samplingConfig
  generationConfig := intent.request.generationConfig
  providerIdempotencyKey := some intent.request.providerIdempotencyKey
  providerRequestId := o.providerRequestId
  experimentId := intent.experimentId
  shadowRouteId := intent.shadowRouteId
  primaryInferenceId := intent.primaryInferenceId
  shadow := intent.shadow
  attempt := intent.attempt
  retryCount := intent.retryCount
  status := o.status
  queuedAt := intent.queuedAt
  startedAt := startedAt
  completedAt := completedAt
  latencyMs := o.latencyMs
  rawOutput := o.rawOutput
  normalizedOutput := o.normalizedOutput
  outputValid := o.outputValid
  reportedConfidence := o.reportedConfidence.map fun value => [("value", .float (some value))]
  usage := o.usage
  failure := o.failure
  createdAt := intent.createdAt

def usageOf (usage : VisionUsage) : ModelInferenceUsage :=
  ⟨usage.inputFrames, usage.inputImages, usage.inputTokens, usage.outputTokens, usage.cost,
    usage.currency⟩

/-- What `_local_failure_terminal` records. -/
def localFailure (status : InferenceStatus) (code detail : NonEmptyString)
    (retryability : Retryability) : AttemptOutcome where
  status := status
  providerRequestId := none
  latencyMs := 0
  usage := ⟨0, 0, none, none, none, none⟩
  rawOutput := none
  normalizedOutput := none
  outputValid := false
  reportedConfidence := none
  failure := some ⟨code.val, detail.val, retryability⟩

/-- `{"artifact_id": ...}`. -/
def rawOutputOf (artifactId : String) : JsonObject := [("artifact_id", .text artifactId)]

def outcomeIdentityError (provider modelName : String) (modelVersion : SchemaVersion)
    (request : VisionInferenceRequest) : Option NonEmptyString :=
  if provider ≠ request.provider then
    some ⟨"adapter outcome provider does not match request", by decide⟩
  else if modelName ≠ request.modelName then
    some ⟨"adapter outcome model name does not match request", by decide⟩
  else if modelVersion ≠ request.modelVersion then
    some ⟨"adapter outcome model version does not match request", by decide⟩
  else none

def envelopeError (envelope : NormalizedOutputEnvelope) (request : VisionInferenceRequest) :
    Option NonEmptyString :=
  if envelope.task ≠ request.task then
    some ⟨"normalized output task does not match request", by decide⟩
  else if envelope.outputSchema ≠ request.outputSchema then
    some ⟨"normalized output schema reference does not match request", by decide⟩
  else if envelope.packageInputSetSha256 ≠ request.packageInputSetSha256 then
    some ⟨"normalized output package digest does not match request", by decide⟩
  else if envelope.inputPlanSemanticSha256 ≠ request.inputPlanSemanticSha256 then
    some ⟨"normalized output input-plan digest does not match request", by decide⟩
  else if envelope.inputPlanPartOrdinal ≠ request.inputPlanPartOrdinal then
    some ⟨"normalized output input-plan part ordinal does not match request", by decide⟩
  else if envelope.inputPlanPartSemanticSha256 ≠ request.inputPlanPartSemanticSha256 then
    some ⟨"normalized output input-plan part digest does not match request", by decide⟩
  else none

/-- An outcome under another identity. -/
def identityMismatch (providerRequestId : Option String) (latencyMs : Nat) (usage : VisionUsage)
    (rawOutputArtifactId : Option String) (detail : NonEmptyString) : AttemptOutcome where
  status := .failed
  providerRequestId := providerRequestId
  latencyMs := latencyMs
  usage := usageOf usage
  rawOutput := rawOutputArtifactId.map rawOutputOf
  normalizedOutput := none
  outputValid := false
  reportedConfidence := none
  failure := some ⟨"ADAPTER_OUTCOME_IDENTITY_MISMATCH", detail.val, .permanent⟩

def providerFailure (o : VisionInferenceFailure) : AttemptOutcome where
  status := o.status
  providerRequestId := o.providerRequestId
  latencyMs := o.latencyMs
  usage := usageOf o.usage
  rawOutput := o.rawOutputArtifactId.map rawOutputOf
  normalizedOutput := none
  outputValid := false
  reportedConfidence := none
  failure := some o.failure

/-- A success whose output is refused. -/
def invalidOutput (o : VisionInferenceSuccess) (code detail : NonEmptyString) : AttemptOutcome where
  status := .invalidOutput
  providerRequestId := some o.providerRequestId
  latencyMs := o.latencyMs
  usage := usageOf o.usage
  rawOutput := some (rawOutputOf o.rawOutputArtifactId)
  normalizedOutput := some o.normalizedOutput.payload
  outputValid := false
  reportedConfidence := o.reportedConfidence
  failure := some ⟨code.val, detail.val, .permanent⟩

/-- A success whose output is accepted. -/
def acceptedOutput (o : VisionInferenceSuccess) : AttemptOutcome where
  status := .succeeded
  providerRequestId := some o.providerRequestId
  latencyMs := o.latencyMs
  usage := usageOf o.usage
  rawOutput := some (rawOutputOf o.rawOutputArtifactId)
  normalizedOutput := some o.normalizedOutput.payload
  outputValid := true
  reportedConfidence := o.reportedConfidence
  failure := none

namespace Orchestrator

variable (O : Orchestrator)

/-- What becomes of the outcome that the dispatch of a request ends with. -/
def judge (request : VisionInferenceRequest) :
    AdapterOutcome → Except OrchestrationError AttemptOutcome
  | .unsupported => .ok (localFailure .failed ⟨"ADAPTER_CONTRACT_VIOLATION", by decide⟩
      ⟨"adapter returned an unsupported outcome type", by decide⟩ .permanent)
  | .unreadable exc => .error (.raised exc)
  | .failure o =>
    match outcomeIdentityError o.provider o.modelName o.modelVersion request with
    | some detail => .ok
        (identityMismatch o.providerRequestId o.latencyMs o.usage o.rawOutputArtifactId detail)
    | none => .ok (providerFailure o)
  | .success o =>
    match outcomeIdentityError o.provider o.modelName o.modelVersion request with
    | some detail => .ok (identityMismatch (some o.providerRequestId) o.latencyMs o.usage
        (some o.rawOutputArtifactId) detail)
    | none =>
      match envelopeError o.normalizedOutput request with
      | some detail =>
        .ok (invalidOutput o ⟨"OUTPUT_ENVELOPE_MISMATCH", by decide⟩ detail)
      | none => do
          let compiled ← O.schemas request.outputSchema
          match compiled.validate o.normalizedOutput.payload with
          | .invalid message =>
            .ok (invalidOutput o ⟨"OUTPUT_SCHEMA_INVALID", by decide⟩ message)
          | .raises e => .error e
          | .valid => .ok (acceptedOutput o)

/-! ## Selection -/

/-- The selection of a terminal attempt. -/
def selectionOf (inference : ModelInference) (policyVersion : SchemaVersion)
    (selectedAt : Rfc3339Timestamp) : InferenceAttemptSelection where
  selectionId := selectionIdOf O.hashing inference.logicalInvocationId policyVersion
  inferenceId := inference.inferenceId
  logicalInvocationId := inference.logicalInvocationId
  policyVersion := policyVersion
  selectionReason := "FIRST_SCHEMA_VALID_SUCCESS"
  selectionDecisionLogicalKey :=
    inferenceAttemptSelectionLogicalKey O.hashing inference.logicalInvocationId policyVersion
  selectedAt := selectedAt

/-- `model_validate` of a selection. -/
def revalidate (selection : InferenceAttemptSelection) : Except OrchestrationError Unit :=
  refuse (selection.selectionDecisionLogicalKey != inferenceAttemptSelectionLogicalKey O.hashing
      selection.logicalInvocationId selection.policyVersion)
    (.ledger "persisted attempt selection is invalid")

def selectionWinner (selection : InferenceAttemptSelection) (logicalInvocationId : OpaqueUuid)
    (policyVersion : SchemaVersion) : Except OrchestrationError InferenceAttemptSelection := do
  O.revalidate selection
  refuse (selection.logicalInvocationId != logicalInvocationId ||
      selection.policyVersion != policyVersion ||
      selection.selectionReason != "FIRST_SCHEMA_VALID_SUCCESS" ||
      selection.selectionId != selectionIdOf O.hashing logicalInvocationId policyVersion ||
      selection.selectionDecisionLogicalKey !=
        inferenceAttemptSelectionLogicalKey O.hashing logicalInvocationId policyVersion)
    (.ledger "persisted attempt selection winner is inconsistent")
  return selection

/-- An attempt that can be selected. -/
def isSelectable (inference : ModelInference) : Bool :=
  !inference.shadow && inference.status == .succeeded && inference.outputValid

/-- The selection that the ledger holds. -/
def findSelection (logicalInvocationId : OpaqueUuid) (policyVersion : SchemaVersion) :
    SectionMethod (Option InferenceAttemptSelection) := do
  return (← Method.self).ledger.selections.get? (logicalInvocationId, policyVersion)

/-- The selection that is there wins. -/
def keepWinner (existing : InferenceAttemptSelection) (inference : ModelInference)
    (policyVersion : SchemaVersion) : SectionMethod (Option InferenceAttemptSelection) := do
  let winner ← ofExcept (O.selectionWinner existing inference.logicalInvocationId policyVersion)
  setSelection (some winner)
  return some winner

/-- The first selection of an invocation. -/
def appendFirst (clock : Clock) (inference : ModelInference) (policyVersion : SchemaVersion) :
    SectionMethod (Option InferenceAttemptSelection) := do
  let selectedAt ← timestamp clock
  let persisted ← onLedger (appendSelection O.hashing
    (O.selectionOf inference policyVersion selectedAt))
  setSelection (some persisted)
  return some persisted

def selectSuccess (clock : Clock) (inference : ModelInference) (policyVersion : SchemaVersion) :
    SectionMethod (Option InferenceAttemptSelection) :=
  if isSelectable inference = false then pure none
  else do
    match ← findSelection inference.logicalInvocationId policyVersion with
    | some existing => O.keepWinner existing inference policyVersion
    | none => O.appendFirst clock inference policyVersion

/-- A success of an invocation that has its selection. -/
def persistSelected (clock : Clock) (inference : ModelInference) (policyVersion : SchemaVersion) :
    SectionMethod ModelInference := do
  let stored ← onLedger (appendTerminal inference)
  let selected ← O.selectSuccess clock stored policyVersion
  Method.raiseIf selected.isNone (.ledger "successful attempt did not retain its selection")
  return stored

/-- A success of an invocation that has none.  The ledger has the atomic append. -/
def persistFirst (clock : Clock) (inference : ModelInference) (policyVersion : SchemaVersion) :
    SectionMethod ModelInference := do
  let selectedAt ← timestamp clock
  let stored ← onLedger (InMemoryInferenceLedger.appendTerminalAndSelection O.hashing inference
    (O.selectionOf inference policyVersion selectedAt))
  let winner ← ofExcept (O.selectionWinner stored.2 inference.logicalInvocationId policyVersion)
  setSelection (some winner)
  return stored.1

def persistTerminal (clock : Clock) (inference : ModelInference)
    (selectionPolicyVersion : SchemaVersion) : SectionMethod ModelInference :=
  if isSelectable inference = false then do
    setSelection none
    onLedger (appendTerminal inference)
  else do
    match ← findSelection inference.logicalInvocationId selectionPolicyVersion with
    | some _ => O.persistSelected clock inference selectionPolicyVersion
    | none => O.persistFirst clock inference selectionPolicyVersion

/-! ## The initial delivery of an invocation that has its selection -/

/-- The fields of a terminal that the invocation determines. -/
def sameSemantics (v : Invocation) (terminal : ModelInference) : Bool :=
  let p := v.prepared
  terminal.logicalInvocationId == v.logicalInvocationId &&
  terminal.inputManifestSetSha256 == v.packageInputSetSha256 &&
  terminal.stage == p.arguments.task &&
  terminal.provider == p.policy.provider &&
  terminal.modelName == p.policy.modelName &&
  terminal.modelVersion == p.policy.modelVersion &&
  terminal.adapterVersion == p.policy.adapterVersion &&
  terminal.promptVersion == p.policy.promptVersion &&
  terminal.promptSha256 == p.policy.promptSha256 &&
  terminal.renderedInputDigest == p.renderedInputDigest &&
  terminal.inputPlanSemanticSha256 == p.arguments.inputPlan.map (·.semanticSha256) &&
  terminal.inputPlanPartOrdinal == p.part.map (·.ordinal) &&
  terminal.inputPlanPartCount == p.part.map (·.partCount) &&
  terminal.inputPlanPartSemanticSha256 == p.part.map (·.partSemanticSha256) &&
  terminal.outputSchemaId == p.policy.outputSchema.schemaId &&
  terminal.outputSchemaVersion == p.policy.outputSchema.version &&
  terminal.outputSchemaSha256 == p.policy.outputSchema.sha256 &&
  terminal.capabilitySnapshotDigest == v.capabilities.snapshotDigest &&
  terminal.generationConfig == p.policy.generationConfig &&
  JsonObject.getD terminal.inputConfig "logical_dependency_sha256" ==
    (match p.arguments.logicalDependencySha256 with
      | some digest => .text digest
      | none => .null)

/-- The checks on the selected terminal of an initial delivery. -/
def checkSelectedTerminal (v : Invocation) (selection : InferenceAttemptSelection)
    (terminal : ModelInference) : Except OrchestrationError Unit := do
  refuse (selection.inferenceId != terminal.inferenceId || terminal.status != .succeeded ||
      !terminal.outputValid || terminal.normalizedOutput.isNone || terminal.failure.isSome ||
      terminal.shadow || !sameSemantics v terminal)
    (.ledger "selected terminal attempt is semantically inconsistent")
  let compiled ← O.schemas v.prepared.policy.outputSchema
  match compiled.validate (terminal.normalizedOutput.getD []) with
  | .valid => .ok ()
  | .invalid _ => .error (.ledger "selected terminal normalized output is schema-invalid")
  | .raises e => .error e

/-- The selection that `_selected_terminal_for_initial_delivery` finds, with its terminal. -/
def checkSelected (v : Invocation) (l : InMemoryInferenceLedger)
    (selection : InferenceAttemptSelection) : Except OrchestrationError ModelInference := do
  O.revalidate selection
  refuse (selection.logicalInvocationId != v.logicalInvocationId ||
      selection.policyVersion != v.prepared.policy.selectionPolicyVersion ||
      selection.selectionReason != "FIRST_SCHEMA_VALID_SUCCESS")
    (.ledger "persisted attempt selection lookup is inconsistent")
  match l.terminals.get? selection.inferenceId with
  | none => .error (.ledger "persisted attempt selection has no terminal attempt")
  | some terminal => do
      O.checkSelectedTerminal v selection terminal
      return terminal

def selectedTerminalForInitialDelivery (v : Invocation) :
    SectionMethod (Option ModelInference) := do
  match ← findSelection v.logicalInvocationId v.prepared.policy.selectionPolicyVersion with
  | none => return none
  | some selection => do
      let terminal ← ofExcept (O.checkSelected v (← Method.self).ledger selection)
      setSelection (some selection)
      return some terminal

/-! ## The sections of `orchestrate` -/

end Orchestrator

/-- An attempt whose intent is stored. -/
structure OpenAttempt where
  policy : InferencePolicy
  capabilities : ModelCapabilities
  intent : InferenceIntent
  startedAt : Rfc3339Timestamp

/-- Where a call waits. -/
inductive CallPhase
  | awaitingCapabilities (prepared : PreparedCall)
  | awaitingGate (opened : OpenAttempt)
  | awaitingAdapter (opened : OpenAttempt)

/-- A section ends with the terminal that `orchestrate` returns, or at the next await. -/
inductive Progress
  | returned (terminal : ModelInference)
  | awaits (phase : CallPhase)

/-- What an await ends with.  `settled` is `_BatchMemberCancellationAfterDispatch`. -/
inductive Wakeup
  | capabilities (capabilities : ModelCapabilities)
  | acquired
  | answered (outcome : AdapterOutcome)
  | settled (result : Except Raised AdapterOutcome)
  | raised (exc : Raised)

namespace Orchestrator

variable (O : Orchestrator)

/-- The intent of an invocation, with the times of the intent that is stored. -/
def buildIntent (clock : Clock) (v : Invocation) : SectionMethod InferenceIntent := do
  let existing := (← Method.self).ledger.intents.get? (v.inferenceId O.hashing)
  let now ← timestamp clock
  return v.intent O.hashing ((existing.map (·.queuedAt)).getD now)
    ((existing.map (·.createdAt)).getD now)

/-- `append_intent`; the call remembers what it has appended. -/
def persistIntent (intent : InferenceIntent) : SectionMethod InferenceIntent := do
  let persisted ← onLedger (appendIntent intent)
  assign fun s => { s with appended := some persisted }
  return persisted

/-- From the stored intent to the gate, unless the attempt has its terminal. -/
def enterGate (clock : Clock) (v : Invocation) (intent : InferenceIntent) :
    SectionMethod Progress := do
  match (← Method.self).ledger.terminals.get? intent.inferenceId with
  | some terminal => do
      let _ ← O.selectSuccess clock terminal v.prepared.policy.selectionPolicyVersion
      return .returned terminal
  | none => do
      let startedAt ← timestamp clock
      return .awaits (.awaitingGate ⟨v.prepared.policy, v.capabilities, intent, startedAt⟩)

def openAttempt (clock : Clock) (v : Invocation) : SectionMethod Progress := do
  ofExcept (validateInputPlanBinding (v.request O.hashing))
  let intent ← O.buildIntent clock v
  let persisted ← persistIntent intent
  O.enterGate clock v persisted

/-- The first delivery of an invocation returns the attempt that is selected. -/
def initialDelivery (v : Invocation) : SectionMethod (Option ModelInference) :=
  let a := v.prepared.arguments
  if a.shadow = false ∧ a.attempt = 1 ∧ a.retryCount = 0 then
    O.selectedTerminalForInitialDelivery v
  else pure none

/-- The section after `adapter.capabilities`. -/
def afterCapabilities (clock : Clock) (p : PreparedCall) (capabilities : ModelCapabilities) :
    SectionMethod Progress := do
  let inputConfig ← ofExcept (checkCapabilities p capabilities)
  let v ← ofExcept (identify O.hashing p capabilities inputConfig)
  match ← O.initialDelivery v with
  | some terminal => return .returned terminal
  | none => O.openAttempt clock v

/-- `_terminal` and `_persist_terminal`. -/
def recordOutcome (clock : Clock) (opened : OpenAttempt) (o : AttemptOutcome) :
    SectionMethod ModelInference := do
  let completedAt ← timestamp clock
  O.persistTerminal clock (terminalOf opened.intent opened.startedAt completedAt o)
    opened.policy.selectionPolicyVersion

/-- The terminal of an exception, with its text. -/
def recordRaised (clock : Clock) (opened : OpenAttempt) (status : InferenceStatus)
    (code : NonEmptyString) (exc : Raised) : SectionMethod ModelInference := do
  let detail ← ofExcept (exceptionDetail exc)
  O.recordOutcome clock opened (localFailure status code detail .retryable)

/-- The handlers around `_execution_gate.acquire`. -/
def afterGateRaised (clock : Clock) (opened : OpenAttempt) (exc : Raised) :
    SectionMethod ModelInference :=
  match exc.kind with
  | .cancelled => do
      let _ ← O.recordOutcome clock opened (localFailure .cancelled
        ⟨"ORCHESTRATION_CANCELLED", by decide⟩
        ⟨"inference cancelled while awaiting execution gate", by decide⟩ .retryable)
      raise (.raised exc)
  | .timeout =>
    O.recordRaised clock opened .timeout ⟨"EXECUTION_GATE_TIMEOUT", by decide⟩ exc
  | .exception =>
    O.recordRaised clock opened .failed ⟨"EXECUTION_GATE_REJECTED", by decide⟩ exc
  -- no handler
  | .baseException => raise (.raised exc)

/-- The handlers around `_dispatch_adapter`. -/
def afterAdapterRaised (clock : Clock) (opened : OpenAttempt) (exc : Raised) :
    SectionMethod ModelInference :=
  match exc.kind with
  | .cancelled => do
      let _ ← O.recordOutcome clock opened (localFailure .cancelled
        ⟨"ADAPTER_CANCELLED", by decide⟩
        ⟨"inference cancelled during adapter dispatch", by decide⟩ .retryable)
      raise (.raised exc)
  | .timeout => O.recordRaised clock opened .timeout ⟨"ADAPTER_TIMEOUT", by decide⟩ exc
  | .exception => O.recordRaised clock opened .failed ⟨"ADAPTER_EXCEPTION", by decide⟩ exc
  | .baseException => raise (.raised exc)

/-- The handlers of the error of a shared dispatch. -/
def afterSharedRaised (clock : Clock) (opened : OpenAttempt) (exc : Raised) :
    SectionMethod ModelInference :=
  match exc.kind with
  | .timeout => O.recordRaised clock opened .timeout ⟨"ADAPTER_TIMEOUT", by decide⟩ exc
  | .cancelled => O.recordOutcome clock opened (localFailure .cancelled
      ⟨"ADAPTER_CANCELLED", by decide⟩
      ⟨"shared adapter batch cancelled before completion", by decide⟩ .retryable)
  | _ => O.recordRaised clock opened .failed ⟨"ADAPTER_EXCEPTION", by decide⟩ exc

/-- The `CancelledError` that a settled member of a batch is given back. -/
def cancelledError : Raised := ⟨.cancelled, some "", "CancelledError"⟩

/-- The terminal of an outcome that an adapter has given. -/
def afterOutcome (clock : Clock) (opened : OpenAttempt) (outcome : AdapterOutcome) :
    SectionMethod ModelInference := do
  let o ← ofExcept (O.judge opened.intent.request outcome)
  O.recordOutcome clock opened o

/-- A cancelled member of a batch that was dispatched. -/
def afterSettled (clock : Clock) (opened : OpenAttempt) (result : Except Raised AdapterOutcome) :
    SectionMethod ModelInference := do
  let _ ← match result with
    | .ok outcome => O.afterOutcome clock opened outcome
    | .error exc => O.afterSharedRaised clock opened exc
  raise (.raised cancelledError)

/-- The section that a wakeup starts, if the phase can end so. -/
def resume (clock : Clock) : CallPhase → Wakeup → Option (SectionMethod Progress)
  | .awaitingCapabilities p, .capabilities c => some (O.afterCapabilities clock p c)
  | .awaitingCapabilities _, .raised exc => some (raise (.raised exc))
  | .awaitingGate opened, .acquired => some (pure (.awaits (.awaitingAdapter opened)))
  | .awaitingGate opened, .raised exc =>
    some (Progress.returned <$> O.afterGateRaised clock opened exc)
  | .awaitingAdapter opened, .answered outcome =>
    some (Progress.returned <$> O.afterOutcome clock opened outcome)
  | .awaitingAdapter opened, .settled result =>
    some (Progress.returned <$> O.afterSettled clock opened result)
  | .awaitingAdapter opened, .raised exc =>
    some (Progress.returned <$> O.afterAdapterRaised clock opened exc)
  | _, _ => none

end Orchestrator

/-! ## `orchestrate_with_selection` -/

structure OrchestratedAttemptResult where
  terminal : ModelInference
  selection : Option InferenceAttemptSelection

namespace Orchestrator

variable (O : Orchestrator)

def validateOrchestratedSelection (task : VisionTask) (terminal : ModelInference)
    (selection : InferenceAttemptSelection) : Except OrchestrationError Unit := do
  let policy ← O.policy task
  O.revalidate selection
  refuse (selection.policyVersion != policy.selectionPolicyVersion ||
      selection.selectionReason != "FIRST_SCHEMA_VALID_SUCCESS" ||
      selection.logicalInvocationId != terminal.logicalInvocationId ||
      selection.inferenceId != terminal.inferenceId ||
      terminal.stage != task ||
      terminal.provider != policy.provider ||
      terminal.modelName != policy.modelName ||
      terminal.modelVersion != policy.modelVersion ||
      terminal.adapterVersion != policy.adapterVersion ||
      terminal.promptVersion != policy.promptVersion ||
      terminal.promptSha256 != policy.promptSha256 ||
      terminal.outputSchemaId != policy.outputSchema.schemaId ||
      terminal.outputSchemaVersion != policy.outputSchema.version ||
      terminal.outputSchemaSha256 != policy.outputSchema.sha256 ||
      terminal.generationConfig != policy.generationConfig ||
      terminal.status != .succeeded || !terminal.outputValid ||
      terminal.normalizedOutput.isNone || terminal.failure.isSome || terminal.shadow)
    (.ledger "persisted selection does not target a valid terminal")
  let compiled ← O.schemas policy.outputSchema
  match compiled.validate (terminal.normalizedOutput.getD []) with
  | .valid => .ok ()
  | .invalid _ => .error (.ledger "selected terminal normalized output is schema-invalid")
  | .raises e => .error e

def selectedTerminal (l : InMemoryInferenceLedger) (terminal : ModelInference)
    (selection : InferenceAttemptSelection) : Except OrchestrationError ModelInference :=
  if selection.inferenceId = terminal.inferenceId then .ok terminal
  else match l.terminals.get? selection.inferenceId with
    | some fetched => .ok fetched
    | none => .error (.ledger "persisted selection has no terminal attempt")

/-- The selection handed over by the section, else the one of the ledger. -/
def handedSelection (task : VisionTask) (s : Section) (terminal : ModelInference) :
    Except OrchestrationError InferenceAttemptSelection :=
  match s.selection with
  | some selection => .ok selection
  | none => do
      let policy ← O.policy task
      match s.ledger.selections.get?
          (terminal.logicalInvocationId, policy.selectionPolicyVersion) with
      | some selection => .ok selection
      | none => .error (.ledger "successful invocation has no persisted selection")

/-- What `orchestrate_with_selection` does with the terminal it is given. -/
def withSelection (task : VisionTask) (s : Section) (terminal : ModelInference) :
    Except OrchestrationError OrchestratedAttemptResult :=
  if isSelectable terminal = false then do
    refuse s.selection.isSome (.ledger "non-selected attempt retained an accepted selection")
    return ⟨terminal, none⟩
  else do
    let selection ← O.handedSelection task s terminal
    let selected ← selectedTerminal s.ledger terminal selection
    O.validateOrchestratedSelection task selected selection
    return ⟨selected, some selection⟩

end Orchestrator

/-! ## The event loop -/

/-- The two public coroutines. -/
inductive Entry
  | orchestrate
  | orchestrateWithSelection

inductive CallResult
  | terminal (terminal : ModelInference)
  | attempt (result : OrchestratedAttemptResult)

/-- A call waits, or has ended. -/
inductive CallState
  | waiting (phase : CallPhase)
  | ended (result : Except OrchestrationError CallResult)

/-- A call that has been made. -/
structure OrchestratedCall where
  entry : Entry
  arguments : OrchestrateArguments
  clock : Clock
  ticks : Nat
  selection : Option InferenceAttemptSelection
  appended : Option InferenceIntent
  state : CallState

/-- The ledger, the calls in the order in which they were made, and what the adapters have given
for which requests. -/
structure OrchestratorWorld where
  ledger : InMemoryInferenceLedger
  calls : List OrchestratedCall
  outcomes : List (VisionInferenceRequest × AdapterOutcome)

def OrchestratorWorld.initial : OrchestratorWorld := ⟨.empty, [], []⟩

/-- An event of the loop: a call is made, or the call at an index is woken. -/
inductive OrchestratorEvent
  | call (entry : Entry) (arguments : OrchestrateArguments) (clock : Clock)
  | wake (index : Nat) (wakeup : Wakeup)

namespace Orchestrator

variable (O : Orchestrator)

/-- The state of a call after a section. -/
def settle (c : OrchestratedCall) (s : Section) : Except OrchestrationError Progress → CallState
  | .error e => .ended (.error e)
  | .ok (.awaits phase) => .waiting phase
  | .ok (.returned terminal) => .ended <|
      match c.entry with
      | .orchestrate => .ok (.terminal terminal)
      | .orchestrateWithSelection =>
        (O.withSelection c.arguments.task s terminal).map CallResult.attempt

def runSection (l : InMemoryInferenceLedger) (c : OrchestratedCall)
    (body : SectionMethod Progress) : OrchestratedCall × InMemoryInferenceLedger :=
  let (result, s) := body ⟨l, c.ticks, c.selection, c.appended⟩
  ({ c with
      ticks := s.ticks
      selection := s.selection
      appended := s.appended
      state := O.settle c s result }, s.ledger)

/-- A new call, up to its first await. -/
def newCall (entry : Entry) (a : OrchestrateArguments) (clock : Clock) : OrchestratedCall :=
  ⟨entry, a, clock, 0, none, none, match O.prepare a with
    | .ok prepared => .waiting (.awaitingCapabilities prepared)
    | .error e => .ended (.error e)⟩

/-- What an adapter has given, if the wakeup is its answer. -/
def answersOf : CallPhase → Wakeup → List (VisionInferenceRequest × AdapterOutcome)
  | .awaitingAdapter opened, .answered outcome
  | .awaitingAdapter opened, .settled (.ok outcome) => [(opened.intent.request, outcome)]
  | _, _ => []

/-- One event.  A wakeup that does not fit the phase of the call does not happen. -/
def next (w : OrchestratorWorld) : OrchestratorEvent → OrchestratorWorld
  | .call entry arguments clock => { w with calls := w.calls ++ [O.newCall entry arguments clock] }
  | .wake index wakeup =>
    match w.calls[index]? with
    | none => w
    | some c =>
      match c.state with
      | .ended _ => w
      | .waiting phase =>
        match O.resume c.clock phase wakeup with
        | none => w
        | some body =>
          let (c', l') := O.runSection w.ledger c body
          { ledger := l'
            calls := w.calls.set index c'
            outcomes := w.outcomes ++ answersOf phase wakeup }

/-- The world after a run of events. -/
def after (events : List OrchestratorEvent) : OrchestratorWorld :=
  events.foldl O.next .initial

end Orchestrator
end Robata.Orchestration
