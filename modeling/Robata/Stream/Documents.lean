import Robata.Contracts.Common
import Robata.Outbox.Delivery
import Robata.Queue.Models

/-!
# Documents of a pre-EOS stream

The documents that the stream work ledger and the stream delivery authority store, with
the fields their code reads.  A document is stored as its canonical JSON bytes, so it is
compared as a whole; the fields no modelled function reads are one text, `otherFields`.
The digest, `uuid5` and the byte form of a document are parameters.
-/

namespace Robata.Stream

open Contracts (NanosecondInterval)
open Queue (OpaqueUuid Sha256Digest NonEmptyString Rfc3339Timestamp DependencyCriticality)
open Outbox (Payload)

abbrev SchemaRef := String

/-! ## Enumerations -/

inductive TerminalOutcome
  | succeeded | skippedPolicy | skippedNotNeeded | failed | cancelled | expired
  | quarantined | lateInput | incomplete | abstained | noEvents | invalidated
  deriving DecidableEq

/-- `_NONCOMMITTABLE_WINDOW_OUTCOMES`. -/
def TerminalOutcome.noncommittable : TerminalOutcome → Bool
  | failed | cancelled | expired | quarantined | lateInput | incomplete | invalidated => true
  | succeeded | skippedPolicy | skippedNotNeeded | abstained | noEvents => false

inductive StreamStage
  | segment | window | qaCoarse | qaDense | eventProposal | actionDense
  | boundaryRefinement | windowReduction | finalization
  deriving DecidableEq

inductive PublicationState
  | gated | pending | published
  deriving DecidableEq

/-! ## Terminal evidence -/

structure ArtifactEvidenceRef where
  artifactId : String
  exactSha256 : Sha256Digest
  byteCount : Nat
  schemaRef : SchemaRef
  mediaType : String
  deriving DecidableEq

structure StreamTerminalEvidence where
  outcome : TerminalOutcome
  evidenceRef : ArtifactEvidenceRef
  terminalPolicyVersion : String
  completedAt : Rfc3339Timestamp
  (reasonCode reasonDetail : Option NonEmptyString)
  reasoned : reasonDetail.isSome = true → reasonCode.isSome = true
  deriving DecidableEq

structure WindowTerminalMember where
  schemaRef : SchemaRef
  planKey : String
  expectedOrdinal : Nat
  windowKey : String
  windowSemanticSha256 : Sha256Digest
  terminalOutcome : TerminalOutcome
  terminalWorkItemId : OpaqueUuid
  terminalWorkLogicalKey : String
  terminalEvidenceRef : ArtifactEvidenceRef
  terminalPolicyVersion : String
  memberSemanticSha256 : Sha256Digest
  deriving DecidableEq

/-! ## The expected plan -/

structure ExpectedWindowDeclaration where
  planKey : String
  ordinal : Nat
  windowKey : String
  windowSemanticSha256 : Sha256Digest
  effectiveInterval : NanosecondInterval
  declarationSemanticSha256 : Sha256Digest
  previousAppendChainSha256 : Option Sha256Digest
  appendChainSha256 : Sha256Digest
  otherFields : String
  deriving DecidableEq

structure ExpectedWindowPlanSeal where
  planKey : String
  expectedMemberCount : Nat
  finalAppendChainSha256 : Option Sha256Digest
  (orderedExpectedMemberRootSha256 sealSemanticSha256 : Sha256Digest)
  otherFields : String
  deriving DecidableEq

/-- Execution reconciliation over the sealed expected set. -/
structure WindowTerminalClosure where
  schemaRef : SchemaRef
  planKey : String
  planSealSemanticSha256 : Sha256Digest
  expectedMemberCount : Nat
  members : List WindowTerminalMember
  (terminalMemberRoot terminalClosureDigest : Sha256Digest)
  deriving DecidableEq

structure StreamSubjectRef where
  (subjectType subjectKey : String)
  subjectSemanticSha256 : Sha256Digest
  deriving DecidableEq

structure StreamWorkDependency where
  upstreamWorkLogicalKey : NonEmptyString
  criticality : DependencyCriticality
  deriving DecidableEq

@[ext]
structure StreamWorkItemPlan where
  workItemId : OpaqueUuid
  workLogicalKey : NonEmptyString
  streamRunId : OpaqueUuid
  captureScopeDigest : Sha256Digest
  stage : StreamStage
  subject : StreamSubjectRef
  orderedDependencies : List StreamWorkDependency
  (inputSemanticSha256 configSemanticSha256 : Sha256Digest)
  priority : Nat
  (slaDeadlineAt executionExpiryAt : Option Rfc3339Timestamp)
  maxAttempts : Nat
  traceId : Option NonEmptyString
  createdAt : Rfc3339Timestamp
  maxAttempts_pos : 0 < maxAttempts

instance : DecidableEq StreamWorkItemPlan := fun _ _ => decidable_of_iff _ StreamWorkItemPlan.ext_iff.symm

/-! ## Results -/

/-- Selected terminal lineage retained by a window result. -/
structure InferenceTerminalReference where
  windowKey : String
  windowSemanticSha256 : Sha256Digest
  purpose : String
  inferenceSemanticSha256 : Sha256Digest
  (streamInferenceLogicalId inferenceAttemptId : OpaqueUuid)
  inputPlanSemanticSha256 : Sha256Digest
  status : String
  terminalSemanticSha256 : Sha256Digest
  artifactRef : ArtifactEvidenceRef
  deriving DecidableEq

structure StreamWindowResult where
  schemaRef : SchemaRef
  windowResultId : OpaqueUuid
  windowResultKey : String
  windowResultSemanticSha256 : Sha256Digest
  windowSubject : StreamSubjectRef
  purpose : String
  terminalOutcome : TerminalOutcome
  acceptedTerminals : List InferenceTerminalReference
  resultSemanticEvidenceSha256 : Sha256Digest
  resultEvidenceRef : ArtifactEvidenceRef
  createdAt : Rfc3339Timestamp
  otherFields : String
  deriving DecidableEq

structure RecordingFinalizationMap where
  (expectedPlanSealSemanticSha256 windowTerminalClosureSemanticSha256 : Sha256Digest)
  exportManifestSemanticSha256 : Sha256Digest
  finalizationKey : String
  finalizationSemanticSha256 : Sha256Digest
  otherFields : String
  deriving DecidableEq

/-! ## Causal evidence of a result -/

structure WindowInferencePlan where
  schemaRef : SchemaRef
  planKey : String
  planSemanticSha256 : Sha256Digest
  expectedOrdinal : Nat
  windowKey : String
  windowSemanticSha256 : Sha256Digest
  effectiveInterval : NanosecondInterval
  inputPlanId : OpaqueUuid
  (inputPlanSemanticSha256 sixCameraSlotClosureSemanticSha256 : Sha256Digest)
  otherFields : String
  deriving DecidableEq

structure WindowSemanticEvidence where
  schemaRef : SchemaRef
  windowInferencePlanRef : ArtifactEvidenceRef
  planKey : String
  planSemanticSha256 : Sha256Digest
  expectedOrdinal : Nat
  windowKey : String
  windowSemanticSha256 : Sha256Digest
  effectiveInterval : NanosecondInterval
  (inputPlanSemanticSha256 sixCameraSlotClosureSemanticSha256 semanticSha256 : Sha256Digest)
  otherFields : String
  deriving DecidableEq

structure InferenceLogicalIdentity where
  inputPlanSemanticSha256 : Sha256Digest
  streamInferenceLogicalId : OpaqueUuid
  purpose : String
  inferenceSemanticSha256 : Sha256Digest
  otherFields : String
  deriving DecidableEq

structure InferenceAttemptIdentity where
  inferenceAttemptId : OpaqueUuid
  otherFields : String
  deriving DecidableEq

structure InferenceIntent where
  schemaRef : SchemaRef
  inputPlanExactArtifactRef : ArtifactEvidenceRef
  inputPlanId : OpaqueUuid
  inputPlanSemanticSha256 : Sha256Digest
  windowSubject : StreamSubjectRef
  logicalIdentity : InferenceLogicalIdentity
  attemptIdentity : InferenceAttemptIdentity
  intentSemanticSha256 : Sha256Digest
  otherFields : String
  deriving DecidableEq

structure InferenceIntentReference where
  artifactRef : ArtifactEvidenceRef
  intentSemanticSha256 : Sha256Digest
  (streamInferenceLogicalId inferenceAttemptId : OpaqueUuid)
  inputPlanSemanticSha256 : Sha256Digest
  deriving DecidableEq

structure AcceptedCallEvidence where
  schemaRef : SchemaRef
  intentRef : InferenceIntentReference
  acceptedCallSemanticSha256 : Sha256Digest
  (status otherFields : String)
  deriving DecidableEq

structure AcceptedCallReference where
  artifactRef : ArtifactEvidenceRef
  acceptedCallSemanticSha256 : Sha256Digest
  status : String
  deriving DecidableEq

structure InferenceTerminal where
  schemaRef : SchemaRef
  logicalIdentity : InferenceLogicalIdentity
  attemptIdentity : InferenceAttemptIdentity
  intentRef : InferenceIntentReference
  acceptedCallRef : AcceptedCallReference
  status : String
  terminalSemanticSha256 : Sha256Digest
  otherFields : String
  deriving DecidableEq

structure PreparedWindowReductionEvidence where
  inferencePlan : WindowInferencePlan
  semanticEvidence : WindowSemanticEvidence
  intent : InferenceIntent
  acceptedCall : AcceptedCallEvidence
  inferenceTerminal : InferenceTerminal
  deriving DecidableEq

/-- A document with a byte form that is referred to or sent. -/
inductive Document
  | windowResult (value : StreamWindowResult)
  | finalization (value : RecordingFinalizationMap)
  | inferencePlan (value : WindowInferencePlan)
  | semanticEvidence (value : WindowSemanticEvidence)
  | intent (value : InferenceIntent)
  | acceptedCall (value : AcceptedCallEvidence)
  | inferenceTerminal (value : InferenceTerminal)

/-- The byte form of a document, its digest, and the texts of the outbox. -/
structure Codec where
  canonicalJsonBytes : Document → Payload
  exactBytesSha256 : Payload → Sha256Digest
  outbox : Outbox.Codec

def Codec.outboxId (codec : Codec) (kind subjectKey : String) : String :=
  codec.outbox.uuid5 ("robata:stream-delivery-v1:" ++ kind ++ ":" ++ subjectKey)

section CausalCheck

variable (codec : Codec)

/-- `_require_exact_canonical_ref`: the reference names exactly these bytes. -/
def exactCanonicalRef (reference : ArtifactEvidenceRef) (document : Document)
    (schemaRef : SchemaRef) : Bool :=
  reference.exactSha256 == codec.exactBytesSha256 (codec.canonicalJsonBytes document) &&
    reference.byteCount == (codec.canonicalJsonBytes document).length &&
    reference.schemaRef == schemaRef && reference.mediaType == "application/json"

/-- `_validate_window_reduction_evidence`: the first of its checks that fails, by the text
of its error. -/
def causalDefect (result : StreamWindowResult) (prepared : PreparedWindowReductionEvidence) :
    Option String :=
  let plan := prepared.inferencePlan
  let semantic := prepared.semanticEvidence
  let intent := prepared.intent
  let call := prepared.acceptedCall
  let terminal := prepared.inferenceTerminal
  let named := fun label => label ++ " does not reference exact canonical bytes"
  let checks : List (Bool × String) := [
    (exactCanonicalRef codec semantic.windowInferencePlanRef (.inferencePlan plan) plan.schemaRef,
      named "semantic evidence inference plan"),
    (semantic.planKey == plan.planKey && semantic.planSemanticSha256 == plan.planSemanticSha256 &&
        semantic.expectedOrdinal == plan.expectedOrdinal && semantic.windowKey == plan.windowKey &&
        semantic.windowSemanticSha256 == plan.windowSemanticSha256 &&
        semantic.effectiveInterval == plan.effectiveInterval &&
        semantic.inputPlanSemanticSha256 == plan.inputPlanSemanticSha256 &&
        semantic.sixCameraSlotClosureSemanticSha256 == plan.sixCameraSlotClosureSemanticSha256,
      "semantic evidence does not bind to its inference plan"),
    (exactCanonicalRef codec intent.inputPlanExactArtifactRef (.inferencePlan plan) plan.schemaRef,
      named "inference intent input plan"),
    (intent.inputPlanId == plan.inputPlanId &&
        intent.inputPlanSemanticSha256 == plan.inputPlanSemanticSha256 &&
        intent.windowSubject.subjectKey == plan.windowKey &&
        intent.windowSubject.subjectSemanticSha256 == plan.windowSemanticSha256 &&
        intent.logicalIdentity.inputPlanSemanticSha256 == plan.inputPlanSemanticSha256,
      "inference intent does not bind to its causal inference plan"),
    (exactCanonicalRef codec call.intentRef.artifactRef (.intent intent) intent.schemaRef,
      named "accepted call intent"),
    (call.intentRef.intentSemanticSha256 == intent.intentSemanticSha256 &&
        call.intentRef.streamInferenceLogicalId ==
          intent.logicalIdentity.streamInferenceLogicalId &&
        call.intentRef.inferenceAttemptId == intent.attemptIdentity.inferenceAttemptId &&
        call.intentRef.inputPlanSemanticSha256 == plan.inputPlanSemanticSha256,
      "accepted call does not bind to its inference intent"),
    (exactCanonicalRef codec terminal.intentRef.artifactRef (.intent intent) intent.schemaRef,
      named "inference terminal intent"),
    (exactCanonicalRef codec terminal.acceptedCallRef.artifactRef (.acceptedCall call)
        call.schemaRef,
      named "inference terminal accepted call"),
    (terminal.logicalIdentity == intent.logicalIdentity &&
        terminal.attemptIdentity == intent.attemptIdentity &&
        terminal.intentRef == call.intentRef &&
        terminal.intentRef.intentSemanticSha256 == intent.intentSemanticSha256 &&
        terminal.acceptedCallRef.acceptedCallSemanticSha256 == call.acceptedCallSemanticSha256 &&
        terminal.acceptedCallRef.status == call.status && terminal.status == call.status,
      "inference terminal does not bind to its intent and accepted call"),
    (exactCanonicalRef codec result.resultEvidenceRef (.semanticEvidence semantic)
        semantic.schemaRef,
      named "window result semantic evidence"),
    (result.resultSemanticEvidenceSha256 == semantic.semanticSha256 &&
        result.windowSubject.subjectKey == plan.windowKey &&
        result.windowSubject.subjectSemanticSha256 == plan.windowSemanticSha256 &&
        result.acceptedTerminals.length == 1,
      "window result does not bind to one complete causal evidence chain"),
    (result.acceptedTerminals.all fun selected =>
        exactCanonicalRef codec selected.artifactRef (.inferenceTerminal terminal)
          terminal.schemaRef,
      named "window result inference terminal"),
    (result.acceptedTerminals.all fun selected =>
        selected.windowKey == plan.windowKey &&
          selected.windowSemanticSha256 == plan.windowSemanticSha256 &&
          selected.purpose == result.purpose &&
          selected.purpose == terminal.logicalIdentity.purpose &&
          selected.inferenceSemanticSha256 == terminal.logicalIdentity.inferenceSemanticSha256 &&
          selected.streamInferenceLogicalId == terminal.logicalIdentity.streamInferenceLogicalId &&
          selected.inferenceAttemptId == terminal.attemptIdentity.inferenceAttemptId &&
          selected.inputPlanSemanticSha256 == plan.inputPlanSemanticSha256 &&
          selected.status == terminal.status &&
          selected.terminalSemanticSha256 == terminal.terminalSemanticSha256,
      "window result does not bind to its inference terminal")]
  (checks.find? fun check => !check.1).map Prod.snd

end CausalCheck

end Robata.Stream
