import Robata.Contracts.Common
import Robata.Lib.KeyedTable
import Robata.Lib.Transaction

/-!
# Event identity contracts

The rows of the recording-scoped event identity registry, the exact-fingerprint
resolver, and the checks a batch of hypotheses passes before identities are
assigned to it.

Conventions of the embedding:

* digests, keys, UUIDs and timestamps are texts, compared as texts;
* `semantic_sha256` and `uuid5` are parameters, gathered in `Hashing`; what is
  hashed is the explicit projection, as a typed value, of which the literal
  version fields are left out;
* a hypothesis does not store its digest and its key, which its validator
  recomputes, but derives them;
* an admitted context and an enriched output are reduced to the fields that the
  registry reads;
* current revisions are left out: nothing writes them, and the resolver does not
  read them.
-/

namespace Robata.EventPipeline

open Contracts Lib

/-- The exceptions of the registry, with their texts. -/
inductive EventIdentityRegistryError
  | value (message : String)
  | input (message : String)
  | conflict (message : String)
  | crossRecording (message : String)
  | allocation (message : String)
  | staleFence (recordingIdentity : Sha256Digest)

/-- Raise when a check finds its condition. -/
def refuse (found : Bool) (e : EventIdentityRegistryError) :
    Except EventIdentityRegistryError Unit :=
  if found then .error e else .ok ()

@[simp] theorem refuse_eq_ok {found : Bool} {e : EventIdentityRegistryError} {u : Unit} :
    refuse found e = .ok u ↔ found = false := by
  cases found <;> simp [refuse]

inductive AdmissionEvidenceClass
  | localConformance
  | governedBenchmark
  | productionQualified
  deriving DecidableEq

inductive EventIdentityAssignmentDisposition
  | created
  | reused
  | ambiguous
  deriving DecidableEq

inductive EventIdentityCandidateRelation
  | sameEvent
  | splitFrom
  | mergedFrom
  | supersedes
  | possibleMatch
  deriving DecidableEq

inductive EventIdentityAssignmentRelation
  | newIdentity
  | sameEvent
  | splitFrom
  | mergedFrom
  | supersedes
  | possibleMatch
  deriving DecidableEq

def EventIdentityAssignmentRelation.value : EventIdentityAssignmentRelation → String
  | newIdentity => "NEW_IDENTITY"
  | sameEvent => "SAME_EVENT"
  | splitFrom => "SPLIT_FROM"
  | mergedFrom => "MERGED_FROM"
  | supersedes => "SUPERSEDES"
  | possibleMatch => "POSSIBLE_MATCH"

/-- `EventIdentityAssignmentRelation(candidate.relation.value)`. -/
def EventIdentityCandidateRelation.summary :
    EventIdentityCandidateRelation → EventIdentityAssignmentRelation
  | sameEvent => .sameEvent
  | splitFrom => .splitFrom
  | mergedFrom => .mergedFrom
  | supersedes => .supersedes
  | possibleMatch => .possibleMatch

structure EventIdentityPolicyRef where
  version : SchemaVersion
  semanticSha256 : Sha256Digest

structure ProductionOutputAdmissionPolicyRef where
  version : SchemaVersion
  semanticSha256 : Sha256Digest

/-! ## Hypotheses -/

structure AdmissionProof where
  evidenceClass : AdmissionEvidenceClass
  productionEligible : Bool
  (recordingIdentity admittedContextSemanticSha256 : Sha256Digest)
  admissionPolicyVersion : SchemaVersion
  admissionPolicySha256 : Sha256Digest
  deriving DecidableEq

structure PlatformEnrichedOutputReference where
  recordingIdentity : Sha256Digest
  enrichmentLogicalKey : NodeLogicalKey
  enrichedOutputSemanticSha256 : Sha256Digest
  enrichmentPolicyVersion : SchemaVersion
  deriving DecidableEq

structure ProductionAdmittedHypothesisFact where
  fusionOutputOrdinal : Nat
  effectiveInterval : NanosecondInterval
  semanticFingerprintSha256 : Sha256Digest
  fusionLogicalKey : NodeLogicalKey
  deriving DecidableEq

structure OutputAdmissionProof where
  evidenceClass : AdmissionEvidenceClass
  productionEligible : Bool
  recordingIdentity : Sha256Digest
  sourceEnrichments : List PlatformEnrichedOutputReference
  admittedHypothesisFacts : List ProductionAdmittedHypothesisFact
  outputAdmissionPolicyVersion : SchemaVersion
  outputAdmissionPolicySha256 : Sha256Digest

structure PlatformEnrichedEventHypothesis where
  recordingIdentity : Sha256Digest
  effectiveInterval : NanosecondInterval
  semanticFingerprintSha256 : Sha256Digest
  fusionLogicalKey : NodeLogicalKey
  fusionOutputOrdinal : Nat
  sourceEnrichments : List PlatformEnrichedOutputReference
  productionAdmission : AdmissionProof
  productionOutputAdmission : OutputAdmissionProof

/-- `platform_enriched_output_logical_projection`: the reference without the
digest of the exact artifact. -/
structure EnrichmentProjection where
  recordingIdentity : Sha256Digest
  enrichmentLogicalKey : NodeLogicalKey
  enrichmentPolicyVersion : SchemaVersion
  deriving DecidableEq

def platformEnrichedOutputLogicalProjection (reference : PlatformEnrichedOutputReference) :
    EnrichmentProjection where
  recordingIdentity := reference.recordingIdentity
  enrichmentLogicalKey := reference.enrichmentLogicalKey
  enrichmentPolicyVersion := reference.enrichmentPolicyVersion

structure OutputAdmissionProjection where
  evidenceClass : AdmissionEvidenceClass
  productionEligible : Bool
  recordingIdentity : Sha256Digest
  sourceEnrichments : List EnrichmentProjection
  admittedHypothesisFacts : List ProductionAdmittedHypothesisFact
  outputAdmissionPolicyVersion : SchemaVersion
  outputAdmissionPolicySha256 : Sha256Digest
  deriving DecidableEq

def outputAdmissionProjection (proof : OutputAdmissionProof) : OutputAdmissionProjection where
  evidenceClass := proof.evidenceClass
  productionEligible := proof.productionEligible
  recordingIdentity := proof.recordingIdentity
  sourceEnrichments := proof.sourceEnrichments.map platformEnrichedOutputLogicalProjection
  admittedHypothesisFacts := proof.admittedHypothesisFacts
  outputAdmissionPolicyVersion := proof.outputAdmissionPolicyVersion
  outputAdmissionPolicySha256 := proof.outputAdmissionPolicySha256

/-- `event_hypothesis_semantic_projection`. -/
structure EventHypothesisProjection where
  recordingIdentity : Sha256Digest
  effectiveInterval : NanosecondInterval
  semanticFingerprintSha256 : Sha256Digest
  fusionLogicalKey : NodeLogicalKey
  fusionOutputOrdinal : Nat
  sourceEnrichments : List EnrichmentProjection
  productionAdmission : AdmissionProof
  productionOutputAdmission : OutputAdmissionProjection
  deriving DecidableEq

def eventHypothesisSemanticProjection (hypothesis : PlatformEnrichedEventHypothesis) :
    EventHypothesisProjection where
  recordingIdentity := hypothesis.recordingIdentity
  effectiveInterval := hypothesis.effectiveInterval
  semanticFingerprintSha256 := hypothesis.semanticFingerprintSha256
  fusionLogicalKey := hypothesis.fusionLogicalKey
  fusionOutputOrdinal := hypothesis.fusionOutputOrdinal
  sourceEnrichments := hypothesis.sourceEnrichments.map platformEnrichedOutputLogicalProjection
  productionAdmission := hypothesis.productionAdmission
  productionOutputAdmission := outputAdmissionProjection hypothesis.productionOutputAdmission

/-! ## Rows -/

structure EventIdentityCandidate where
  eventId : OpaqueUuid
  score : ℚ
  relation : EventIdentityCandidateRelation
  reason : String
  deriving DecidableEq

structure EventIdentityResolution where
  disposition : EventIdentityAssignmentDisposition
  selectedEventId : Option OpaqueUuid
  candidates : List EventIdentityCandidate
  reason : String

structure StableEventIdentity where
  recordingIdentity : Sha256Digest
  eventId : OpaqueUuid
  semanticFingerprintSha256 : Sha256Digest
  createdGeneration : Nat
  createdByHypothesisLogicalKey : NodeLogicalKey
  creationDisposition : EventIdentityAssignmentDisposition
  allocatorVersion : SchemaVersion

/-- `event_identity_assignment_semantic_projection`. -/
structure EventIdentityAssignmentProjection where
  recordingIdentity : Sha256Digest
  eventHypothesisLogicalKey : NodeLogicalKey
  eventHypothesisSemanticSha256 : Sha256Digest
  eventId : OpaqueUuid
  disposition : EventIdentityAssignmentDisposition
  relation : List EventIdentityAssignmentRelation
  identityPolicyVersion : SchemaVersion
  identityPolicySha256 : Sha256Digest
  candidates : List EventIdentityCandidate
  reason : String
  registryGeneration : Nat
  deriving DecidableEq

structure EventIdentityAssignment extends EventIdentityAssignmentProjection where
  assignmentId : OpaqueUuid
  assignmentLogicalKey : NodeLogicalKey
  assignmentSemanticSha256 : Sha256Digest
  decidedAt : String
  deriving DecidableEq

/-- `event_identity_relation_semantic_projection`. -/
structure EventIdentityRelationProjection where
  recordingIdentity : Sha256Digest
  assignmentLogicalKey : NodeLogicalKey
  (fromEventId toEventId : OpaqueUuid)
  relation : EventIdentityCandidateRelation
  score : ℚ
  reason : String
  identityPolicyVersion : SchemaVersion
  identityPolicySha256 : Sha256Digest
  registryGeneration : Nat

structure EventIdentityRelation extends EventIdentityRelationProjection where
  relationLogicalKey : NodeLogicalKey

structure EventIdentityOutboxRecord where
  outboxId : OpaqueUuid
  (recordingIdentity key : Sha256Digest)
  (assignmentLogicalKey payloadReference : NodeLogicalKey)
  registryGeneration : Nat

/-- The projections this subsystem hashes. -/
inductive SemanticProjection
  | eventHypothesis (projection : EventHypothesisProjection)
  | assignment (projection : EventIdentityAssignmentProjection)
  | relation (projection : EventIdentityRelationProjection)

/-- `semantic_sha256`, and `uuid5` in the URL namespace. -/
structure Hashing where
  semanticSha256 : SemanticProjection → Sha256Digest
  uuid5 : String → OpaqueUuid

/-- `_stable_uuid` of one part. -/
def Hashing.stableUuid (H : Hashing) (namespaceName part : String) : OpaqueUuid :=
  H.uuid5 ("robata:" ++ namespaceName ++ ":" ++ part)

variable (H : Hashing)

def PlatformEnrichedEventHypothesis.semanticSha256 (hypothesis : PlatformEnrichedEventHypothesis) :
    Sha256Digest :=
  H.semanticSha256 (.eventHypothesis (eventHypothesisSemanticProjection hypothesis))

def PlatformEnrichedEventHypothesis.logicalKey (hypothesis : PlatformEnrichedEventHypothesis) :
    NodeLogicalKey :=
  "event-hypothesis-v2:" ++ hypothesis.semanticSha256 H

/-- The key under which a hypothesis is assigned once. -/
abbrev IdempotencyKey := NodeLogicalKey × SchemaVersion × Sha256Digest

def hypothesisIdempotencyKey (hypothesis : PlatformEnrichedEventHypothesis)
    (policy : EventIdentityPolicyRef) : IdempotencyKey :=
  (hypothesis.logicalKey H, policy.version, policy.semanticSha256)

def assignmentIdempotencyKey (assignment : EventIdentityAssignment) : IdempotencyKey :=
  (assignment.eventHypothesisLogicalKey, assignment.identityPolicyVersion,
    assignment.identityPolicySha256)

end Robata.EventPipeline
