import Robata.EventPipeline.Identity

/-!
# Resolving a batch against a snapshot

`_validate_authority_inputs`, `ExactFingerprintEventIdentityResolver` and
`_prepare_mutation`: a batch of hypotheses is checked, put in canonical order and
resolved one hypothesis after another against a working copy of the snapshot.
The result is a mutation to be committed, unless every hypothesis is a replay.

The injected allocator is given by its answers, in the order of its calls.
-/

namespace Robata.EventPipeline

open Contracts Lib

/-- Raise the text of a failed validator as an exception of the registry. -/
def raiseAs {α : Type} (x : Except String α) (e : String → EventIdentityRegistryError) :
    Except EventIdentityRegistryError α :=
  match x with
  | .ok a => .ok a
  | .error message => .error (e message)

theorem raiseAs_eq_ok {α : Type} {x : Except String α} {e : String → EventIdentityRegistryError}
    {a : α} : raiseAs x e = .ok a ↔ x = .ok a := by
  cases x <;> simp [raiseAs]

/-- Raise a `ValueError` when a validator finds its condition. -/
def reject (found : Bool) (message : String) : Except String Unit :=
  if found then .error message else .ok ()

@[simp] theorem reject_eq_ok {found : Bool} {message : String} {u : Unit} :
    reject found message = .ok u ↔ found = false := by
  cases found <;> simp [reject]

/-! ## Authority -/

/-- What the registry reads of an `AdmittedRecordingContextV2`. -/
structure AdmittedRecordingContextV2 where
  recordingIdentity : Sha256Digest
  (mcapId cameraMappingRunId alignmentId : OpaqueUuid)
  admissible : Bool
  semanticSha256 : Sha256Digest
  policyVersion : SchemaVersion
  policySemanticSha256 : Sha256Digest

/-- What the registry reads of an `OrchestratorEnrichedOutput`. -/
structure OrchestratorEnrichedOutput where
  recordingIdentity : Sha256Digest
  (mcapId cameraMappingRunId alignmentId : OpaqueUuid)
  enrichmentLogicalKey : NodeLogicalKey
  semanticSha256 : Sha256Digest
  enrichmentPolicyVersion : SchemaVersion

/-- `EventIdentityRegistryService`, without its repository and its allocator. -/
structure EventIdentityRegistryService where
  policy : EventIdentityPolicyRef
  allocatorVersion : SchemaVersion
  outputAdmissionPolicy : ProductionOutputAdmissionPolicyRef
  admissionEvidenceClass : AdmissionEvidenceClass
  maxCasRetries : Nat

def AdmissionProof.fromContext (context : AdmittedRecordingContextV2)
    (evidenceClass : AdmissionEvidenceClass) :
    Except EventIdentityRegistryError AdmissionProof := do
  refuse (!context.admissible) (.input "an inadmissible context cannot produce an admission proof")
  refuse (evidenceClass == .productionQualified)
    (.input "PRODUCTION_QUALIFIED requires the governed qualification gateway")
  .ok {
    evidenceClass := evidenceClass
    productionEligible := evidenceClass == .productionQualified
    recordingIdentity := context.recordingIdentity
    admittedContextSemanticSha256 := context.semanticSha256
    admissionPolicyVersion := context.policyVersion
    admissionPolicySha256 := context.policySemanticSha256 }

def PlatformEnrichedOutputReference.fromOutput (output : OrchestratorEnrichedOutput) :
    PlatformEnrichedOutputReference where
  recordingIdentity := output.recordingIdentity
  enrichmentLogicalKey := output.enrichmentLogicalKey
  enrichedOutputSemanticSha256 := output.semanticSha256
  enrichmentPolicyVersion := output.enrichmentPolicyVersion

/-- `_admitted_hypothesis_fact_from_values`. -/
def PlatformEnrichedEventHypothesis.admittedFact (hypothesis : PlatformEnrichedEventHypothesis) :
    ProductionAdmittedHypothesisFact where
  fusionOutputOrdinal := hypothesis.fusionOutputOrdinal
  effectiveInterval := hypothesis.effectiveInterval
  semanticFingerprintSha256 := hypothesis.semanticFingerprintSha256
  fusionLogicalKey := hypothesis.fusionLogicalKey

/-- Whether the first of two keys comes first, by the first part that differs. -/
def before {α : Type} [LT α] [DecidableLT α] [DecidableEq α] (a b : α) (rest : Bool) : Bool :=
  decide (a < b) || (decide (a = b) && rest)

/-- The order of `_admitted_hypothesis_fact_sort_key`. -/
def ProductionAdmittedHypothesisFact.sortLe (a b : ProductionAdmittedHypothesisFact) : Bool :=
  before a.effectiveInterval.startNs b.effectiveInterval.startNs <|
    before a.effectiveInterval.endNs b.effectiveInterval.endNs <|
      before a.fusionLogicalKey b.fusionLogicalKey <|
        before a.fusionOutputOrdinal b.fusionOutputOrdinal <|
          decide (a.semanticFingerprintSha256 ≤ b.semanticFingerprintSha256)

variable (H : Hashing)

/-- The order in which a batch is processed. -/
def PlatformEnrichedEventHypothesis.sortLe (a b : PlatformEnrichedEventHypothesis) : Bool :=
  before a.effectiveInterval.startNs b.effectiveInterval.startNs <|
    before a.effectiveInterval.endNs b.effectiveInterval.endNs <|
      decide (a.logicalKey H ≤ b.logicalKey H)

/-- Strictly increasing keys: `len(set(keys)) == len(keys)` and `keys == sorted(keys)`. -/
def uniqueAndCanonical (keys : List String) : Bool :=
  decide (keys.Nodup ∧ keys.Pairwise (· ≤ ·))

/-- `PlatformEnrichedEventHypothesis.validate_hypothesis`, without the comparison
of the derived digest and key. -/
def PlatformEnrichedEventHypothesis.validate (hypothesis : PlatformEnrichedEventHypothesis) :
    Except String Unit := do
  let admission := hypothesis.productionAdmission
  let outputAdmission := hypothesis.productionOutputAdmission
  reject (admission.recordingIdentity != hypothesis.recordingIdentity)
    "admission proof recording does not match hypothesis"
  reject (outputAdmission.recordingIdentity != hypothesis.recordingIdentity)
    "output admission proof recording does not match hypothesis"
  reject (admission.evidenceClass != outputAdmission.evidenceClass ||
      admission.productionEligible != outputAdmission.productionEligible)
    "primary and output admission evidence metadata must match"
  reject hypothesis.sourceEnrichments.isEmpty "an event hypothesis requires enriched output lineage"
  reject (!uniqueAndCanonical (hypothesis.sourceEnrichments.map fun item =>
      item.enrichmentLogicalKey))
    "source enrichment references must be unique and canonical"
  reject (hypothesis.sourceEnrichments.any fun item =>
      item.recordingIdentity != hypothesis.recordingIdentity)
    "enriched output lineage crosses recording scope"
  reject (outputAdmission.sourceEnrichments != hypothesis.sourceEnrichments)
    "output admission proof does not exactly bind hypothesis lineage"
  reject (!outputAdmission.admittedHypothesisFacts.contains hypothesis.admittedFact)
    "output admission proof does not admit the exact hypothesis facts"

/-- The enriched outputs of a call, one after another. -/
def validateOutputs (context : AdmittedRecordingContextV2) :
    List NodeLogicalKey → List OrchestratorEnrichedOutput → Except EventIdentityRegistryError Unit
  | _, [] => .ok ()
  | seen, output :: rest => do
      refuse (seen.contains output.enrichmentLogicalKey)
        (.input "enriched outputs contain duplicate logical keys")
      refuse (output.recordingIdentity != context.recordingIdentity ||
          output.mcapId != context.mcapId ||
          output.cameraMappingRunId != context.cameraMappingRunId ||
          output.alignmentId != context.alignmentId)
        (.input "enriched output authority does not match V2 admission evidence")
      validateOutputs context (output.enrichmentLogicalKey :: seen) rest

/-- The checks of one hypothesis against the evidence of the call. -/
def validateHypothesis (service : EventIdentityRegistryService)
    (context : AdmittedRecordingContextV2) (outputs : List OrchestratorEnrichedOutput)
    (expectedProof : AdmissionProof) (admittedFacts : List ProductionAdmittedHypothesisFact)
    (hypothesis : PlatformEnrichedEventHypothesis) : Except EventIdentityRegistryError Unit := do
  refuse (hypothesis.recordingIdentity != context.recordingIdentity)
    (.crossRecording "event hypothesis crosses the admitted recording scope")
  refuse (hypothesis.productionAdmission.evidenceClass != service.admissionEvidenceClass)
    (.input "event hypothesis evidence class differs from the configured identity boundary")
  refuse (hypothesis.productionAdmission != expectedProof)
    (.input "event hypothesis does not bind the supplied admission context")
  let outputProof := hypothesis.productionOutputAdmission
  refuse (outputProof.evidenceClass != service.admissionEvidenceClass)
    (.input "event hypothesis evidence class differs from the configured identity boundary")
  refuse (outputProof.outputAdmissionPolicyVersion != service.outputAdmissionPolicy.version ||
      outputProof.outputAdmissionPolicySha256 != service.outputAdmissionPolicy.semanticSha256)
    (.input "event hypothesis does not bind the configured output admission policy")
  refuse (outputProof.admittedHypothesisFacts != admittedFacts)
    (.input "output admission proof does not exactly cover the hypothesis batch")
  refuse (hypothesis.sourceEnrichments.any fun reference =>
      (outputs.find? fun output =>
        output.enrichmentLogicalKey == reference.enrichmentLogicalKey).all fun output =>
          reference != .fromOutput output)
    (.input "event hypothesis contains absent or forged enrichment lineage")

/-- `_validate_authority_inputs`: the batch, in canonical order. -/
def validateAuthorityInputs (service : EventIdentityRegistryService)
    (context : AdmittedRecordingContextV2) (hypotheses : List PlatformEnrichedEventHypothesis)
    (enrichedOutputs : List OrchestratorEnrichedOutput) :
    Except EventIdentityRegistryError (List PlatformEnrichedEventHypothesis) := do
  hypotheses.forM fun item =>
    raiseAs item.validate fun _ => .input "event hypothesis failed validation"
  refuse hypotheses.isEmpty (.input "event identity assignment requires hypotheses")
  refuse (decide ¬ (hypotheses.map (·.logicalKey H)).Nodup)
    (.input "event hypothesis batch contains duplicates")
  let admittedFacts := (hypotheses.map (·.admittedFact)).insertionSort fun a b =>
    a.sortLe b
  refuse (decide ¬ (admittedFacts.map (·.fusionOutputOrdinal)).Nodup)
    (.input "event hypothesis batch contains duplicate fusion output ordinals")
  validateOutputs context [] enrichedOutputs
  let expectedProof ← AdmissionProof.fromContext context service.admissionEvidenceClass
  hypotheses.forM (validateHypothesis service context enrichedOutputs expectedProof admittedFacts)
  refuse (enrichedOutputs.any fun output => hypotheses.all fun hypothesis =>
      hypothesis.sourceEnrichments.all fun reference =>
        reference.enrichmentLogicalKey != output.enrichmentLogicalKey)
    (.input "supplied enriched outputs must exactly match hypothesis lineage")
  .ok (hypotheses.insertionSort fun a b => a.sortLe H b)

/-! ## Snapshots -/

structure EventRegistrySnapshot where
  recordingIdentity : Sha256Digest
  (generation fence : Nat)
  identities : List StableEventIdentity
  assignments : List EventIdentityAssignment

/-- The order of `_assignment_sort_key`. -/
def EventIdentityAssignment.sortLe (a b : EventIdentityAssignment) : Bool :=
  before a.eventHypothesisLogicalKey b.eventHypothesisLogicalKey <|
    before a.identityPolicyVersion b.identityPolicyVersion <|
      before a.identityPolicySha256 b.identityPolicySha256 <|
        decide (a.assignmentLogicalKey ≤ b.assignmentLogicalKey)

/-- `tuple(sorted(identities, key=lambda item: item.event_id))`. -/
def sortedIdentities (identities : List StableEventIdentity) : List StableEventIdentity :=
  identities.insertionSort fun a b => a.eventId ≤ b.eventId

/-- `tuple(sorted(assignments, key=_assignment_sort_key))`. -/
def sortedAssignments (assignments : List EventIdentityAssignment) : List EventIdentityAssignment :=
  assignments.insertionSort fun a b => a.sortLe b

def validateSnapshot (snapshot : EventRegistrySnapshot) : Except String Unit := do
  reject (snapshot.identities.map (·.eventId) !=
        (sortedIdentities snapshot.identities).map (·.eventId) ||
      decide ¬ (snapshot.identities.map (·.eventId)).Nodup)
    "snapshot identities must be unique and canonical"
  reject (snapshot.identities.any fun item =>
      item.recordingIdentity != snapshot.recordingIdentity)
    "snapshot identity crosses recording scope"
  reject (decide ¬ snapshot.assignments.Pairwise fun a b => a.sortLe b)
    "snapshot assignments must be canonical"
  reject (snapshot.assignments.any fun item =>
      item.recordingIdentity != snapshot.recordingIdentity)
    "snapshot assignment crosses recording scope"

def validateRegistrySnapshot (snapshot : EventRegistrySnapshot) (recordingIdentity : Sha256Digest) :
    Except EventIdentityRegistryError EventRegistrySnapshot := do
  raiseAs (validateSnapshot snapshot) fun _ =>
    .input "event registry snapshot failed validation"
  refuse (snapshot.recordingIdentity != recordingIdentity)
    (.crossRecording "identity preparation snapshot crosses recording scope")
  .ok snapshot

/-! ## The resolver -/

def resolve (hypothesis : PlatformEnrichedEventHypothesis) (snapshot : EventRegistrySnapshot) :
    Except EventIdentityRegistryError EventIdentityResolution := do
  refuse (snapshot.recordingIdentity != hypothesis.recordingIdentity)
    (.crossRecording "resolver snapshot does not match the hypothesis recording")
  match snapshot.identities.filter fun item =>
    item.semanticFingerprintSha256 == hypothesis.semanticFingerprintSha256 with
  | [] =>
    .ok {
      disposition := .created
      selectedEventId := none
      candidates := []
      reason := "no exact platform semantic fingerprint exists" }
  | [item] =>
    .ok {
      disposition := .reused
      selectedEventId := some item.eventId
      candidates := [{
        eventId := item.eventId
        score := 1
        relation := .sameEvent
        reason := "exact platform semantic fingerprint match" }]
      reason := "one exact platform semantic fingerprint exists" }
  | matched =>
    .ok {
      disposition := .ambiguous
      selectedEventId := none
      candidates := matched.map fun item => {
        eventId := item.eventId
        score := 1
        relation := .possibleMatch
        reason := "multiple exact platform semantic fingerprints exist" }
      reason := "exact fingerprint is ambiguous across existing identities" }

def validateResolution (resolution : EventIdentityResolution) : Except String Unit := do
  let ids := resolution.candidates.map (·.eventId)
  reject (decide ¬ ids.Nodup) "resolution candidates must contain unique event IDs"
  reject (decide ¬ ids.Pairwise (· ≤ ·)) "resolution candidates must be in canonical event-ID order"
  reject (resolution.disposition == .reused && resolution.selectedEventId.isNone)
    "REUSED resolution requires selected_event_id"
  reject (resolution.disposition == .reused &&
      match resolution.candidates.filter fun item =>
        resolution.selectedEventId == some item.eventId with
      | [selected] => selected.relation != .sameEvent
      | _ => true)
    "REUSED resolution must select a SAME_EVENT candidate"
  reject (resolution.disposition != .reused && resolution.selectedEventId.isSome)
    "CREATED or AMBIGUOUS resolution cannot select an existing ID"
  reject (resolution.disposition == .ambiguous && (resolution.candidates.isEmpty ||
      resolution.candidates.any (·.relation != .possibleMatch)))
    "AMBIGUOUS resolution requires only POSSIBLE_MATCH candidates"
  reject (resolution.disposition == .created && resolution.candidates.any fun item =>
      item.relation == .sameEvent || item.relation == .possibleMatch)
    "CREATED resolution cannot silently contain reuse candidates"

def validateResolutionScope (resolution : EventIdentityResolution)
    (snapshot : EventRegistrySnapshot) : Except EventIdentityRegistryError Unit := do
  let known := snapshot.identities.map (·.eventId)
  refuse (resolution.candidates.any fun item => !known.contains item.eventId)
    (.crossRecording "identity resolver returned a candidate outside the recording snapshot")
  refuse (resolution.selectedEventId.any fun eventId => !known.contains eventId)
    (.crossRecording "identity resolver selected an ID outside the recording snapshot")

/-! ## Rows of one assignment -/

/-- `_assignment_relations`: a set, in the order of its values. -/
def assignmentRelations (resolution : EventIdentityResolution) :
    List EventIdentityAssignmentRelation :=
  let first : EventIdentityAssignmentRelation :=
    if resolution.disposition = .reused then .sameEvent else .newIdentity
  (first :: resolution.candidates.map (·.relation.summary)).dedup.insertionSort
    fun a b => a.value ≤ b.value

def buildAssignment (hypothesis : PlatformEnrichedEventHypothesis)
    (resolution : EventIdentityResolution) (eventId : OpaqueUuid)
    (policy : EventIdentityPolicyRef) (registryGeneration : Nat) (decidedAt : String) :
    EventIdentityAssignment :=
  let projection : EventIdentityAssignmentProjection := {
    recordingIdentity := hypothesis.recordingIdentity
    eventHypothesisLogicalKey := hypothesis.logicalKey H
    eventHypothesisSemanticSha256 := hypothesis.semanticSha256 H
    eventId := eventId
    disposition := resolution.disposition
    relation := assignmentRelations resolution
    identityPolicyVersion := policy.version
    identityPolicySha256 := policy.semanticSha256
    candidates := resolution.candidates
    reason := resolution.reason
    registryGeneration := registryGeneration }
  let digest := H.semanticSha256 (.assignment projection)
  { projection with
    assignmentId := H.stableUuid "event-identity-assignment" digest
    assignmentLogicalKey := "event-identity-assignment:" ++ digest
    assignmentSemanticSha256 := digest
    decidedAt := decidedAt }

def buildRelations (assignment : EventIdentityAssignment)
    (resolution : EventIdentityResolution) : List EventIdentityRelation :=
  (resolution.candidates.filter (·.relation != .sameEvent)).map
    fun candidate =>
      let projection : EventIdentityRelationProjection := {
        recordingIdentity := assignment.recordingIdentity
        assignmentLogicalKey := assignment.assignmentLogicalKey
        fromEventId := candidate.eventId
        toEventId := assignment.eventId
        relation := candidate.relation
        score := candidate.score
        reason := candidate.reason
        identityPolicyVersion := assignment.identityPolicyVersion
        identityPolicySha256 := assignment.identityPolicySha256
        registryGeneration := assignment.registryGeneration }
      { projection with
        relationLogicalKey :=
          "event-identity-relation:" ++ H.semanticSha256 (.relation projection) }

/-- The outbox row of an assignment. -/
def outboxRecord (assignment : EventIdentityAssignment) : EventIdentityOutboxRecord where
  outboxId := H.stableUuid "event-identity-outbox" assignment.assignmentLogicalKey
  recordingIdentity := assignment.recordingIdentity
  key := assignment.recordingIdentity
  assignmentLogicalKey := assignment.assignmentLogicalKey
  payloadReference := assignment.assignmentLogicalKey
  registryGeneration := assignment.registryGeneration

/-! ## The loop of `_prepare_mutation` -/

inductive Allocation
  | failed
  | invalid
  | allocated (eventId : OpaqueUuid)

/-- The variables of the loop.  `existing` is the dictionary of assignments with
the latest entry first; the results stand in the order of the batch, whose keys
are distinct. -/
structure Preparation where
  existing : List EventIdentityAssignment
  (workingIdentities newIdentities : List StableEventIdentity)
  newAssignments : List EventIdentityAssignment
  relations : List EventIdentityRelation
  outbox : List EventIdentityOutboxRecord
  replayedKeys : List NodeLogicalKey
  results : List EventIdentityAssignment
  allocations : Nat

def Preparation.start (snapshot : EventRegistrySnapshot) : Preparation where
  existing := snapshot.assignments.reverse
  workingIdentities := snapshot.identities
  newIdentities := []
  newAssignments := []
  relations := []
  outbox := []
  replayedKeys := []
  results := []
  allocations := 0

/-- The snapshot the resolver is shown. -/
def Preparation.workingSnapshot (p : Preparation) (snapshot : EventRegistrySnapshot) :
    Except EventIdentityRegistryError EventRegistrySnapshot := do
  let working : EventRegistrySnapshot := { snapshot with
    identities := sortedIdentities p.workingIdentities
    assignments := sortedAssignments (snapshot.assignments ++ p.newAssignments) }
  raiseAs (validateSnapshot working) .value
  .ok working

/-- Resolve, and validate what the resolver returns. -/
def Preparation.resolution (p : Preparation) (snapshot : EventRegistrySnapshot)
    (hypothesis : PlatformEnrichedEventHypothesis) :
    Except EventIdentityRegistryError EventIdentityResolution := do
  let working ← p.workingSnapshot snapshot
  let resolution ← resolve hypothesis working
  raiseAs (validateResolution resolution) fun _ =>
    .input "event identity resolver returned an invalid resolution"
  validateResolutionScope resolution working
  .ok resolution

/-- Append the rows of one new assignment. -/
def Preparation.assign (p : Preparation) (assignment : EventIdentityAssignment)
    (resolution : EventIdentityResolution) : Preparation :=
  { p with
    existing := assignment :: p.existing
    newAssignments := p.newAssignments ++ [assignment]
    relations := p.relations ++ buildRelations H assignment resolution
    outbox := p.outbox ++ [outboxRecord H assignment]
    results := p.results ++ [assignment] }

/-- Append one new identity. -/
def Preparation.create (p : Preparation) (identity : StableEventIdentity) : Preparation :=
  { p with
    workingIdentities := p.workingIdentities ++ [identity]
    newIdentities := p.newIdentities ++ [identity]
    allocations := p.allocations + 1 }

/-- `self._allocator.allocate(…)` with the checks of its answer. -/
def Preparation.allocate (p : Preparation) (allocator : Nat → Allocation) :
    Except EventIdentityRegistryError OpaqueUuid :=
  match allocator p.allocations with
  | .failed => .error (.allocation "event ID allocator failed")
  | .invalid => .error (.allocation "event ID allocator returned an invalid identity")
  | .allocated eventId =>
    if p.workingIdentities.any fun item => item.eventId == eventId then
      .error (.allocation "event ID allocator returned an existing identity")
    else
      .ok eventId

/-- The identity of a hypothesis that no existing identity answers for. -/
def newIdentity (service : EventIdentityRegistryService)
    (hypothesis : PlatformEnrichedEventHypothesis) (resolution : EventIdentityResolution)
    (eventId : OpaqueUuid) (nextGeneration : Nat) : StableEventIdentity where
  recordingIdentity := hypothesis.recordingIdentity
  eventId := eventId
  semanticFingerprintSha256 := hypothesis.semanticFingerprintSha256
  createdGeneration := nextGeneration
  createdByHypothesisLogicalKey := hypothesis.logicalKey H
  creationDisposition :=
    if resolution.disposition = .ambiguous then .ambiguous else .created
  allocatorVersion := service.allocatorVersion

def prepareHypothesis (service : EventIdentityRegistryService) (snapshot : EventRegistrySnapshot)
    (decidedAt : String) (allocator : Nat → Allocation) (p : Preparation)
    (hypothesis : PlatformEnrichedEventHypothesis) :
    Except EventIdentityRegistryError Preparation :=
  let nextGeneration := snapshot.generation + 1
  match p.existing.find? fun item =>
    assignmentIdempotencyKey item == hypothesisIdempotencyKey H hypothesis service.policy with
  | some existing => do
      refuse (existing.eventHypothesisSemanticSha256 != hypothesis.semanticSha256 H)
        (.conflict "idempotent hypothesis key has different immutable content")
      .ok { p with
        results := p.results ++ [existing]
        replayedKeys := p.replayedKeys ++ [existing.assignmentLogicalKey] }
  | none => do
      let resolution ← p.resolution snapshot hypothesis
      match resolution.disposition, resolution.selectedEventId with
      | .reused, some eventId =>
        .ok (p.assign H (buildAssignment H hypothesis resolution eventId service.policy
          nextGeneration decidedAt) resolution)
      | _, _ => do
          let eventId ← p.allocate allocator
          .ok ((p.create (newIdentity H service hypothesis resolution eventId
            nextGeneration)).assign H (buildAssignment H hypothesis resolution eventId
              service.policy nextGeneration decidedAt) resolution)

def prepareMutation (service : EventIdentityRegistryService) (snapshot : EventRegistrySnapshot)
    (decidedAt : String) (allocator : Nat → Allocation)
    (hypotheses : List PlatformEnrichedEventHypothesis) :
    Except EventIdentityRegistryError Preparation :=
  hypotheses.foldlM (prepareHypothesis H service snapshot decidedAt allocator)
    (Preparation.start snapshot)

end Robata.EventPipeline
