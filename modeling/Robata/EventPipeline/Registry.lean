import Robata.EventPipeline.Preparation
import Robata.Lib.Interleaving

/-!
# The in-memory event identity registry

`InMemoryEventIdentityRegistryRepository` keeps one compare-and-swap partition
for each recording; `assign_batch` reads a snapshot, prepares a mutation and
commits it, and begins again when the generation has moved on.  The two
repository calls are the atomic steps of `assign_batch`.
-/

namespace Robata.EventPipeline

open Contracts Lib

/-! ## Mutations -/

structure EventIdentityRegistryMutation where
  recordingIdentity : Sha256Digest
  (expectedGeneration fence nextGeneration : Nat)
  identities : List StableEventIdentity
  assignments : List EventIdentityAssignment
  relations : List EventIdentityRelation
  outbox : List EventIdentityOutboxRecord

def validateMutation (m : EventIdentityRegistryMutation) : Except String Unit := do
  reject (m.nextGeneration != m.expectedGeneration + 1)
    "mutation must advance exactly one registry generation"
  reject m.assignments.isEmpty "a mutation must contain at least one new assignment"
  reject (m.outbox.length != m.assignments.length)
    "each assignment requires one transactional outbox row"
  reject ((m.identities.any (·.recordingIdentity != m.recordingIdentity)) ||
      (m.assignments.any (·.recordingIdentity != m.recordingIdentity)) ||
      (m.relations.any (·.recordingIdentity != m.recordingIdentity)) ||
      (m.outbox.any (·.recordingIdentity != m.recordingIdentity)))
    "mutation contains a cross-recording row"
  reject (m.identities.any (·.createdGeneration != m.nextGeneration))
    "new identities must use the committed generation"
  reject ((m.assignments.any (·.registryGeneration != m.nextGeneration)) ||
      (m.relations.any (·.registryGeneration != m.nextGeneration)) ||
      (m.outbox.any (·.registryGeneration != m.nextGeneration)))
    "mutation rows must use the committed generation"

structure PreparedEventIdentityBatch where
  recordingIdentity : Sha256Digest
  (expectedGeneration expectedFence : Nat)
  orderedHypothesisLogicalKeys : List NodeLogicalKey
  assignments : List EventIdentityAssignment
  replayedAssignmentLogicalKeys : List NodeLogicalKey
  mutation : Option EventIdentityRegistryMutation

def validatePreparation (prepared : PreparedEventIdentityBatch) : Except String Unit := do
  let assignmentKeys := prepared.assignments.map (·.assignmentLogicalKey)
  let hypothesisKeys := prepared.assignments.map (·.eventHypothesisLogicalKey)
  let replayed := prepared.replayedAssignmentLogicalKeys
  reject prepared.assignments.isEmpty "identity preparation requires assignments"
  reject (prepared.assignments.any fun item =>
      item.recordingIdentity != prepared.recordingIdentity)
    "identity preparation assignments cross recording scope"
  reject (decide ¬ assignmentKeys.Nodup) "identity preparation assignments must be unique"
  reject (hypothesisKeys != prepared.orderedHypothesisLogicalKeys)
    "identity preparation does not preserve canonical hypothesis order"
  reject (decide ¬ hypothesisKeys.Nodup) "identity preparation hypotheses must be unique"
  reject (decide ¬ (replayed.Nodup ∧ replayed ⊆ assignmentKeys))
    "identity preparation replay keys are inconsistent"
  match prepared.mutation with
  | none =>
    reject (replayed != assignmentKeys) "replay-only preparation must replay every assignment"
  | some mutation => do
      reject (mutation.recordingIdentity != prepared.recordingIdentity ||
          mutation.expectedGeneration != prepared.expectedGeneration ||
          mutation.fence != prepared.expectedFence)
        "identity preparation mutation does not bind its snapshot"
      let newKeys := mutation.assignments.map (·.assignmentLogicalKey)
      reject (replayed != assignmentKeys.filter fun key => !newKeys.contains key)
        "identity preparation replay order is not canonical"
      reject (mutation.assignments != prepared.assignments.filter fun item =>
          !replayed.contains item.assignmentLogicalKey)
        "identity preparation mutation does not match new assignments"

/-- The mutation of a preparation that has new assignments. -/
def Preparation.mutation (p : Preparation) (snapshot : EventRegistrySnapshot) :
    Option EventIdentityRegistryMutation :=
  if p.newAssignments.isEmpty then none
  else
    some {
      recordingIdentity := snapshot.recordingIdentity
      expectedGeneration := snapshot.generation
      fence := snapshot.fence
      nextGeneration := snapshot.generation + 1
      identities := p.newIdentities
      assignments := p.newAssignments
      relations := p.relations
      outbox := p.outbox }

variable (H : Hashing)

def prepareValidatedBatch (service : EventIdentityRegistryService)
    (snapshot : EventRegistrySnapshot) (decidedAt : String) (allocator : Nat → Allocation)
    (hypotheses : List PlatformEnrichedEventHypothesis) :
    Except EventIdentityRegistryError PreparedEventIdentityBatch := do
  let p ← prepareMutation H service snapshot decidedAt allocator hypotheses
  let mutation := p.mutation snapshot
  raiseAs (mutation.toList.forM validateMutation) .value
  let prepared : PreparedEventIdentityBatch := {
    recordingIdentity := snapshot.recordingIdentity
    expectedGeneration := snapshot.generation
    expectedFence := snapshot.fence
    orderedHypothesisLogicalKeys := hypotheses.map (·.logicalKey H)
    assignments := p.results
    replayedAssignmentLogicalKeys := p.replayedKeys
    mutation := mutation }
  raiseAs (validatePreparation prepared) .value
  .ok prepared

/-! ## The repository -/

structure RecordingRegistryState where
  (generation fence : Nat)
  identities : KeyedTable StableEventIdentity OpaqueUuid (·.eventId)
  assignments : KeyedTable EventIdentityAssignment IdempotencyKey assignmentIdempotencyKey
  relations : KeyedTable EventIdentityRelation NodeLogicalKey (·.relationLogicalKey)
  outbox : KeyedTable EventIdentityOutboxRecord OpaqueUuid (·.outboxId)

/-- The state of a recording nobody has asked for yet. -/
def RecordingRegistryState.fresh : RecordingRegistryState :=
  ⟨0, 1, .empty, .empty, .empty, .empty⟩

/-- `InMemoryEventIdentityRegistryRepository`.  A recording without an entry in
`_states` has the fresh state. -/
structure Repository where
  states : Sha256Digest → RecordingRegistryState
  eventOwners : OpaqueUuid → Option Sha256Digest

def Repository.empty : Repository := ⟨fun _ => .fresh, fun _ => none⟩

def snapshotLocked (recordingIdentity : Sha256Digest) (state : RecordingRegistryState) :
    EventRegistrySnapshot where
  recordingIdentity := recordingIdentity
  generation := state.generation
  fence := state.fence
  identities := sortedIdentities state.identities.rows
  assignments := sortedAssignments state.assignments.rows

/-- The ids an assignment or a relation of a mutation may name. -/
def knownEventIds (state : RecordingRegistryState) (m : EventIdentityRegistryMutation) :
    List OpaqueUuid :=
  state.identities.rows.map (·.eventId) ++ m.identities.map (·.eventId)

/-- The loop over the assignments of a mutation. -/
def validateNewAssignments (state : RecordingRegistryState) (known : List OpaqueUuid) :
    List IdempotencyKey → List EventIdentityAssignment → Except EventIdentityRegistryError Unit
  | _, [] => .ok ()
  | seen, assignment :: rest => do
      let key := assignmentIdempotencyKey assignment
      refuse ((state.assignments.find? key).isSome || seen.contains key)
        (.conflict "hypothesis already has an assignment for this exact policy")
      refuse (!known.contains assignment.eventId)
        (.conflict "assignment references an unknown recording-scoped event ID")
      validateNewAssignments state known (key :: seen) rest

def validateCommitLocked (repository : Repository) (m : EventIdentityRegistryMutation) :
    Except EventIdentityRegistryError Unit := do
  let state := repository.states m.recordingIdentity
  let newIdentityIds : List OpaqueUuid := m.identities.map (·.eventId)
  refuse (decide ¬ newIdentityIds.Nodup) (.conflict "mutation repeats a new event ID")
  refuse (newIdentityIds.any fun eventId => (state.identities.find? eventId).isSome)
    (.conflict "mutation reallocates an existing event ID")
  refuse (newIdentityIds.any fun eventId =>
      (repository.eventOwners eventId).any fun owner => owner != m.recordingIdentity)
    (.crossRecording "event ID is already owned by another recording")
  let known := knownEventIds state m
  validateNewAssignments state known [] m.assignments
  let assignmentKeys : List NodeLogicalKey := m.assignments.map (·.assignmentLogicalKey)
  let relationKeys : List NodeLogicalKey := m.relations.map (·.relationLogicalKey)
  refuse (decide (¬ relationKeys.Nodup) ||
      relationKeys.any fun key => (state.relations.find? key).isSome)
    (.conflict "relation logical key conflicts")
  m.relations.forM fun relation => do
    refuse (!assignmentKeys.contains relation.assignmentLogicalKey)
      (.conflict "relation does not belong to this mutation's assignment")
    refuse (!known.contains relation.fromEventId || !known.contains relation.toEventId ||
        relation.fromEventId == relation.toEventId)
      (.conflict "relation endpoints must be distinct identities in this recording")
  let outboxIds : List OpaqueUuid := m.outbox.map (·.outboxId)
  refuse (decide (¬ outboxIds.Nodup) ||
      outboxIds.any fun outboxId => (state.outbox.find? outboxId).isSome)
    (.conflict "outbox ID conflicts")
  let coveredKeys : List NodeLogicalKey := m.outbox.map (·.assignmentLogicalKey)
  refuse (decide ¬ (coveredKeys ⊆ assignmentKeys ∧ assignmentKeys ⊆ coveredKeys))
    (.conflict "transactional outbox does not exactly cover assignments")

/-- The writes of `commit` to the partition. -/
def RecordingRegistryState.apply (state : RecordingRegistryState)
    (m : EventIdentityRegistryMutation) : RecordingRegistryState where
  generation := m.nextGeneration
  fence := state.fence + 1
  identities := m.identities.foldl KeyedTable.upsert state.identities
  assignments := m.assignments.foldl KeyedTable.upsert state.assignments
  relations := m.relations.foldl KeyedTable.upsert state.relations
  outbox := m.outbox.foldl KeyedTable.upsert state.outbox

/-- The writes of `commit`. -/
def Repository.apply (repository : Repository) (m : EventIdentityRegistryMutation) :
    Repository where
  states := Function.update repository.states m.recordingIdentity
    ((repository.states m.recordingIdentity).apply m)
  eventOwners := fun eventId =>
    if m.identities.any fun item => item.eventId == eventId then some m.recordingIdentity
    else repository.eventOwners eventId

/-- The checks of `commit`, all of them made before the first write. -/
def validateCommit (m : EventIdentityRegistryMutation) (repository : Repository) :
    Except EventIdentityRegistryError Unit := do
  let state := repository.states m.recordingIdentity
  raiseAs (validateMutation m) fun _ => .input "registry mutation failed validation"
  refuse (state.generation != m.expectedGeneration || state.fence != m.fence)
    (.staleFence m.recordingIdentity)
  validateCommitLocked repository m

/-! ## The service -/

/-- The atomic steps of the repository. -/
inductive RegistryCommand
  | snapshot (recordingIdentity : Sha256Digest)
  | commit (mutation : EventIdentityRegistryMutation)

/-- Both return a snapshot. -/
abbrev RegistryAnswer (_ : RegistryCommand) := EventRegistrySnapshot

/-- `snapshot` and `commit`. -/
def RegistryCommand.run : (c : RegistryCommand) →
    Method Repository EventIdentityRegistryError (RegistryAnswer c)
  | .snapshot recordingIdentity => fun repository =>
    (.ok (snapshotLocked recordingIdentity (repository.states recordingIdentity)), repository)
  | .commit mutation => fun repository =>
    match validateCommit mutation repository with
    | .error e => (.error e, repository)
    | .ok () =>
      (.ok (snapshotLocked mutation.recordingIdentity
        ((repository.apply mutation).states mutation.recordingIdentity)),
        repository.apply mutation)

structure EventIdentityBatchResult where
  recordingIdentity : Sha256Digest
  (initialGeneration finalGeneration fence : Nat)
  assignments : List EventIdentityAssignment
  newIdentities : List StableEventIdentity
  relations : List EventIdentityRelation
  outbox : List EventIdentityOutboxRecord
  replayedAssignmentLogicalKeys : List NodeLogicalKey

/-- `_batch_result_from_preparation`.  Of the validator of the result only the
order of the generations is not already checked by the preparation. -/
def batchResultFromPreparation (prepared : PreparedEventIdentityBatch)
    (initialGeneration finalGeneration fence : Nat) :
    Except EventIdentityRegistryError EventIdentityBatchResult := do
  refuse (decide (finalGeneration < initialGeneration))
    (.value "final generation cannot precede initial generation")
  .ok {
    recordingIdentity := prepared.recordingIdentity
    initialGeneration := initialGeneration
    finalGeneration := finalGeneration
    fence := fence
    assignments := prepared.assignments
    newIdentities := (prepared.mutation.map (·.identities)).getD []
    relations := (prepared.mutation.map (·.relations)).getD []
    outbox := (prepared.mutation.map (·.outbox)).getD []
    replayedAssignmentLogicalKeys := prepared.replayedAssignmentLogicalKeys }

/-- The arguments of one `assign_batch` call, its service, and the answers its
allocator gives in each attempt. -/
structure AssignBatch where
  service : EventIdentityRegistryService
  admittedContext : AdmittedRecordingContextV2
  hypotheses : List PlatformEnrichedEventHypothesis
  enrichedOutputs : List OrchestratorEnrichedOutput
  decidedAt : String
  allocator : Nat → Nat → Allocation

abbrev RegistryProg :=
  Prog RegistryCommand RegistryAnswer EventIdentityRegistryError

/-- The loop of `assign_batch`, with `attempts` rounds left. -/
def assignAttempts (call : AssignBatch) (ordered : List PlatformEnrichedEventHypothesis) :
    (attempts round : Nat) → (initialGeneration : Option Nat) →
      RegistryProg EventIdentityBatchResult
  | 0, _, _ => .done (.error (.staleFence call.admittedContext.recordingIdentity))
  | attempts + 1, round, initialGeneration => do
      let current ← Prog.perform (RegistryCommand.snapshot call.admittedContext.recordingIdentity)
      let snapshot ← Prog.ofExcept
        (validateRegistrySnapshot current call.admittedContext.recordingIdentity)
      let initial := initialGeneration.getD snapshot.generation
      let prepared ← Prog.ofExcept (prepareValidatedBatch H call.service snapshot call.decidedAt
        (call.allocator round) ordered)
      match prepared.mutation with
      | none =>
        Prog.ofExcept (batchResultFromPreparation prepared initial snapshot.generation
          snapshot.fence)
      | some mutation =>
        .call (.commit mutation) fun
          | .ok committed =>
            .done (batchResultFromPreparation prepared initial committed.generation committed.fence)
          | .error (.staleFence _) => assignAttempts call ordered attempts (round + 1) initial
          | .error e => .done (.error e)

def assignBatch (call : AssignBatch) : RegistryProg EventIdentityBatchResult := do
  let ordered ← Prog.ofExcept (validateAuthorityInputs H call.service call.admittedContext
    call.hypotheses call.enrichedOutputs)
  assignAttempts H call ordered (call.service.maxCasRetries + 1) 0 none

def registry : System Repository AssignBatch RegistryCommand RegistryAnswer
    EventIdentityRegistryError EventIdentityBatchResult where
  run := RegistryCommand.run
  method := assignBatch H

end Robata.EventPipeline
