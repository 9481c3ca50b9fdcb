import Robata.Contracts.Common
import Robata.Lib.KeyedTable
import Robata.Queue.Models

/-!
# Durable storage for call barriers

The tables of `SQLiteBarrierStorage` and its operations, each of which is one
transaction: it returns, and with it the rows it has written, or it raises and
writes nothing.  The generic barrier owns the terminal members and their derived
state; definitions, part completions and the reduction bind it to the parts of
one input plan.

A row is kept as the typed value its payload decodes to, or as one that does not
decode; the columns beside the payload repeat fields of it.
-/

namespace Robata.Inference

open Contracts Lib

/-- The exceptions of the barrier modules, with their texts. -/
inductive BarrierError
  | value (message : String)
  | key (message : String)
  | storage (message : String)
  | barrier (message : String)
  | conflict (message : String)
  | stillOpen (message : String)
  | failed (message : String)
  | configuration (message : String)

/-- Raise when a check finds its condition. -/
def refuse (found : Bool) (e : BarrierError) : Except BarrierError Unit :=
  if found then .error e else .ok ()

@[simp] theorem refuse_eq_ok {found : Bool} {e : BarrierError} {u : Unit} :
    refuse found e = .ok u ↔ found = false := by
  cases found <;> simp [refuse]

inductive StageStatus
  | pending
  | running
  | succeeded
  | failed
  | skippedPolicy
  | skippedNotNeeded
  | cancelled
  | expired
  | quarantined
  | incomplete
  deriving DecidableEq

/-- `_SUCCESS_OUTCOMES`. -/
def StageStatus.isSuccess : StageStatus → Bool
  | succeeded | skippedPolicy | skippedNotNeeded => true
  | _ => false

/-- `_FAILURE_OUTCOMES`. -/
def StageStatus.isFailure : StageStatus → Bool
  | failed | cancelled | expired | quarantined | incomplete => true
  | _ => false

inductive InferenceStatus
  | succeeded
  | failed
  | timeout
  | cancelled
  | invalidOutput
  deriving DecidableEq

def stageStatus : InferenceStatus → StageStatus
  | .succeeded => .succeeded
  | .cancelled => .cancelled
  | .invalidOutput => .quarantined
  | .failed | .timeout => .failed

/-! ## The generic barrier -/

inductive BarrierStatus
  | opened
  | closed
  | failed
  deriving DecidableEq

structure Barrier where
  barrierId : OpaqueUuid
  logicalKey : String
  expectedMemberCount : Nat
  emptySemantics : StageStatus
  reductionPolicy : String
  status : BarrierStatus
  (requiredSuccessCount maxDegradedFailures : Nat)
  deriving DecidableEq

structure BarrierMember where
  workItemId : String
  criticality : Queue.DependencyCriticality
  outcome : StageStatus
  deriving DecidableEq

structure BarrierState where
  barrierId : OpaqueUuid
  (completedMembers pendingMembers failedMembers : Nat)
  status : BarrierStatus
  deriving DecidableEq

/-- A row of `barrier_states`. -/
structure StateRow where
  state : BarrierState
  stateVersion : Nat

structure MemberRow where
  barrierId : OpaqueUuid
  member : BarrierMember

/-! ## Call barriers -/

/-- Immutable declaration of the exact call-plan member set, without its time. -/
structure DefinitionProjection where
  barrierId : OpaqueUuid
  barrierSemanticSha256 : Sha256Digest
  barrierLogicalKey : String
  (inputPlanSemanticSha256 callPlanSha256 : Sha256Digest)
  partCount : Nat
  expectedPartSemanticSha256s : List Sha256Digest
  (expectedPartLogicalKeys expectedPartIdempotencyKeys : List String)
  reductionPolicy : String
  reductionPolicyVersion : SchemaVersion
  deriving DecidableEq

structure InferenceCallBarrierDefinition extends DefinitionProjection where
  createdAt : String
  deriving DecidableEq

inductive Retryability
  | retryable
  | rateLimited
  | permanent
  deriving DecidableEq

structure InferenceFailure where
  (code detail : String)
  retryability : Retryability
  deriving DecidableEq

/-- What the digest of a completion covers. -/
structure CompletionProjection where
  (barrierSemanticSha256 inputPlanSemanticSha256 callPlanSha256 partSemanticSha256 : Sha256Digest)
  partIdempotencyKey : String
  (inferenceId logicalInvocationId : OpaqueUuid)
  selectionId : Option OpaqueUuid
  selectionPolicyVersion : Option SchemaVersion
  selectionDecisionLogicalKey : Option NodeLogicalKey
  attempt : Nat
  status : InferenceStatus
  normalizedOutputSha256 : Option Sha256Digest
  rawOutputArtifactId : Option String
  failure : Option InferenceFailure
  deriving DecidableEq

/-- What the canonical text of a mapping decodes to: an equal mapping; another one, as a tuple
comes back as a list; or nothing, as an integral float past the exact integers comes back as
an integer that canonical JSON refuses. -/
inductive ReadBack
  | equal
  | other
  | refused
  deriving DecidableEq

/-- A mapping of canonical JSON, as its text and what becomes of it there. -/
structure JsonObject where
  text : String
  readBack : ReadBack
  deriving DecidableEq

/-- What the text decodes to. -/
def JsonObject.stored (value : JsonObject) : JsonObject :=
  { value with readBack := if value.readBack = .refused then .refused else .equal }

structure InferenceCallPartCompletion extends CompletionProjection where
  completionId : OpaqueUuid
  completionSemanticSha256 : Sha256Digest
  barrierId : OpaqueUuid
  (partOrdinal partCount : Nat)
  partLogicalKey : String
  normalizedOutput : Option JsonObject
  completedAt : String
  deriving DecidableEq

/-- The row of a completion. -/
def InferenceCallPartCompletion.stored (completion : InferenceCallPartCompletion) :
    InferenceCallPartCompletion :=
  { completion with normalizedOutput := completion.normalizedOutput.map (·.stored) }

/-- What the digest of a reduction covers. -/
structure ReductionProjection where
  (barrierSemanticSha256 inputPlanSemanticSha256 callPlanSha256 : Sha256Digest)
  reductionPolicy : String
  reductionPolicyVersion : SchemaVersion
  outputSchemaSha256 : Sha256Digest
  (orderedPartSemanticSha256s orderedNormalizedOutputSha256s : List Sha256Digest)
  orderedSelectionDecisionLogicalKeys : List NodeLogicalKey
  normalizedOutputSha256 : Sha256Digest
  deriving DecidableEq

structure InferenceCallReduction extends ReductionProjection where
  reductionId : OpaqueUuid
  reductionSemanticSha256 : Sha256Digest
  barrierId : OpaqueUuid
  orderedCompletionIds : List OpaqueUuid
  normalizedOutput : JsonObject
  reducedAt : String
  deriving DecidableEq

/-- The row of a reduction. -/
def InferenceCallReduction.stored (reduction : InferenceCallReduction) : InferenceCallReduction :=
  { reduction with normalizedOutput := reduction.normalizedOutput.stored }

/-! ## The database -/

structure BarrierDb where
  barriers : KeyedTable Barrier OpaqueUuid (·.barrierId)
  states : KeyedTable StateRow OpaqueUuid (·.state.barrierId)
  members : KeyedTable MemberRow (OpaqueUuid × String) fun row =>
    (row.barrierId, row.member.workItemId)
  definitions : KeyedTable InferenceCallBarrierDefinition OpaqueUuid (·.barrierId)
  completions : KeyedTable InferenceCallPartCompletion (OpaqueUuid × Nat) fun row =>
    (row.barrierId, row.partOrdinal)
  reductions : KeyedTable InferenceCallReduction OpaqueUuid (·.barrierId)

def BarrierDb.empty : BarrierDb := ⟨.empty, .empty, .empty, .empty, .empty, .empty⟩

/-- An `INSERT` that a constraint may refuse. -/
def inserted {α : Type} (rows : Option α) : Except BarrierError α :=
  match rows with
  | some table => .ok table
  | none => .error (.storage "SQLite rejected barrier persistence")

theorem inserted_eq_ok {α : Type} {rows : Option α} {table : α} :
    inserted rows = .ok table ↔ rows = some table := by
  cases rows <;> simp [inserted]

def validateBarrierDefinition (barrier : Barrier) : Except BarrierError Unit := do
  refuse (!barrier.emptySemantics.isSuccess && !barrier.emptySemantics.isFailure)
    (.value "empty_semantics must identify a terminal StageStatus")
  refuse (decide (barrier.expectedMemberCount < barrier.requiredSuccessCount))
    (.value "required success count cannot exceed expected members")
  refuse (decide (barrier.expectedMemberCount < barrier.maxDegradedFailures))
    (.value "degradable failures cannot exceed expected members")
  let expectedStatus : BarrierStatus :=
    if barrier.expectedMemberCount = 0 ∧ barrier.emptySemantics.isFailure then .failed
    else if barrier.expectedMemberCount = 0 then .closed
    else .opened
  refuse (barrier.status != expectedStatus)
    (.value "barrier initial status is inconsistent with its member count")

/-- A cohort that satisfies the policy of its barrier. -/
def acceptable (barrier : Barrier) (members : List BarrierMember) : Bool :=
  let successful := members.countP (·.outcome.isSuccess)
  let requiredFailed := members.any fun member =>
    member.criticality == .required && !member.outcome.isSuccess
  let degraded := members.countP fun member =>
    member.criticality == .degradable && member.outcome.isFailure
  !requiredFailed && decide (barrier.requiredSuccessCount ≤ successful) &&
    decide (degraded ≤ barrier.maxDegradedFailures)

def deriveState (barrier : Barrier) (members : List BarrierMember) :
    Except BarrierError BarrierState := do
  let completed := members.length
  let failed := members.countP (·.outcome.isFailure)
  refuse (decide (barrier.expectedMemberCount < completed))
    (.storage ("persisted barrier has too many terminal members: " ++ barrier.barrierId))
  let status : BarrierStatus :=
    if barrier.expectedMemberCount = 0 then barrier.status
    else if completed < barrier.expectedMemberCount then .opened
    else if acceptable barrier members then .closed
    else .failed
  .ok {
    barrierId := barrier.barrierId
    completedMembers := completed
    pendingMembers := barrier.expectedMemberCount - completed
    failedMembers := failed
    status := status }

def validateCallDefinitionBinding (barrier : Barrier)
    (definition : InferenceCallBarrierDefinition) : Except BarrierError Unit :=
  refuse (barrier.barrierId != definition.barrierId ||
      barrier.logicalKey != definition.barrierLogicalKey ||
      barrier.expectedMemberCount != definition.partCount ||
      barrier.requiredSuccessCount != definition.partCount ||
      barrier.maxDegradedFailures != 0 ||
      barrier.reductionPolicy != definition.reductionPolicyVersion)
    (.conflict "call barrier definition does not match its generic barrier")

def validateCompletionBinding (definition : InferenceCallBarrierDefinition)
    (completion : InferenceCallPartCompletion) : Except BarrierError Unit :=
  let ordinal := completion.partOrdinal
  refuse (decide (definition.partCount ≤ ordinal) ||
      completion.barrierId != definition.barrierId ||
      completion.partCount != definition.partCount ||
      completion.barrierSemanticSha256 != definition.barrierSemanticSha256 ||
      completion.inputPlanSemanticSha256 != definition.inputPlanSemanticSha256 ||
      completion.callPlanSha256 != definition.callPlanSha256 ||
      definition.expectedPartSemanticSha256s[ordinal]? != some completion.partSemanticSha256 ||
      definition.expectedPartLogicalKeys[ordinal]? != some completion.partLogicalKey ||
      definition.expectedPartIdempotencyKeys[ordinal]? != some completion.partIdempotencyKey)
    (.conflict "completion does not match the declared call barrier member")

/-! ## Reading -/

/-- A payload decodes, as far as its output is concerned. -/
def InferenceCallPartCompletion.Readable (completion : InferenceCallPartCompletion) : Bool :=
  completion.normalizedOutput.all (·.readBack != .refused)

/-- `_completion_from_row`. -/
def completionFromRow (row : InferenceCallPartCompletion) :
    Except BarrierError InferenceCallPartCompletion := do
  refuse (!row.Readable)
    (.storage "persisted inference call part completion failed strict validation")
  .ok row

/-- `_reduction_from_row`. -/
def reductionFromRow (row : InferenceCallReduction) :
    Except BarrierError InferenceCallReduction := do
  refuse (row.normalizedOutput.readBack == .refused)
    (.storage "persisted inference call reduction failed strict validation")
  .ok row

section Storage

variable (db : BarrierDb)

/-- The members of a barrier, ordered by work item. -/
def BarrierDb.membersOf (barrierId : OpaqueUuid) : List BarrierMember :=
  ((db.members.rows.filter (·.barrierId == barrierId)).map fun row =>
    row.member).insertionSort fun a b => a.workItemId ≤ b.workItemId

def BarrierDb.loadGenericBarrier (barrierId : OpaqueUuid) :
    Except BarrierError (Barrier × StateRow × List BarrierMember) :=
  match db.barriers.find? barrierId, db.states.find? barrierId with
  | none, _ => .error (.key ("unknown barrier: " ++ barrierId))
  | some _, none =>
    .error (.storage ("persisted barrier has no durable state: " ++ barrierId))
  | some barrier, some row => do
      let members := db.membersOf barrierId
      refuse (decide (barrier.expectedMemberCount < members.length))
        (.storage ("persisted barrier member capacity is exceeded: " ++ barrierId))
      let derived ← deriveState barrier members
      refuse (row.state != derived)
        (.storage ("persisted barrier state disagrees with its terminal members: " ++ barrierId))
      .ok (barrier, row, members)

def BarrierDb.getBarrier (barrierId : OpaqueUuid) : Except BarrierError (Option Barrier) :=
  .ok (db.barriers.find? barrierId)

def BarrierDb.getState (barrierId : OpaqueUuid) : Except BarrierError (Option BarrierState) :=
  match db.barriers.find? barrierId with
  | none => .ok none
  | some _ => do
      let loaded ← db.loadGenericBarrier barrierId
      .ok (some loaded.2.1.state)

def BarrierDb.getMembers (barrierId : OpaqueUuid) : Except BarrierError (List BarrierMember) := do
  let loaded ← db.loadGenericBarrier barrierId
  .ok loaded.2.2

def BarrierDb.requireCallDefinition (barrierId : OpaqueUuid) :
    Except BarrierError InferenceCallBarrierDefinition :=
  match db.definitions.find? barrierId, db.barriers.find? barrierId with
  | none, _ => .error (.key ("unknown inference call barrier: " ++ barrierId))
  | some _, none =>
    .error (.storage "persisted inference call barrier has no generic definition")
  | some definition, some barrier => do
      validateCallDefinitionBinding barrier definition
      .ok definition

def BarrierDb.getDefinition (barrierId : OpaqueUuid) :
    Except BarrierError (Option InferenceCallBarrierDefinition) :=
  match db.definitions.find? barrierId with
  | none => .ok none
  | some _ => do
      let definition ← db.requireCallDefinition barrierId
      .ok (some definition)

/-- The completions of a barrier, ordered by part. -/
def BarrierDb.completionsOf (barrierId : OpaqueUuid) : List InferenceCallPartCompletion :=
  (db.completions.rows.filter (·.barrierId == barrierId)).insertionSort fun a b =>
    a.partOrdinal ≤ b.partOrdinal

def BarrierDb.callCompletions (definition : InferenceCallBarrierDefinition) :
    Except BarrierError (List InferenceCallPartCompletion) := do
  let completions ← (db.completionsOf definition.barrierId).mapM completionFromRow
  completions.forM (validateCompletionBinding definition)
  .ok completions

def BarrierDb.listCompletions (barrierId : OpaqueUuid) :
    Except BarrierError (List InferenceCallPartCompletion) := do
  let definition ← db.requireCallDefinition barrierId
  db.callCompletions definition

def BarrierDb.validateReduction (definition : InferenceCallBarrierDefinition)
    (completions : List InferenceCallPartCompletion) (reduction : InferenceCallReduction) :
    Except BarrierError Unit := do
  refuse (decide (completions.length ≠ definition.partCount) ||
      completions.map (·.partOrdinal) != List.range definition.partCount)
    (.conflict "reduction requires exact contiguous call-part completion coverage")
  refuse (completions.any (·.status != .succeeded))
    (.conflict "reduction cannot include a failed call-part completion")
  let loaded ← db.loadGenericBarrier definition.barrierId
  refuse (loaded.2.1.state.status != .closed || decide (loaded.2.2.length ≠ definition.partCount))
    (.conflict "reduction requires a successfully closed generic barrier")
  refuse ((completions.any (·.normalizedOutputSha256.isNone)) ||
      completions.any (·.selectionDecisionLogicalKey.isNone))
    (.conflict "successful call completions lack required output or selection identities")
  refuse (decide ¬ (reduction.barrierId = definition.barrierId ∧
      reduction.barrierSemanticSha256 = definition.barrierSemanticSha256 ∧
      reduction.inputPlanSemanticSha256 = definition.inputPlanSemanticSha256 ∧
      reduction.callPlanSha256 = definition.callPlanSha256 ∧
      reduction.reductionPolicy = definition.reductionPolicy ∧
      reduction.reductionPolicyVersion = definition.reductionPolicyVersion ∧
      reduction.orderedCompletionIds = completions.map (·.completionId) ∧
      reduction.orderedPartSemanticSha256s = completions.map (·.partSemanticSha256) ∧
      reduction.orderedNormalizedOutputSha256s.map some =
        completions.map (·.normalizedOutputSha256) ∧
      reduction.orderedSelectionDecisionLogicalKeys.map some =
        completions.map (·.selectionDecisionLogicalKey)))
    (.conflict "reduction does not match the completed declared member set")

def BarrierDb.getReduction (barrierId : OpaqueUuid) :
    Except BarrierError (Option InferenceCallReduction) :=
  match db.reductions.find? barrierId with
  | none => .ok none
  | some row => do
      let definition ← db.requireCallDefinition barrierId
      let completions ← db.callCompletions definition
      let reduction ← reductionFromRow row
      db.validateReduction definition completions reduction
      .ok (some reduction)

/-! ## Writing -/

def BarrierDb.saveBarrier (barrier : Barrier) : Except BarrierError BarrierDb := do
  validateBarrierDefinition barrier
  match db.barriers.find? barrier.barrierId with
  | some existing => do
      refuse (existing != barrier)
        (.value ("barrier already exists with different definition: " ++ barrier.barrierId))
      let _ ← db.loadGenericBarrier barrier.barrierId
      .ok db
  | none => do
      refuse (db.barriers.rows.any (·.logicalKey == barrier.logicalKey))
        (.storage "SQLite rejected barrier persistence")
      let barriers ← inserted (db.barriers.insert? barrier)
      let state ← deriveState barrier []
      let states ← inserted (db.states.insert? ⟨state, 0⟩)
      .ok { db with barriers := barriers, states := states }

/-- `save_state`: a state is derived, so it can only be confirmed. -/
def BarrierDb.saveState (state : BarrierState) : Except BarrierError BarrierDb := do
  let loaded ← db.loadGenericBarrier state.barrierId
  refuse (loaded.2.1.state != state)
    (.value "barrier state is derived from its immutable definition and terminal members")
  .ok db

def BarrierDb.validateCallMember (barrierId : OpaqueUuid) (member : BarrierMember) :
    Except BarrierError Unit :=
  match db.definitions.find? barrierId with
  | none => .ok ()
  | some definition => do
      refuse (!definition.expectedPartLogicalKeys.contains member.workItemId)
        (.value "inference call barrier member is not declared by its immutable definition")
      match db.completions.rows.find? fun row =>
        row.barrierId == barrierId && row.partLogicalKey == member.workItemId with
      | none =>
        .error (.value "inference call barrier member requires its durable part completion")
      | some row => do
          let completion ← completionFromRow row
          validateCompletionBinding definition completion
          refuse (member.outcome != stageStatus completion.status)
            (.value "inference call barrier member outcome disagrees with its part completion")

/-- `add_member`.  The update of the state compares the version that was read in
the same transaction. -/
def BarrierDb.addMember (barrierId : OpaqueUuid) (member : BarrierMember) :
    Except BarrierError BarrierDb := do
  refuse (!member.outcome.isSuccess && !member.outcome.isFailure)
    (.value "barrier members must submit a terminal StageStatus")
  let loaded ← db.loadGenericBarrier barrierId
  let barrier := loaded.1
  let members := loaded.2.2
  match members.find? fun existing => existing.workItemId == member.workItemId with
  | some existing => do
      refuse (existing != member)
        (.value ("conflicting replay for barrier member: " ++ member.workItemId))
      .ok db
  | none => do
      refuse (decide (barrier.expectedMemberCount ≤ members.length))
        (.value ("barrier member capacity exceeded: " ++ barrierId))
      db.validateCallMember barrierId member
      let rows ← inserted (db.members.insert? ⟨barrierId, member⟩)
      let state ← deriveState barrier (members ++ [member])
      .ok { db with
        members := rows
        states := db.states.upsert ⟨state, loaded.2.1.stateVersion + 1⟩ }

def BarrierDb.appendDefinition (definition : InferenceCallBarrierDefinition) :
    Except BarrierError (InferenceCallBarrierDefinition × BarrierDb) :=
  match db.barriers.find? definition.barrierId with
  | none => .error (.key ("unknown inference call barrier: " ++ definition.barrierId))
  | some barrier => do
      validateCallDefinitionBinding barrier definition
      match db.definitions.find? definition.barrierId with
      | some stored => do
          refuse (stored != definition)
            (.conflict ("conflicting call barrier definition: " ++ definition.barrierId))
          .ok (stored, db)
      | none => do
          let definitions ← inserted (db.definitions.insert? definition)
          .ok (definition, { db with definitions := definitions })

def BarrierDb.appendCompletion (completion : InferenceCallPartCompletion) :
    Except BarrierError (InferenceCallPartCompletion × BarrierDb) := do
  let definition ← db.requireCallDefinition completion.barrierId
  validateCompletionBinding definition completion
  match db.completions.find? (completion.barrierId, completion.partOrdinal) with
  | some row => do
      let stored ← completionFromRow row
      refuse (stored != completion)
        (.conflict ("call part already has a different final completion: " ++
          toString completion.partOrdinal))
      .ok (stored, db)
  | none => do
      refuse (db.completions.rows.any fun row => row.barrierId == completion.barrierId &&
          row.partSemanticSha256 == completion.partSemanticSha256)
        (.conflict "call part semantic identity is already bound to another ordinal")
      refuse (db.completions.rows.any (·.completionId == completion.completionId))
        (.conflict "call completion identity is already bound to another member")
      let completions ← inserted (db.completions.insert? completion.stored)
      .ok (completion, { db with completions := completions })

def BarrierDb.appendReduction (reduction : InferenceCallReduction) :
    Except BarrierError (InferenceCallReduction × BarrierDb) := do
  let definition ← db.requireCallDefinition reduction.barrierId
  let completions ← db.callCompletions definition
  db.validateReduction definition completions reduction
  match db.reductions.find? reduction.barrierId with
  | some row => do
      let stored ← reductionFromRow row
      refuse (stored != reduction)
        (.conflict ("call barrier already has a different reduction: " ++ reduction.barrierId))
      .ok (stored, db)
  | none => do
      refuse (db.reductions.rows.any (·.reductionId == reduction.reductionId))
        (.conflict "call reduction identity is already bound to another barrier")
      let reductions ← inserted (db.reductions.insert? reduction.stored)
      .ok (reduction, { db with reductions := reductions })

end Storage

end Robata.Inference
