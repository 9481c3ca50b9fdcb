import Robata.Inference.BarrierStorage
import Robata.Lib.Interleaving

/-!
# The call barrier coordinator

`InferenceCallBarrierCoordinator` with the generic `BarrierCoordinator` below it.
Each method is a sequence of storage transactions; between two of them other
workers run, or the worker stops.

`semantic_sha256` and `uuid5` are parameters, gathered in `Hashing`; reducers are
given by their answers.  An input plan and an inference are reduced to the fields
the coordinator reads; a plan carries what its contract checks of its parts.
-/

namespace Robata.Inference

open Contracts Lib
open Prog (ofExcept perform)

inductive VisionTask
  | qaCoarse
  | qaDense
  | eventProposal
  | actionEvidence
  | boundaryRefinement
  | fusionAdjudication
  deriving DecidableEq

structure InferenceCallPart where
  (ordinal partCount : Nat)
  (itemManifestSha256 partSemanticSha256 : Sha256Digest)
  (partLogicalKey idempotencyKey : String)
  deriving DecidableEq

structure InferenceCallPlan where
  callPlanSha256 : Sha256Digest
  parts : List InferenceCallPart
  barrierSemanticSha256 : Sha256Digest
  (barrierLogicalKey reductionPolicy : String)
  reductionPolicyVersion : SchemaVersion
  -- the key is a namespace, a colon and the digest
  barrierKey : barrierLogicalKey.toList.all Char.isWhitespace = false
  nonempty : parts ≠ []
  ordinals : parts.map (·.ordinal) = List.range parts.length
  counts : ∀ part ∈ parts, part.partCount = parts.length
  semanticIdentities : (parts.map (·.partSemanticSha256)).Nodup
  logicalKeys : (parts.map (·.partLogicalKey)).Nodup
  idempotencyKeys : (parts.map (·.idempotencyKey)).Nodup
  deriving DecidableEq

/-- What the coordinator reads of an `InferenceInputPlan`. -/
structure InferenceInputPlan where
  semanticSha256 : Sha256Digest
  callPlan : InferenceCallPlan
  providerResponseSchemaSha256 : Sha256Digest
  packageIds : List String
  task : VisionTask
  deriving DecidableEq

/-- The `artifact_id` of a raw output. -/
inductive RawOutput
  | absent
  | invalid
  | artifact (artifactId : String)

/-- What the coordinator reads of a `ModelInference`. -/
structure ModelInference where
  (inferenceId logicalInvocationId : OpaqueUuid)
  inputPlanSemanticSha256 : Option Sha256Digest
  (inputPlanPartOrdinal inputPlanPartCount : Option Nat)
  inputPlanPartSemanticSha256 : Option Sha256Digest
  providerIdempotencyKey : Option String
  renderedInputDigest : Sha256Digest
  stage : VisionTask
  packageIds : List String
  attempt : Nat
  status : InferenceStatus
  outputValid : Bool
  normalizedOutput : Option JsonObject
  rawOutput : RawOutput
  failure : Option InferenceFailure
  completedAt : String

structure InferenceAttemptSelection where
  (selectionId inferenceId logicalInvocationId : OpaqueUuid)
  policyVersion : SchemaVersion
  selectionDecisionLogicalKey : NodeLogicalKey

/-- The projections this subsystem hashes. -/
inductive SemanticProjection
  | attemptSelection (logicalInvocationId : OpaqueUuid) (policyVersion : SchemaVersion)
  | normalizedOutput (text : String)
  | completion (projection : CompletionProjection)
  | reduction (projection : ReductionProjection)

/-- `semantic_sha256`, and `uuid5` in the URL namespace. -/
structure Hashing where
  semanticSha256 : SemanticProjection → Sha256Digest
  uuid5 : String → OpaqueUuid

/-- What a reducer returns: a mapping, or something the coordinator refuses. -/
inductive ReducerOutput
  | notMapping
  | emptyKey
  | notCanonical
  | mapping (output : JsonObject)

/-- The registered reducers, by policy and version. -/
abbrev Reducers := String × SchemaVersion →
  Option (InferenceInputPlan → List InferenceCallPartCompletion → ReducerOutput)

structure AggregateStatus where
  overallStatus : StageStatus
  (degradedCameras failedCameras : Nat)
  isComplete : Bool

def aggregate (barrier : Barrier) (members : List BarrierMember) (isComplete : Bool) :
    AggregateStatus :=
  let failed := members.countP (·.outcome.isFailure)
  let degraded := members.countP fun member =>
    member.outcome.isFailure && member.criticality == .degradable
  if barrier.expectedMemberCount = 0 then
    ⟨barrier.emptySemantics, 0, 0, true⟩
  else if isComplete then
    ⟨if acceptable barrier members then .succeeded else .incomplete, degraded, failed, true⟩
  else
    ⟨.pending, degraded, failed, false⟩

/-! ## Storage transactions -/

/-- The transactions of `SQLiteBarrierStorage`. -/
inductive BarrierCommand
  | saveBarrier (barrier : Barrier)
  | getBarrier (barrierId : OpaqueUuid)
  | getState (barrierId : OpaqueUuid)
  | saveState (state : BarrierState)
  | addMember (barrierId : OpaqueUuid) (member : BarrierMember)
  | getMembers (barrierId : OpaqueUuid)
  | appendDefinition (definition : InferenceCallBarrierDefinition)
  | getDefinition (barrierId : OpaqueUuid)
  | appendCompletion (completion : InferenceCallPartCompletion)
  | listCompletions (barrierId : OpaqueUuid)
  | appendReduction (reduction : InferenceCallReduction)
  | getReduction (barrierId : OpaqueUuid)

abbrev BarrierAnswer : BarrierCommand → Type
  | .saveBarrier _ => Unit
  | .getBarrier _ => Option Barrier
  | .getState _ => Option BarrierState
  | .saveState _ => Unit
  | .addMember _ _ => Unit
  | .getMembers _ => List BarrierMember
  | .appendDefinition _ => InferenceCallBarrierDefinition
  | .getDefinition _ => Option InferenceCallBarrierDefinition
  | .appendCompletion _ => InferenceCallPartCompletion
  | .listCompletions _ => List InferenceCallPartCompletion
  | .appendReduction _ => InferenceCallReduction
  | .getReduction _ => Option InferenceCallReduction

def BarrierCommand.run : (c : BarrierCommand) → Method BarrierDb BarrierError (BarrierAnswer c)
  | .saveBarrier barrier => .update fun db => db.saveBarrier barrier
  | .getBarrier barrierId => .query fun db => db.getBarrier barrierId
  | .getState barrierId => .query fun db => db.getState barrierId
  | .saveState state => .update fun db => db.saveState state
  | .addMember barrierId member => .update fun db => db.addMember barrierId member
  | .getMembers barrierId => .query fun db => db.getMembers barrierId
  | .appendDefinition definition => .transact fun db => db.appendDefinition definition
  | .getDefinition barrierId => .query fun db => db.getDefinition barrierId
  | .appendCompletion completion => .transact fun db => db.appendCompletion completion
  | .listCompletions barrierId => .query fun db => db.listCompletions barrierId
  | .appendReduction reduction => .transact fun db => db.appendReduction reduction
  | .getReduction barrierId => .query (·.getReduction barrierId)

abbrev BarrierProg := Prog BarrierCommand BarrierAnswer BarrierError

/-! ## The generic coordinator -/

variable (H : Hashing)

def barrierIdOf (logicalKey : String) : OpaqueUuid := H.uuid5 ("robata:barrier:" ++ logicalKey)

/-- The barrier `create_barrier` makes for a plan: every part is required. -/
def planBarrier (plan : InferenceInputPlan) : Barrier where
  barrierId := barrierIdOf H plan.callPlan.barrierLogicalKey
  logicalKey := plan.callPlan.barrierLogicalKey
  expectedMemberCount := plan.callPlan.parts.length
  emptySemantics := .skippedNotNeeded
  reductionPolicy := plan.callPlan.reductionPolicyVersion
  status := if plan.callPlan.parts.length = 0 then .closed else .opened
  requiredSuccessCount := plan.callPlan.parts.length
  maxDegradedFailures := 0

/-- `create_barrier`, for the barrier of a plan. -/
def createBarrier (barrier : Barrier) : BarrierProg Barrier := do
  ofExcept (refuse (barrier.logicalKey.toList.all Char.isWhitespace)
    (.value "logical_key must be a non-empty string"))
  perform (BarrierCommand.saveBarrier barrier)
  let state ← perform (BarrierCommand.getState barrier.barrierId)
  match state with
  | some _ => pure barrier
  | none => do
      perform (BarrierCommand.saveState
        ⟨barrier.barrierId, 0, barrier.expectedMemberCount, 0, barrier.status⟩)
      pure barrier

def submitMember (barrierId : OpaqueUuid) (member : BarrierMember) : BarrierProg BarrierState := do
  perform (BarrierCommand.addMember barrierId member)
  let state ← perform (BarrierCommand.getState barrierId)
  match state with
  | some state => pure state
  | none =>
    ofExcept (.error (.key ("storage did not return state for barrier: " ++ barrierId)))

/-- `BarrierCoordinator.get_aggregate_status`. -/
def getAggregateStatusOf (barrierId : OpaqueUuid) : BarrierProg AggregateStatus := do
  let barrier ← perform (BarrierCommand.getBarrier barrierId)
  let state ← perform (BarrierCommand.getState barrierId)
  match barrier, state with
  | some barrier, some state => do
      let members ← perform (BarrierCommand.getMembers barrierId)
      pure (aggregate barrier members (state.status == .closed || state.status == .failed))
  | _, _ => ofExcept (.error (.key ("unknown barrier: " ++ barrierId)))

/-! ## The call barrier coordinator -/

/-- The member set a plan declares. -/
def planDefinition (plan : InferenceInputPlan) : DefinitionProjection where
  barrierId := barrierIdOf H plan.callPlan.barrierLogicalKey
  barrierSemanticSha256 := plan.callPlan.barrierSemanticSha256
  barrierLogicalKey := plan.callPlan.barrierLogicalKey
  inputPlanSemanticSha256 := plan.semanticSha256
  callPlanSha256 := plan.callPlan.callPlanSha256
  partCount := plan.callPlan.parts.length
  expectedPartSemanticSha256s := plan.callPlan.parts.map (·.partSemanticSha256)
  expectedPartLogicalKeys := plan.callPlan.parts.map (·.partLogicalKey)
  expectedPartIdempotencyKeys := plan.callPlan.parts.map (·.idempotencyKey)
  reductionPolicy := plan.callPlan.reductionPolicy
  reductionPolicyVersion := plan.callPlan.reductionPolicyVersion

def declare (plan : InferenceInputPlan) (createdAt : String) :
    BarrierProg InferenceCallBarrierDefinition := do
  let barrier ← createBarrier (planBarrier H plan)
  let definition : InferenceCallBarrierDefinition := ⟨planDefinition H plan, createdAt⟩
  let existing ← perform (BarrierCommand.getDefinition barrier.barrierId)
  match existing with
  | some stored => do
      ofExcept (refuse (stored.toDefinitionProjection != definition.toDefinitionProjection)
        (.conflict "call barrier identity already has a different plan binding"))
      pure stored
  | none => perform (BarrierCommand.appendDefinition definition)

def requireDefinition (plan : InferenceInputPlan) : BarrierProg InferenceCallBarrierDefinition := do
  let definition ← perform
    (BarrierCommand.getDefinition (barrierIdOf H plan.callPlan.barrierLogicalKey))
  match definition with
  | none =>
    ofExcept (.error (.barrier "input plan call barrier must be declared before completion"))
  | some stored => do
      -- the barrier id is not compared: the row was found under it
      ofExcept (refuse
        ({ stored.toDefinitionProjection with barrierId := (planDefinition H plan).barrierId } !=
          planDefinition H plan)
        (.conflict "declared call barrier does not match the immutable input plan"))
      pure stored

def boundPart (plan : InferenceInputPlan) (inference : ModelInference) :
    Except BarrierError InferenceCallPart :=
  match inference.inputPlanPartOrdinal.bind fun ordinal => plan.callPlan.parts[ordinal]? with
  | none => .error (.barrier "terminal inference does not reference a declared call part")
  | some part => do
      refuse (inference.inputPlanSemanticSha256 != some plan.semanticSha256 ||
          inference.inputPlanPartCount != some part.partCount ||
          inference.inputPlanPartSemanticSha256 != some part.partSemanticSha256 ||
          inference.providerIdempotencyKey != some part.idempotencyKey ||
          inference.renderedInputDigest != part.itemManifestSha256 ||
          inference.stage != plan.task || inference.packageIds != plan.packageIds)
        (.barrier "terminal inference identity does not match its declared call part")
      .ok part

def rawOutputArtifactId : RawOutput → Except BarrierError (Option String)
  | .absent => .ok none
  | .invalid => .error (.barrier "terminal raw output artifact reference is invalid")
  | .artifact artifactId => .ok (some artifactId)

def inferenceAttemptSelectionLogicalKey (logicalInvocationId : OpaqueUuid)
    (policyVersion : SchemaVersion) : NodeLogicalKey :=
  "inference-attempt-selection:" ++
    H.semanticSha256 (.attemptSelection logicalInvocationId policyVersion)

/-- The output and failure of a terminal inference, after the checks of
`submit_part_terminal`. -/
def terminalOutcome (inference : ModelInference) (selection : Option InferenceAttemptSelection)
    (failureIsFinal : Bool) (rawOutputArtifactId : Option String) :
    Except BarrierError (Option JsonObject × Option InferenceFailure) :=
  if inference.status = .succeeded then do
    refuse (!inference.outputValid || inference.normalizedOutput.isNone)
      (.barrier "successful call part requires valid normalized output")
    refuse inference.failure.isSome (.barrier "successful call part cannot contain failure details")
    refuse rawOutputArtifactId.isNone
      (.barrier "successful call part requires a raw output artifact reference")
    refuse (selection.all fun selection =>
        selection.inferenceId != inference.inferenceId ||
          selection.logicalInvocationId != inference.logicalInvocationId ||
          selection.selectionDecisionLogicalKey !=
            inferenceAttemptSelectionLogicalKey H inference.logicalInvocationId
              selection.policyVersion)
      (.barrier "successful call part requires its exact persisted attempt selection")
    .ok (inference.normalizedOutput, none)
  else do
    refuse selection.isSome (.barrier "failed call part cannot reference an attempt selection")
    refuse (!failureIsFinal)
      (.barrier "non-success call part requires explicit final-failure confirmation")
    refuse (inference.outputValid || inference.failure.isNone)
      (.barrier "failed call part must carry invalid output and failure details")
    .ok (none, inference.failure)

/-- The completion `submit_part_terminal` builds. -/
def buildCompletion (plan : InferenceInputPlan) (definition : InferenceCallBarrierDefinition)
    (part : InferenceCallPart) (inference : ModelInference)
    (selection : Option InferenceAttemptSelection) (rawOutputArtifactId : Option String)
    (normalizedOutput : Option JsonObject) (failure : Option InferenceFailure) :
    InferenceCallPartCompletion :=
  let projection : CompletionProjection := {
    barrierSemanticSha256 := definition.barrierSemanticSha256
    inputPlanSemanticSha256 := plan.semanticSha256
    callPlanSha256 := plan.callPlan.callPlanSha256
    partSemanticSha256 := part.partSemanticSha256
    partIdempotencyKey := part.idempotencyKey
    inferenceId := inference.inferenceId
    logicalInvocationId := inference.logicalInvocationId
    selectionId := selection.map (·.selectionId)
    selectionPolicyVersion := selection.map (·.policyVersion)
    selectionDecisionLogicalKey := selection.map (·.selectionDecisionLogicalKey)
    attempt := inference.attempt
    status := inference.status
    normalizedOutputSha256 := normalizedOutput.map fun output =>
      H.semanticSha256 (.normalizedOutput output.text)
    rawOutputArtifactId := rawOutputArtifactId
    failure := failure }
  let digest := H.semanticSha256 (.completion projection)
  { projection with
    completionId := H.uuid5 ("robata:inference-call-completion:" ++ digest)
    completionSemanticSha256 := digest
    barrierId := definition.barrierId
    partOrdinal := part.ordinal
    partCount := part.partCount
    partLogicalKey := part.partLogicalKey
    normalizedOutput := normalizedOutput
    completedAt := inference.completedAt }

def submitPartTerminal (plan : InferenceInputPlan) (inference : ModelInference)
    (selection : Option InferenceAttemptSelection) (failureIsFinal : Bool) :
    BarrierProg InferenceCallPartCompletion := do
  let definition ← requireDefinition H plan
  let part ← ofExcept (boundPart plan inference)
  let raw ← ofExcept (rawOutputArtifactId inference.rawOutput)
  let outcome ← ofExcept (terminalOutcome H inference selection failureIsFinal raw)
  let stored ← perform (BarrierCommand.appendCompletion
    (buildCompletion H plan definition part inference selection raw outcome.1 outcome.2))
  let _ ← submitMember definition.barrierId
    ⟨part.partLogicalKey, .required, stageStatus inference.status⟩
  pure stored

def getAggregateStatus (plan : InferenceInputPlan) : BarrierProg AggregateStatus := do
  let definition ← requireDefinition H plan
  getAggregateStatusOf definition.barrierId

def validateCompletedMemberSet (definition : InferenceCallBarrierDefinition)
    (completions : List InferenceCallPartCompletion) : Except BarrierError Unit := do
  refuse (decide (completions.length ≠ definition.partCount))
    (.stillOpen "persisted part completions do not cover the declared member set")
  refuse (completions.map (·.partOrdinal) != List.range definition.partCount)
    (.conflict "persisted part completion ordinals are not exact and contiguous")
  refuse (completions.map (·.partSemanticSha256) != definition.expectedPartSemanticSha256s)
    (.conflict "persisted part completions do not match declared identities")
  refuse (completions.any (·.status != .succeeded))
    (.failed "successful barrier state contains a non-success part completion")

/-- `_required_output_digest` and `_required_selection_key` of all parts. -/
def requiredOf {α : Type} (values : List (Option α)) (message : String) :
    Except BarrierError (List α) :=
  match values.mapM id with
  | some present => .ok present
  | none => .error (.failed message)

/-- The registered reducer, applied. -/
def reducedOutput (reducers : Reducers) (plan : InferenceInputPlan)
    (definition : InferenceCallBarrierDefinition)
    (completions : List InferenceCallPartCompletion) : Except BarrierError JsonObject :=
  match reducers (definition.reductionPolicy, definition.reductionPolicyVersion) with
  | none =>
    .error (.configuration "no reducer is registered for the exact policy and version")
  | some reducer =>
    match reducer plan completions with
    | .notMapping =>
      .error (.configuration "inference call reducer must return a mapping")
    | .emptyKey =>
      .error (.configuration "reduced output keys must be nonempty strings")
    | .notCanonical =>
      .error (.configuration "reduced output must be canonical JSON")
    | .mapping output => .ok output

/-- The reduction `reduce` builds from the ordered completions. -/
def buildReduction (plan : InferenceInputPlan) (definition : InferenceCallBarrierDefinition)
    (completions : List InferenceCallPartCompletion) (output : JsonObject) (reducedAt : String) :
    Except BarrierError InferenceCallReduction := do
  let outputDigests ← requiredOf (completions.map (·.normalizedOutputSha256))
    "successful call part is missing its normalized output digest"
  let selectionKeys ← requiredOf (completions.map (·.selectionDecisionLogicalKey))
    "successful call part is missing its selection decision logical key"
  let projection : ReductionProjection := {
    barrierSemanticSha256 := definition.barrierSemanticSha256
    inputPlanSemanticSha256 := plan.semanticSha256
    callPlanSha256 := plan.callPlan.callPlanSha256
    reductionPolicy := definition.reductionPolicy
    reductionPolicyVersion := definition.reductionPolicyVersion
    outputSchemaSha256 := plan.providerResponseSchemaSha256
    orderedPartSemanticSha256s := completions.map (·.partSemanticSha256)
    orderedNormalizedOutputSha256s := outputDigests
    orderedSelectionDecisionLogicalKeys := selectionKeys
    normalizedOutputSha256 := H.semanticSha256 (.normalizedOutput output.text) }
  let digest := H.semanticSha256 (.reduction projection)
  .ok { projection with
    reductionId := H.uuid5 ("robata:inference-call-reduction:" ++ digest)
    reductionSemanticSha256 := digest
    barrierId := definition.barrierId
    orderedCompletionIds := completions.map (·.completionId)
    normalizedOutput := output
    reducedAt := reducedAt }

def reduce (reducers : Reducers) (plan : InferenceInputPlan) (reducedAt : String) :
    BarrierProg InferenceCallReduction := do
  let definition ← requireDefinition H plan
  let existing ← perform (BarrierCommand.getReduction definition.barrierId)
  match existing with
  | some stored => pure stored
  | none => do
      let status ← getAggregateStatusOf definition.barrierId
      ofExcept (refuse (!status.isComplete)
        (.stillOpen "cannot reduce before every declared call part is terminal"))
      ofExcept (refuse (status.overallStatus != .succeeded)
        (.failed "cannot reduce a call barrier containing a failed required part"))
      -- the storage returns the completions in part order already
      let completions ← perform (BarrierCommand.listCompletions definition.barrierId)
      ofExcept (validateCompletedMemberSet definition completions)
      let output ← ofExcept (reducedOutput reducers plan definition completions)
      let reduction ← ofExcept (buildReduction H plan definition completions output reducedAt)
      perform (BarrierCommand.appendReduction reduction)

/-! ## Workers -/

/-- The calls a worker makes. -/
inductive BarrierCall
  | declare (plan : InferenceInputPlan) (createdAt : String)
  | submitPartTerminal (plan : InferenceInputPlan) (inference : ModelInference)
      (selection : Option InferenceAttemptSelection) (failureIsFinal : Bool)
  | getAggregateStatus (plan : InferenceInputPlan)
  | reduce (reducers : Reducers) (plan : InferenceInputPlan) (reducedAt : String)

inductive BarrierResult
  | definition (definition : InferenceCallBarrierDefinition)
  | completion (completion : InferenceCallPartCompletion)
  | status (status : AggregateStatus)
  | reduction (reduction : InferenceCallReduction)

/-- The coordinators of all workers, over one storage. -/
def callBarrier :
    System BarrierDb BarrierCall BarrierCommand BarrierAnswer BarrierError BarrierResult where
  run := BarrierCommand.run
  method
    | .declare plan createdAt => do
        let definition ← Inference.declare H plan createdAt
        pure (.definition definition)
    | .submitPartTerminal plan inference selection failureIsFinal => do
        let completion ← Inference.submitPartTerminal H plan inference selection failureIsFinal
        pure (.completion completion)
    | .getAggregateStatus plan => do
        let status ← Inference.getAggregateStatus H plan
        pure (.status status)
    | .reduce reducers plan reducedAt => do
        let reduction ← Inference.reduce H reducers plan reducedAt
        pure (.reduction reduction)

end Robata.Inference
