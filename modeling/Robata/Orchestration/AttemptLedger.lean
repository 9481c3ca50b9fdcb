import Robata.Lib.Dictionary
import Robata.Orchestration.AttemptModels

/-!
# The in-memory inference ledger

Append-only: an intent and a terminal attempt under the identity of the attempt, a selection
under its logical invocation and selection policy.  An identical record may be appended again;
the atomic append of a terminal with its selection keeps the selection that is there.

`semantic_sha256` and `uuid5` are parameters; what is hashed is a constructor of
`SemanticProjection`, which holds what the digest covers.
-/

namespace Robata.Orchestration

open Contracts Lib
open Method (assign ofExcept raiseIf)

/-! ## Errors -/

/-- What the orchestrator raises: its own errors, the error of a contract, exceptions of awaited
calls that it passes on, and what comes of an exception without a text. -/
inductive OrchestrationError
  | configuration (message : String)
  | capability (message : String)
  | ledger (message : String)
  | contract (message : String)
  | raised (exc : Raised)
  | unprintable (exc : Raised)
  deriving DecidableEq

/-- `_exception_detail`, as `InferenceFailure` takes it. -/
def exceptionDetail (exc : Raised) : Except OrchestrationError NonEmptyString :=
  match exc.text with
  | none => .error (.unprintable exc)
  | some text =>
    if h : text ≠ "" then .ok ⟨text, h⟩
    else if h : exc.typeName ≠ "" then .ok ⟨exc.typeName, h⟩
    else .error (.contract "detail")

/-! ## Identities -/

/-- What the digest of a logical invocation covers. -/
structure LogicalProjection where
  packageInputSetSha256 : Sha256Digest
  task : VisionTask
  (provider modelName : String)
  (modelVersion adapterVersion promptVersion : SchemaVersion)
  (promptSha256 renderedInputDigest : Sha256Digest)
  inputPlanSemanticSha256 : Option Sha256Digest
  outputSchemaId : String
  outputSchemaVersion : SchemaVersion
  (outputSchemaSha256 capabilitySnapshotDigest : Sha256Digest)
  generationConfig : JsonObject
  -- the last two are there only when they are set
  (inputPlanPartSemanticSha256 logicalDependencySha256 : Option Sha256Digest)

/-- The projections that are hashed. -/
inductive SemanticProjection
  | packages (inputs : List (Nat × String × Sha256Digest))
  | logicalInvocation (projection : LogicalProjection)
  | attempt (logicalInvocationDigest : Sha256Digest) (attempt retryCount : Nat) (shadow : Bool)
  | selection (logicalInvocationId : OpaqueUuid) (policyVersion : SchemaVersion)

/-- `canonical` tells whether RFC 8785 can write a configuration. -/
structure OrchestrationHashing where
  canonical : JsonObject → Bool
  semanticSha256 : SemanticProjection → Sha256Digest
  uuid5 : String → OpaqueUuid

variable (H : OrchestrationHashing)

def stableUuid (ns digest : String) : OpaqueUuid := H.uuid5 ("robata:" ++ ns ++ ":" ++ digest)

def inferenceAttemptSelectionDigest (logicalInvocationId : OpaqueUuid)
    (policyVersion : SchemaVersion) : Sha256Digest :=
  H.semanticSha256 (.selection logicalInvocationId policyVersion)

def inferenceAttemptSelectionLogicalKey (logicalInvocationId : OpaqueUuid)
    (policyVersion : SchemaVersion) : NodeLogicalKey :=
  "inference-attempt-selection:" ++
    inferenceAttemptSelectionDigest H logicalInvocationId policyVersion

/-- `selection_id` of the selection of an invocation. -/
def selectionIdOf (logicalInvocationId : OpaqueUuid) (policyVersion : SchemaVersion) : OpaqueUuid :=
  stableUuid H "inference-selection"
    (inferenceAttemptSelectionDigest H logicalInvocationId policyVersion)

/-! ## The ledger -/

structure InMemoryInferenceLedger where
  intents : Dict OpaqueUuid InferenceIntent
  terminals : Dict OpaqueUuid ModelInference
  selections : Dict (OpaqueUuid × SchemaVersion) InferenceAttemptSelection

def InMemoryInferenceLedger.empty : InMemoryInferenceLedger := ⟨.empty, .empty, .empty⟩

abbrev LedgerMethod (α : Type) := Method InMemoryInferenceLedger OrchestrationError α

namespace InMemoryInferenceLedger

def appendIntent (intent : InferenceIntent) : LedgerMethod InferenceIntent := do
  let existing := (← Method.self).intents.get? intent.inferenceId
  raiseIf (existing.any (· ≠ intent)) (.ledger ("conflicting intent: " ++ intent.inferenceId))
  assign fun l => { l with intents := l.intents.set intent.inferenceId intent }
  return intent

def appendTerminal (inference : ModelInference) : LedgerMethod ModelInference := do
  let l ← Method.self
  raiseIf ((l.terminals.get? inference.inferenceId).any (· ≠ inference))
    (.ledger ("conflicting terminal attempt: " ++ inference.inferenceId))
  raiseIf (l.intents.get? inference.inferenceId).isNone
    (.ledger "terminal attempt requires a persisted intent")
  assign fun l => { l with terminals := l.terminals.set inference.inferenceId inference }
  return inference

/-- `_validate_selection_target`.  A clock only gives aware timestamps, so that parsing them
does not fail. -/
def validateSelectionTarget (selection : InferenceAttemptSelection)
    (terminal : Option ModelInference) : Except OrchestrationError Unit :=
  match terminal with
  | none => .error (.ledger "selection requires a successful terminal attempt")
  | some terminal =>
    if terminal.status ≠ .succeeded then
      .error (.ledger "selection requires a successful terminal attempt")
    else if selection.inferenceId ≠ terminal.inferenceId ∨ terminal.shadow = true ∨
        terminal.outputValid = false ∨ terminal.failure ≠ none ∨
        terminal.logicalInvocationId ≠ selection.logicalInvocationId ∨
        selection.selectionId ≠
          selectionIdOf H selection.logicalInvocationId selection.policyVersion ∨
        selection.selectedAt < terminal.completedAt then
      .error (.ledger "selected terminal attempt is semantically inconsistent")
    else .ok ()

def appendSelection (selection : InferenceAttemptSelection) :
    LedgerMethod InferenceAttemptSelection := do
  let l ← Method.self
  let key := (selection.logicalInvocationId, selection.policyVersion)
  raiseIf ((l.selections.get? key).any (· ≠ selection))
    (.ledger "logical invocation already has a different selected attempt")
  ofExcept (validateSelectionTarget H selection (l.terminals.get? selection.inferenceId))
  assign fun l => { l with selections := l.selections.set key selection }
  return selection

def appendTerminalAndSelection (terminal : ModelInference) (selection : InferenceAttemptSelection) :
    LedgerMethod (ModelInference × InferenceAttemptSelection) := do
  let l ← Method.self
  let existingTerminal := l.terminals.get? terminal.inferenceId
  raiseIf (existingTerminal.any (· ≠ terminal))
    (.ledger ("conflicting terminal attempt: " ++ terminal.inferenceId))
  raiseIf (l.intents.get? terminal.inferenceId).isNone
    (.ledger "terminal attempt requires a persisted intent")
  ofExcept (validateSelectionTarget H selection (some terminal))
  let key := (selection.logicalInvocationId, selection.policyVersion)
  let existingSelection := l.selections.get? key
  let storedTerminal := existingTerminal.getD terminal
  let storedSelection := existingSelection.getD selection
  assign fun l => { l with
    terminals := l.terminals.set terminal.inferenceId storedTerminal
    selections := l.selections.set key storedSelection }
  return (storedTerminal, storedSelection)

end InMemoryInferenceLedger
end Robata.Orchestration
