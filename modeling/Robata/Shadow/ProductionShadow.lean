import Robata.Contracts.JsonValues
import Robata.Inference.BarrierStorage
import Robata.Lib.Dictionary

/-!
# The production shadow bridge

`ProductionShadowCoordinator` on its event loop.  `submit` reserves a slot of the budget, records a
queued observation and starts a task for the candidate; the task records what became of the
candidate and releases the slot; `drain` waits for the tasks with `asyncio.gather`.

Every section between two awaits is one event: a call of `submit`, a step of a candidate task, a
done callback, and the steps of a `drain` call.  Cancelling the caller of `drain` cancels the tasks
it waits for; a task takes the `CancelledError` at its next step, and one that has not begun ends
there without entering its body.
-/

namespace Robata.Shadow

open Contracts Lib
open Inference (InferenceStatus)

/-! ## The budget -/

/-- `ProductionShadowError` and what the route raises. -/
inductive ShadowError
  | shadow (message : String)
  | routing (message : String)
  /-- Another exception leaves the call. -/
  | other (errorType : String)

/-- `InMemoryProductionShadowBudget`; its constructor requires at least one slot. -/
structure InMemoryProductionShadowBudget where
  (maximumInFlight inFlight : Nat)
  positive : 1 ≤ maximumInFlight

namespace InMemoryProductionShadowBudget

variable (budget : InMemoryProductionShadowBudget)

def tryReserve : Bool × InMemoryProductionShadowBudget :=
  if budget.inFlight ≥ budget.maximumInFlight then (false, budget)
  else (true, { budget with inFlight := budget.inFlight + 1 })

def release : Except ShadowError InMemoryProductionShadowBudget :=
  if budget.inFlight < 1 then .error (.shadow "production shadow budget release underflow")
  else .ok { budget with inFlight := budget.inFlight - 1 }

end InMemoryProductionShadowBudget

/-! ## Observations -/

inductive ProductionShadowStatus
  | notSelected
  | skippedBudget
  | queued
  | succeeded
  | failed
  | cancelled
  deriving DecidableEq

structure ProductionShadowObservation where
  (routeId experimentId primaryInferenceId inputIdentitySha256 : String)
  status : ProductionShadowStatus
  (comparisonId candidateInferenceId : Option String)
  candidateStatus : Option InferenceStatus
  (errorType errorDetail : Option String)

/-- The key of an observation: the primary inference and the input identity. -/
abbrev ShadowKey := String × String

/-- The fields of an `ExperimentSideOutcome` that an observation is made of. -/
structure ExperimentSideOutcome where
  inferenceId : Option String
  status : Option InferenceStatus
  (executionErrorType terminalValidationError : Option String)

/-- The fields of the candidate terminal that an observation is made of. -/
structure CandidateTerminal where
  inferenceId : String
  status : InferenceStatus
  outputValid : Bool

structure ExperimentExecutionResult where
  comparisonId : String
  candidate : Option ExperimentSideOutcome
  candidateTerminal : Option CandidateTerminal

/-- What an exception is to the handlers of `_execute`. -/
inductive RaisedKind
  | cancelledError
  | exception
  /-- A `BaseException` that is neither. -/
  | baseException

/-- What an execution raises; there is no detail when `str` of the exception raises itself. -/
structure CandidateRaised where
  kind : RaisedKind
  errorType : String
  errorDetail : Option String

/-- `ExperimentRoute` in `SHADOW` mode, with the number that `_sample` makes of an input. -/
structure ExperimentRoute where
  (routeId experimentId : String)
  sampleRatio : Rat
  sample : String → Rat

def ExperimentRoute.selected (route : ExperimentRoute) (inputIdentitySha256 : String) : Bool :=
  if route.sampleRatio = 0 then false
  else if route.sampleRatio = 1 then true
  else route.sample inputIdentitySha256 < route.sampleRatio

/-- `decide`, for whether it dispatches to the candidate. -/
def ExperimentRoute.dispatches (route : ExperimentRoute) (inputIdentitySha256 : String) :
    Except ShadowError Bool :=
  if !isSha256 inputIdentitySha256 then
    .error (.routing "input_identity_sha256 must be a lowercase SHA-256 digest")
  else .ok (route.selected inputIdentitySha256)

variable (route : ExperimentRoute)

/-- `_observation` without the fields that are optional. -/
def observation (key : ShadowKey) (status : ProductionShadowStatus) :
    ProductionShadowObservation where
  routeId := route.routeId
  experimentId := route.experimentId
  primaryInferenceId := key.1
  inputIdentitySha256 := key.2
  status := status
  comparisonId := none
  candidateInferenceId := none
  candidateStatus := none
  errorType := none
  errorDetail := none

/-- The observation of a failure with its exception. -/
def failedObservation (key : ShadowKey) (errorType errorDetail : String) :
    ProductionShadowObservation :=
  { observation route key .failed with errorType := some errorType, errorDetail := some errorDetail }

/-- `candidate_status`: of the terminal, or else of the comparison. -/
def ExperimentExecutionResult.candidateStatus (result : ExperimentExecutionResult) :
    Option InferenceStatus :=
  match result.candidateTerminal with
  | some terminal => some terminal.status
  | none => result.candidate.bind (·.status)

/-- The status that an observation gets from a result. -/
def ExperimentExecutionResult.shadowStatus (result : ExperimentExecutionResult) :
    ProductionShadowStatus :=
  if (result.candidate.bind (·.terminalValidationError)).isSome then .failed
  else if result.candidateStatus = some .cancelled ∨
      result.candidate.bind (·.executionErrorType) = some "CancelledError" then .cancelled
  else if result.candidateTerminal.all fun terminal =>
      terminal.status ≠ .succeeded || !terminal.outputValid then .failed
  else .succeeded

def resultObservation (key : ShadowKey) (result : ExperimentExecutionResult) :
    ProductionShadowObservation :=
  let terminalValidationError := result.candidate.bind (·.terminalValidationError)
  { observation route key result.shadowStatus with
    comparisonId := some result.comparisonId
    candidateInferenceId :=
      match result.candidateTerminal with
      | some terminal => some terminal.inferenceId
      | none => result.candidate.bind (·.inferenceId)
    candidateStatus := result.candidateStatus
    errorType := terminalValidationError.map fun _ => "ExperimentTerminalValidationError"
    errorDetail := terminalValidationError }

/-! ## The event loop -/

inductive TaskPhase
  /-- Created; its first step is to come. -/
  | created
  /-- In `execute` of the executor. -/
  | executing
  | done
  deriving DecidableEq

/-- A task of `_execute`; `cancelRequested` says that a `CancelledError` waits for its next
step. -/
structure CandidateTask where
  key : ShadowKey
  phase : TaskPhase
  cancelRequested : Bool

inductive DrainState
  /-- In `gather` of these tasks. -/
  | gathering (children : List Nat)
  | returned
  | cancelled
  deriving DecidableEq

structure DrainCall where
  state : DrainState
  cancelRequested : Bool

/-- The coordinator with its budget, the candidate tasks it has created, the tasks it still keeps
(`_tasks`), and the `drain` calls.  `executions` lists the keys in the order in which the executor
was called, and `underflows` counts the calls of `release` that raised. -/
structure ShadowWorld where
  budget : InMemoryProductionShadowBudget
  observations : Dict ShadowKey ProductionShadowObservation
  candidates : List CandidateTask
  tasks : List Nat
  drains : List DrainCall
  executions : List ShadowKey
  underflows : Nat

/-- An invocation, with the field that `submit` looks at beside its input identity. -/
structure ExperimentInvocation where
  inputIdentitySha256 : String
  primaryInferenceId : Option String

/-- `OpaqueUuid`: 36 lowercase hexadecimal characters with four hyphens in their places. -/
def isOpaqueUuid (value : String) : Bool :=
  value.toList.length == 36 && value.toList.zipIdx.all fun (c, place) =>
    if [8, 13, 18, 23].contains place then c == '-'
    else "0123456789abcdef".toList.contains c

/-- What `create_task` raises, if it does. -/
structure LoopError where
  errorType : String
  errorDetail : Option String

/-- What the executor does in one step of its task. -/
inductive ExecutorStep
  /-- It waits for something. -/
  | suspends
  | returns (result : ExperimentExecutionResult)
  | raises (exc : CandidateRaised)

namespace ShadowWorld

variable (w : ShadowWorld)

def record (key : ShadowKey) (observation : ProductionShadowObservation) : ShadowWorld :=
  { w with observations := w.observations.set key observation }

/-- `self._budget.release()`; the exception of an underflow leaves the task. -/
def releaseBudget : ShadowWorld :=
  match w.budget.release with
  | .ok budget => { w with budget := budget }
  | .error _ => { w with underflows := w.underflows + 1 }

def setPhase (i : Nat) (phase : TaskPhase) : ShadowWorld :=
  { w with candidates := w.candidates.modify i fun task =>
      { task with phase := phase, cancelRequested := false } }

/-- The end of `submit` once the slot is reserved. -/
def startCandidate (key : ShadowKey) (createTask : Except LoopError Unit) :
    Except ShadowError ProductionShadowObservation × ShadowWorld :=
  let queued := observation route key .queued
  let recorded := w.record key queued
  match createTask with
  | .ok _ => (.ok queued, { recorded with
      candidates := w.candidates ++ [⟨key, .created, false⟩]
      tasks := w.tasks ++ [w.candidates.length] })
  | .error exc =>
    match exc.errorDetail with
    | some errorDetail =>
      let failed := failedObservation route key exc.errorType errorDetail
      (.ok failed, recorded.releaseBudget.record key failed)
    -- reading the text of the exception raises in turn
    | none => (.error (.other exc.errorType), recorded.releaseBudget)

/-- `submit` for a key without an observation. -/
def submitNew (key : ShadowKey) (createTask : Except LoopError Unit) :
    Except ShadowError ProductionShadowObservation × ShadowWorld :=
  match route.dispatches key.2 with
  | .error e => (.error e, w)
  | .ok false =>
    (.ok (observation route key .notSelected), w.record key (observation route key .notSelected))
  | .ok true =>
    match w.budget.tryReserve with
    | (false, _) => (.ok (observation route key .skippedBudget),
        w.record key (observation route key .skippedBudget))
    | (true, budget) => startCandidate route { w with budget := budget } key createTask

def submit (primaryInferenceId : String) (invocation : ExperimentInvocation)
    (createTask : Except LoopError Unit) :
    Except ShadowError ProductionShadowObservation × ShadowWorld :=
  if !isOpaqueUuid primaryInferenceId then
    (.error (.shadow "primary_inference_id must be a lowercase UUID"), w)
  else if invocation.primaryInferenceId.isSome then
    (.error (.shadow "production shadow invocation must not prepopulate primary_inference_id"), w)
  else
    match w.observations.get? (primaryInferenceId, invocation.inputIdentitySha256) with
    | some existing => (.ok existing, w)
    | none =>
      submitNew route w (primaryInferenceId, invocation.inputIdentitySha256) createTask

/-- What the handlers of `_execute` record of an exception. -/
def recordRaised (key : ShadowKey) (exc : CandidateRaised) : ShadowWorld :=
  match exc.kind with
  | .cancelledError => w.record key (observation route key .cancelled)
  | .exception =>
    match exc.errorDetail with
    | some errorDetail => w.record key (failedObservation route key exc.errorType errorDetail)
    -- reading the text of the exception raises in turn
    | none => w
  | .baseException => w

/-- `_execute` from the await of the executor on; the slot is released in `finally`. -/
def bodyStep (i : Nat) (key : ShadowKey) : ExecutorStep → ShadowWorld
  | .suspends => w.setPhase i .executing
  | .returns result =>
    ((w.record key (resultObservation route key result)).releaseBudget).setPhase i .done
  | .raises exc => ((recordRaised route w key exc).releaseBudget).setPhase i .done

def stepTask (i : Nat) (executor : ExecutorStep) : ShadowWorld :=
  match w.candidates[i]? with
  | none => w
  | some task =>
    match task.phase, task.cancelRequested with
    -- the exception is thrown into a coroutine that has not begun
    | .created, true => w.setPhase i .done
    | .created, false =>
      bodyStep route { w with executions := w.executions ++ [task.key] } i task.key executor
    | .executing, _ => bodyStep route w i task.key executor
    | .done, _ => w

def isDone (i : Nat) : Bool := w.candidates[i]?.all (·.phase = .done)

/-- The done callback of a task: `self._tasks.discard`. -/
def discard (i : Nat) : ShadowWorld :=
  if w.isDone i then { w with tasks := w.tasks.filter (· ≠ i) } else w

/-- `while self._tasks`: the next round of a `drain` call. -/
def gather : DrainState := if w.tasks = [] then .returned else .gathering w.tasks

/-- A `drain` call begins. -/
def startDrain : ShadowWorld := { w with drains := w.drains ++ [⟨w.gather, false⟩] }

/-- A `drain` call whose `gather` is over goes on. -/
def resumeDrain (j : Nat) : ShadowWorld :=
  match w.drains[j]? with
  | some ⟨.gathering children, cancelRequested⟩ =>
    if children.all w.isDone then
      let state := if cancelRequested then .cancelled else w.gather
      { w with drains := w.drains.set j ⟨state, false⟩ }
    else w
  | _ => w

/-- `Task.cancel` of a candidate task. -/
def requestCancel (task : CandidateTask) : CandidateTask :=
  if task.phase = .done then task else { task with cancelRequested := true }

/-- The caller of a `drain` call is cancelled; `gather` passes it on. -/
def cancelDrain (j : Nat) : ShadowWorld :=
  match w.drains[j]? with
  | some ⟨.gathering children, _⟩ =>
    { w with
      candidates := w.candidates.mapIdx fun i task =>
        if children.contains i then requestCancel task else task
      drains := w.drains.set j ⟨.gathering children, true⟩ }
  | _ => w

end ShadowWorld

inductive ShadowEvent
  | submit (primaryInferenceId : String) (invocation : ExperimentInvocation)
      (createTask : Except LoopError Unit)
  | step (i : Nat) (executor : ExecutorStep)
  | discard (i : Nat)
  | startDrain
  | resumeDrain (j : Nat)
  | cancelDrain (j : Nat)

def ShadowWorld.next (w : ShadowWorld) : ShadowEvent → ShadowWorld
  | .submit primaryInferenceId invocation createTask =>
    (w.submit route primaryInferenceId invocation createTask).2
  | .step i executor => w.stepTask route i executor
  | .discard i => w.discard i
  | .startDrain => w.startDrain
  | .resumeDrain j => w.resumeDrain j
  | .cancelDrain j => w.cancelDrain j

def ShadowWorld.run (w : ShadowWorld) (events : List ShadowEvent) : ShadowWorld :=
  events.foldl (ShadowWorld.next route) w

/-- A new coordinator with a new budget. -/
def ShadowWorld.initial (maximumInFlight : Nat) (positive : 1 ≤ maximumInFlight) : ShadowWorld where
  budget := ⟨maximumInFlight, 0, positive⟩
  observations := .empty
  candidates := []
  tasks := []
  drains := []
  executions := []
  underflows := 0

/-- The candidate tasks that are not done. -/
def ShadowWorld.unfinished (w : ShadowWorld) : Nat :=
  w.candidates.countP (·.phase ≠ .done)

end Robata.Shadow
