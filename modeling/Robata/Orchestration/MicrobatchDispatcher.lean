import Robata.Orchestration.AttemptLedger

/-!
# The microbatch dispatcher

`_BoundedMicrobatchDispatcher` on its event loop.  A `dispatch` call queues its request and waits
for a future behind a shield; a bucket is flushed when it is full or when its timer is over, by a
task of its own, which hands the requests to `infer_batch` in one call.

Every section between two awaits is one event: a call up to its await, a task that is resumed, a
timer whose sleep is over, a flush task that starts, and the answer of `infer_batch`.  `cancel` is
`Task.cancel` of a caller; the `CancelledError` reaches the call when its task is resumed next.
-/

namespace Robata.Orchestration

open Contracts Lib

/-! ## Compatible requests -/

structure BatchCompatibilityKey where
  (provider modelName : String)
  modelVersion : SchemaVersion
  task : VisionTask
  modelPolicyVersion : SchemaVersion
  outputSchemaSha256 : Sha256Digest
  timeoutMs : Nat
  inputShape : List (String × String × Nat × Nat)
  deriving DecidableEq

def RenderedArtifact.shape (artifact : RenderedArtifact) : String × String × Nat × Nat :=
  (artifact.mediaType, artifact.encoding, artifact.width, artifact.height)

/-- The input shape of a request; there is none when its part is not in the plan. -/
def inputShape (request : VisionInferenceRequest) : Option (List (String × String × Nat × Nat)) :=
  match request.inputPlan with
  | none => some (request.packageInputs.map fun item => ("package", item.role, 0, 0))
  | some plan =>
    match request.inputPlanPartOrdinal with
    | none => some (plan.renderedItems.map RenderedArtifact.shape)
    | some ordinal =>
      plan.callPlan.parts[ordinal]?.map fun part =>
        (plan.partItems part).map RenderedArtifact.shape

def batchCompatibilityKey (request : VisionInferenceRequest) : Option BatchCompatibilityKey :=
  (inputShape request).map fun shape =>
    { provider := request.provider
      modelName := request.modelName
      modelVersion := request.modelVersion
      task := request.task
      modelPolicyVersion := request.modelPolicyVersion
      outputSchemaSha256 := request.outputSchema.sha256
      timeoutMs := request.timeoutMs
      inputShape := shape }

/-- The identity of an adapter with the key of a request. -/
abbrev QueueKey := Nat × BatchCompatibilityKey

/-! ## Futures, calls and tasks -/

inductive FutureState
  | pending
  | cancelled
  | done (result : Except Raised AdapterOutcome)
  deriving DecidableEq

/-- `set_result` and `set_exception` on a future that is not done. -/
def FutureState.settle (future : FutureState) (result : Except Raised AdapterOutcome) :
    FutureState :=
  match future with
  | .pending => .done result
  | settled => settled

def FutureState.cancel : FutureState → FutureState
  | .pending => .cancelled
  | settled => settled

/-- `_QueuedBatchRequest`.  Times are seconds. -/
structure QueuedBatchRequest where
  request : VisionInferenceRequest
  future : FutureState
  enqueuedAt : Rat
  (cancelled providerDispatchStarted : Bool)

/-- What a `dispatch` call ends with: the outcome, an exception, the `CancelledError` of a caller
that has left the queue, or `_BatchMemberCancellationAfterDispatch`. -/
inductive DispatchResult
  | returned (outcome : AdapterOutcome)
  | raised (exc : Raised)
  | cancelled
  | settled (result : Except Raised AdapterOutcome)
  deriving DecidableEq

/-- Where a call waits: at its shield, or in `_await_settled_outcome`. -/
inductive DispatchPhase
  | shielded
  | settling
  | ended (result : DispatchResult)
  deriving DecidableEq

/-- A `dispatch` call with its queued request; `cancelRequested` says that a `CancelledError`
waits to be thrown into its task. -/
structure DispatchCall where
  key : QueueKey
  queued : QueuedBatchRequest
  cancelRequested : Bool
  phase : DispatchPhase

inductive TimerState
  | sleeping
  | cancelled
  | finished

/-- A `_flush_after_delay` task. -/
structure TimerTask where
  key : QueueKey
  state : TimerState

/-- How far a `_flush` task is, with the calls that were active when it started. -/
inductive FlushState
  | scheduled
  | empty
  | expired (active : List Nat)
  | inFlight (active : List Nat)
  | settled (active : List Nat) (answer : Except Raised (List AdapterOutcome))

structure FlushTask where
  adapter : Nat
  bucket : List Nat
  state : FlushState

/-- The calls whose requests the task has handed to `infer_batch`. -/
def FlushTask.handed (f : FlushTask) : List Nat :=
  match f.state with
  | .inFlight active | .settled active _ => active
  | _ => []

/-- The dispatcher and the tasks that use it.  A call is its index, in the order of arrival. -/
structure DispatcherWorld where
  calls : List DispatchCall
  queues : Dict QueueKey (List Nat)
  timers : Dict QueueKey Nat
  timerTasks : List TimerTask
  flushTasks : List FlushTask

def DispatcherWorld.initial : DispatcherWorld := ⟨[], .empty, .empty, [], []⟩

namespace DispatcherWorld

/-- Write to the call objects. -/
def updateCalls (w : DispatcherWorld) (f : Nat → DispatchCall → DispatchCall) : DispatcherWorld :=
  { w with calls := w.calls.mapIdx f }

def updateCall (w : DispatcherWorld) (i : Nat) (f : DispatchCall → DispatchCall) :
    DispatcherWorld :=
  w.updateCalls fun j c => if j = i then f c else c

/-- A timer task is over. -/
def endTimer (w : DispatcherWorld) (task : Nat) (state : TimerState) : DispatcherWorld :=
  { w with timerTasks := w.timerTasks.modify task fun t => { t with state } }

def setFlush (w : DispatcherWorld) (task : Nat) (state : FlushState) : DispatcherWorld :=
  { w with flushTasks := w.flushTasks.modify task fun f => { f with state } }

/-- Take the timer of a bucket, and cancel it unless its own task runs. -/
def popTimer (w : DispatcherWorld) (key : QueueKey) (current : Option Nat) : DispatcherWorld :=
  match w.timers.get? key with
  | none => w
  | some task =>
    let popped := { w with timers := w.timers.erase key }
    if some task = current then popped else popped.endTimer task .cancelled

def startFlush (w : DispatcherWorld) (key : QueueKey) (current : Option Nat) : DispatcherWorld :=
  let bucket := (w.queues.get? key).getD []
  let popped := { w with queues := w.queues.erase key }.popTimer key current
  if bucket = [] then popped
  else { popped with flushTasks := popped.flushTasks ++ [⟨key.1, bucket, .scheduled⟩] }

/-- `_remove_queued_member`.  The caller is no timer task. -/
def removeQueuedMember (w : DispatcherWorld) (key : QueueKey) (i : Nat) : DispatcherWorld :=
  match w.queues.get? key with
  | none => w
  | some bucket =>
    if i ∉ bucket then w
    else if bucket.erase i ≠ [] then
      { w with queues := w.queues.set key (bucket.erase i) }
    else { w with queues := w.queues.erase key }.popTimer key none

end DispatcherWorld

/-! ## The dispatcher -/

/-- `_BoundedMicrobatchDispatcher`.  The orchestrator has one for `max_batch_size` above one. -/
structure BoundedMicrobatchDispatcher where
  maxBatchSize : Nat
  bounded : 1 < maxBatchSize

/-- `TimeoutError("adapter batch expired while awaiting dispatch")`. -/
def batchExpired : Raised :=
  ⟨.timeout, some "adapter batch expired while awaiting dispatch", "TimeoutError"⟩

/-- `InferenceBatchDispatchError`. -/
def batchDispatchError : Raised :=
  ⟨.exception, some "adapter batch must return one ordered outcome per request",
    "InferenceBatchDispatchError"⟩

/-- The outcomes of a batch of a given size. -/
def checkOutcomes (size : Nat) (answer : Except Raised (List AdapterOutcome)) :
    Except Raised (List AdapterOutcome) := do
  let outcomes ← answer
  if outcomes.length ≠ size ∨ .unsupported ∈ outcomes then .error batchDispatchError
  else .ok outcomes

/-- What the futures of the active calls are settled with. -/
def settlements (active : List Nat) (answer : Except Raised (List AdapterOutcome)) :
    List (Nat × Except Raised AdapterOutcome) :=
  match checkOutcomes active.length answer with
  | .error exc => active.map fun i => (i, .error exc)
  | .ok outcomes => (active.zip outcomes).map fun entry => (entry.1, .ok entry.2)

/-- A request that is still wanted. -/
def QueuedBatchRequest.isActive (q : QueuedBatchRequest) : Bool :=
  !q.cancelled && !(q.future == .cancelled)

namespace DispatcherWorld

def settleFutures (w : DispatcherWorld) (results : List (Nat × Except Raised AdapterOutcome)) :
    DispatcherWorld :=
  w.updateCalls fun i c =>
    match results.lookup i with
    | some result => { c with queued.future := c.queued.future.settle result }
    | none => c

/-- The calls of a bucket that are still wanted. -/
def activeOf (w : DispatcherWorld) (bucket : List Nat) : List Nat :=
  bucket.filter fun i => w.calls[i]?.any (·.queued.isActive)

/-- The time at which the first of the calls runs out. -/
def deadline (w : DispatcherWorld) (active : List Nat) : Option Rat :=
  (active.filterMap fun i => w.calls[i]?.map fun c =>
    c.queued.enqueuedAt + (c.queued.request.timeoutMs : Rat) / 1000).min?

/-- `_flush`, up to the call of `infer_batch`. -/
def startBatch (w : DispatcherWorld) (task : Nat) (bucket : List Nat) (now : Rat) :
    DispatcherWorld :=
  let active := w.activeOf bucket
  if active = [] then w.setFlush task .empty
  else if (w.deadline active).any (· ≤ now) then
    (w.settleFutures (active.map fun i => (i, .error batchExpired))).setFlush task (.expired active)
  else
    (w.updateCalls fun i c =>
      if i ∈ active then { c with queued.providerDispatchStarted := true } else c).setFlush task
        (.inFlight active)

/-- A flush task starts. -/
def flush (w : DispatcherWorld) (task : Nat) (now : Rat) : DispatcherWorld :=
  match w.flushTasks[task]? with
  | some ⟨_, bucket, .scheduled⟩ => w.startBatch task bucket now
  | _ => w

/-- `infer_batch` returns or raises. -/
def answer (w : DispatcherWorld) (task : Nat) (answer : Except Raised (List AdapterOutcome)) :
    DispatcherWorld :=
  match w.flushTasks[task]? with
  | some ⟨_, _, .inFlight active⟩ =>
    (w.settleFutures (settlements active answer)).setFlush task (.settled active answer)
  | _ => w

/-- The sleep of a timer task is over. -/
def timerElapsed (w : DispatcherWorld) (task : Nat) : DispatcherWorld :=
  match w.timerTasks[task]? with
  | some ⟨key, .sleeping⟩ => (w.endTimer task .finished).startFlush key (some task)
  | _ => w

end DispatcherWorld

/-- What the call does when its future is done, or a `CancelledError` is thrown into it. -/
inductive Resumption
  | waits
  | ends (result : DispatchResult)
  -- the caller leaves before its request was dispatched
  | leaves
  -- the caller waits for the settled outcome
  | settles

/-- Awaiting the future raises a `CancelledError`. -/
def FutureState.isCancellation : FutureState → Bool
  | .pending => false
  | .cancelled => true
  | .done (.ok _) => false
  | .done (.error exc) => exc.kind == .cancelled

/-- `_await_settled_outcome` with the future as it is: a call in it has not left, so that its
future is not cancelled. -/
def settledResumption : FutureState → Resumption
  | .done result => .ends (.settled result)
  | _ => .settles

/-- How the task of a call goes on. -/
def DispatchCall.resumption (c : DispatchCall) : Resumption :=
  match c.phase with
  | .ended _ => .waits
  | .settling => settledResumption c.queued.future
  | .shielded =>
    if c.cancelRequested || c.queued.future.isCancellation then
      if c.queued.providerDispatchStarted then settledResumption c.queued.future else .leaves
    else
      match c.queued.future with
      | .done (.ok outcome) => .ends (.returned outcome)
      | .done (.error exc) => .ends (.raised exc)
      | _ => .waits

namespace DispatcherWorld

/-- The task of a call is resumed. -/
def resume (w : DispatcherWorld) (i : Nat) : DispatcherWorld :=
  match w.calls[i]? with
  | none => w
  | some c =>
    match c.resumption with
    | .waits => w
    | .ends result => w.updateCall i fun c => { c with cancelRequested := false, phase := .ended result }
    | .settles => w.updateCall i fun c => { c with cancelRequested := false, phase := .settling }
    | .leaves =>
      (w.updateCall i fun c => { c with
        queued.cancelled := true
        queued.future := c.queued.future.cancel
        cancelRequested := false
        phase := .ended .cancelled }).removeQueuedMember c.key i

/-- `Task.cancel` of a caller that has not ended its call. -/
def cancel (w : DispatcherWorld) (i : Nat) : DispatcherWorld :=
  w.updateCall i fun c =>
    match c.phase with
    | .ended _ => c
    | _ => { c with cancelRequested := true }

end DispatcherWorld

/-- An event of the loop.  `now` is `loop.time()`. -/
inductive DispatcherEvent
  | dispatch (adapter : Nat) (request : VisionInferenceRequest) (now : Rat)
  | cancel (call : Nat)
  | resume (call : Nat)
  | timer (task : Nat)
  | flush (task : Nat) (now : Rat)
  | answer (task : Nat) (answer : Except Raised (List AdapterOutcome))

namespace BoundedMicrobatchDispatcher

variable (D : BoundedMicrobatchDispatcher)

/-- A call whose request has been queued. -/
def newCall (key : QueueKey) (request : VisionInferenceRequest) (now : Rat) : DispatchCall :=
  ⟨key, ⟨request, .pending, now, false, false⟩, false, .shielded⟩

/-- The bucket of a key has one more call. -/
def enqueue (w : DispatcherWorld) (key : QueueKey) (request : VisionInferenceRequest) (now : Rat) :
    DispatcherWorld :=
  let bucket := (w.queues.get? key).getD [] ++ [w.calls.length]
  let queued := { w with
    calls := w.calls ++ [newCall key request now]
    queues := w.queues.set key bucket }
  if bucket.length = D.maxBatchSize then queued.startFlush key none
  else if bucket.length = 1 then
    { queued with
      timers := queued.timers.set key queued.timerTasks.length
      timerTasks := queued.timerTasks ++ [⟨key, .sleeping⟩] }
  else queued

/-- `dispatch`, up to its await.  Without a key it raises before anything is queued. -/
def dispatch (w : DispatcherWorld) (adapter : Nat) (request : VisionInferenceRequest) (now : Rat) :
    DispatcherWorld :=
  match batchCompatibilityKey request with
  | none => w
  | some compatible => D.enqueue w (adapter, compatible) request now

def next (w : DispatcherWorld) : DispatcherEvent → DispatcherWorld
  | .dispatch adapter request now => D.dispatch w adapter request now
  | .cancel call => w.cancel call
  | .resume call => w.resume call
  | .timer task => w.timerElapsed task
  | .flush task now => w.flush task now
  | .answer task answer => w.answer task answer

def run (w : DispatcherWorld) (events : List DispatcherEvent) : DispatcherWorld :=
  events.foldl D.next w

/-- The world after a run of events. -/
def after (events : List DispatcherEvent) : DispatcherWorld := D.run .initial events

end BoundedMicrobatchDispatcher
end Robata.Orchestration
