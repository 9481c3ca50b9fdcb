import Robata.Lib.Method
import Robata.Perception.WorkGraph
import Robata.Queue.Models

/-!
# The durable perception scheduler

`SQLitePerceptionWorkScheduler`: the statements its transactions consist of, and its
operations.  Every operation is one transaction, and one that raises writes nothing;
`claim_and_start` is two transactions.  The times a caller passes and the leases it presents
are arbitrary.
-/

namespace Robata.Perception

open Lib Contracts
open Method (transact)

def requireNonempty (value name : String) : Except SchedulerError Unit :=
  raiseIf (value.toList.all Queue.isPythonSpace) (.value (name ++ " must be a nonempty string"))

/-- `_positive_int`. -/
def requirePositive (value : Nat) (name : String) : Except SchedulerError Unit :=
  raiseIf (value == 0) (.value (name ++ " must be a positive integer"))

def requireSha256 (value name : String) : Except SchedulerError Unit :=
  raiseIf (!isSha256 value) (.value (name ++ " must be a lowercase SHA-256 digest"))

namespace PerceptionDb

variable (db : PerceptionDb)

/-! ## Lookups -/

def loadRun (runKey : String) : Except SchedulerError DurablePerceptionRun :=
  match db.runs.find? runKey with
  | some run => .ok run
  | none => .error (.key ("unknown durable perception run: " ++ runKey))

def loadItem (workItemId : String) : Except SchedulerError DurablePerceptionWorkItem :=
  match db.items.find? workItemId with
  | some item => .ok item
  | none => .error (.key ("unknown durable perception work: " ++ workItemId))

def findStage (runKey : String) (contextKey : Option String) (stage : PerceptionStage) :
    Except SchedulerError DurablePerceptionWorkItem :=
  match db.items.rows.find? fun i =>
      i.runKey == runKey && i.contextKey == contextKey && i.stage == stage with
  | some item => .ok item
  | none => .error (.scheduler "missing required upstream vNext stage")

def runIsSealed (runKey : String) : Except SchedulerError Bool := do
  let run ← db.loadRun runKey
  .ok run.derivedWorkSealed

/-- The check that a `FINALIZE` item is not touched before its run is sealed. -/
def requireSealed (item : DurablePerceptionWorkItem) (message : String) :
    Except SchedulerError Unit :=
  if item.stage = .finalize then do
    let isSealed ← db.runIsSealed item.runKey
    raiseIf (!isSealed) (.state message)
  else .ok ()

/-- The join of a work item with a sealed run. -/
def isSealed (runKey : String) : Bool :=
  (db.runs.find? runKey).any (·.derivedWorkSealed)

/-- An item waits for an upstream item. -/
def isBlocked (workItemId : String) : Bool :=
  db.dependencies.rows.any fun edge => edge.1 == workItemId &&
    (db.items.find? edge.2).any (·.state != .succeeded)

def liveLease (lease : DurablePerceptionWorkLease) (current : Instant) :
    Except SchedulerError DurablePerceptionWorkItem := do
  let item ← db.loadItem lease.workItemId
  raiseIf (item.leaseEpoch != lease.leaseEpoch || item.fencingToken != some lease.fencingToken ||
      item.leasedBy != some lease.workerId)
    (.fence "lease no longer owns the current fence")
  raiseIf (!(item.leaseExpiresAt.any fun expiry => decide (current < expiry)))
    (.fence "lease has expired")
  .ok item

/-! ## Inserts -/

/-- Insert a run; its key is the primary key. -/
def insertRun (run : DurablePerceptionRun) : Except SchedulerError PerceptionDb :=
  match db.runs.insert? run with
  | some runs => .ok { db with runs := runs }
  | none => .error (constraintFailed "perception_vnext_runs")

/-- Insert a context: the ordinal and the key of a context are unique in its run. -/
def insertContext (context : DurablePerceptionContext) : Except SchedulerError PerceptionDb := do
  raiseIf ((db.runs.find? context.runKey).isNone || db.contexts.rows.any fun c =>
      c.runKey == context.runKey && c.contextKey == context.contextKey)
    (constraintFailed "perception_vnext_contexts")
  match db.contexts.insert? context with
  | some contexts => .ok { db with contexts := contexts }
  | none => .error (constraintFailed "perception_vnext_contexts")

/-- One round of the loop over the contexts of `register_plan`. -/
def registerContext (context : DurablePerceptionContext) : Except SchedulerError PerceptionDb :=
  match db.contexts.find? (context.runKey, context.focusSegmentOrdinal) with
  | none => db.insertContext context
  | some existing => do
      raiseIf (existing != context)
        (.conflict "existing context ordinal has a different causal segment/context identity")
      .ok db

/-- Insert a work item: the identity and the logical key are unique. -/
def insertItem (item : DurablePerceptionWorkItem) : Except SchedulerError PerceptionDb := do
  raiseIf ((db.runs.find? item.runKey).isNone || db.items.rows.any fun i =>
      i.workLogicalKey == item.workLogicalKey)
    (constraintFailed "perception_vnext_work_items")
  match db.items.insert? item with
  | some items => .ok { db with items := items }
  | none => .error (constraintFailed "perception_vnext_work_items")

/-- `_insert_or_verify_work`; `_same_plan` compares the immutable columns. -/
def insertOrVerifyWork (item : DurablePerceptionWorkItem) : Except SchedulerError PerceptionDb :=
  match db.items.rows.find? fun i =>
      i.workItemId == item.workItemId || i.workLogicalKey == item.workLogicalKey with
  | some existing => do
      raiseIf (existing.toWorkPlan != item.toWorkPlan)
        (.conflict "work identity exists with a different immutable plan")
      .ok db
  | none => db.insertItem item

/-- `_dependency`; both ends are work items. -/
def dependency (downstream upstream : String) : Except SchedulerError PerceptionDb :=
  if (db.dependencies.find? (downstream, upstream)).isSome then .ok db
  else do
    raiseIf ((db.items.find? downstream).isNone || (db.items.find? upstream).isNone)
      (constraintFailed "perception_vnext_work_dependencies")
    match db.dependencies.insert? (downstream, upstream) with
    | some dependencies => .ok { db with dependencies := dependencies }
    | none => .error (constraintFailed "perception_vnext_work_dependencies")

/-- Insert an attempt: its token and its epoch are unique. -/
def insertAttempt (attempt : WorkAttempt) : Except SchedulerError PerceptionDb := do
  raiseIf ((db.items.find? attempt.workItemId).isNone || db.attempts.rows.any fun a =>
      a.fencingToken == attempt.fencingToken ||
        (a.workItemId == attempt.workItemId && a.leaseEpoch == attempt.leaseEpoch))
    (constraintFailed "perception_vnext_work_attempts")
  match db.attempts.insert? attempt with
  | some attempts => .ok { db with attempts := attempts }
  | none => .error (constraintFailed "perception_vnext_work_attempts")

/-! ## Updates -/

/-- `UPDATE perception_vnext_work_items`. -/
def updateItems (sel : DurablePerceptionWorkItem → Bool)
    (set : DurablePerceptionWorkItem → DurablePerceptionWorkItem)
    (hset : ∀ i, (set i).workItemId = i.workItemId) : PerceptionDb :=
  { db with items := db.items.updateWhere sel set hset }

/-- `UPDATE perception_vnext_work_items`, where exactly one row must change. -/
def updateItem (sel : DurablePerceptionWorkItem → Bool)
    (set : DurablePerceptionWorkItem → DurablePerceptionWorkItem)
    (hset : ∀ i, (set i).workItemId = i.workItemId) (message : String) :
    Except SchedulerError PerceptionDb := do
  raiseIf (db.items.rowcount sel != 1) (.fence message)
  .ok (db.updateItems sel set hset)

/-- `UPDATE perception_vnext_work_attempts`. -/
def updateAttempts (sel : WorkAttempt → Bool) (set : WorkAttempt → WorkAttempt)
    (hset : ∀ a, ((set a).workItemId, (set a).attemptNumber) = (a.workItemId, a.attemptNumber)) :
    PerceptionDb :=
  { db with attempts := db.attempts.updateWhere sel set hset }

def finishAttempt (lease : DurablePerceptionWorkLease) (current : Instant)
    (outcome : AttemptOutcome) (code detail : Option String) :
    Except SchedulerError PerceptionDb := do
  let sel := fun a : WorkAttempt => a.workItemId == lease.workItemId &&
    a.leaseEpoch == lease.leaseEpoch && a.fencingToken == lease.fencingToken && a.outcome == .active
  raiseIf (db.attempts.rowcount sel != 1) (.fence "attempt changed before terminal acceptance")
  .ok (db.updateAttempts sel
    (fun a => { a with
      completedAt := some current
      outcome := outcome
      errorCode := code
      errorDetail := detail }) fun _ => rfl)

/-- The items `_refresh_ready` selects. -/
def isReleased (runKey : Option String) (item : DurablePerceptionWorkItem) : Bool :=
  item.state == .planned && runKey.all (fun key => item.runKey == key) &&
    (db.runs.find? item.runKey).isSome && (item.stage != .finalize || db.isSealed item.runKey) &&
    !db.isBlocked item.workItemId

def refreshReady (runKey : Option String) (current : Instant) : Nat × PerceptionDb :=
  let ids := (db.items.rows.filter (db.isReleased runKey)).map (·.workItemId)
  let sel := fun i : DurablePerceptionWorkItem => ids.contains i.workItemId && i.state == .planned
  (db.items.rowcount sel,
    db.updateItems sel (fun i => { i with state := .ready, updatedAt := current }) fun _ => rfl)

/-- The columns an item loses with an expired lease. -/
def expired (nextState : DurablePerceptionWorkState) (current : Instant)
    (i : DurablePerceptionWorkItem) : DurablePerceptionWorkItem :=
  { i with
    state := nextState
    fencingToken := none
    leasedBy := none
    leaseExpiresAt := none
    retryNotBeforeAt := none
    updatedAt := current }

/-- One round of the loop of `_recover_expired`, on a row it has selected. -/
def recoverItem (current : Instant) (changed : Nat × PerceptionDb)
    (item : DurablePerceptionWorkItem) : Nat × PerceptionDb :=
  let nextState := if item.attempt < item.maxAttempts then .ready else .failedPermanent
  let sel := fun i : DurablePerceptionWorkItem => i.workItemId == item.workItemId &&
    i.leaseEpoch == item.leaseEpoch && i.fencingToken.isSome &&
    i.fencingToken == item.fencingToken && i.state.isActive
  if changed.2.items.rowcount sel = 1 then
    let db := changed.2.updateItems sel (expired nextState current) fun _ => rfl
    (changed.1 + 1, db.updateAttempts
      (fun a => a.workItemId == item.workItemId && a.leaseEpoch == item.leaseEpoch &&
        item.fencingToken == some a.fencingToken && a.outcome == .active)
      (fun a => { a with
        completedAt := some current
        outcome := .abandoned
        errorCode := some "LEASE_EXPIRED"
        errorDetail := some "worker lease expired before terminal acceptance" }) fun _ => rfl)
  else changed

def recoverExpired (current : Instant) : Nat × PerceptionDb :=
  (db.items.rows.filter fun i => i.state.isActive &&
    i.leaseExpiresAt.any fun expiry => timestampLe expiry current).foldl
      (recoverItem current) (0, db)

def promoteRetryWait (current : Instant) : Nat × PerceptionDb :=
  let sel := fun i : DurablePerceptionWorkItem => i.state == .retryWait &&
    i.retryNotBeforeAt.any fun due => timestampLe due current
  (db.items.rowcount sel,
    db.updateItems sel
      (fun i => { i with state := .ready, retryNotBeforeAt := none, updatedAt := current })
      fun _ => rfl)

/-! ## Operations -/

section Operations

variable (S : SchedulerHashing) (policy : String)

/-- The run of a registration: the stored row, or a new one. -/
def registerRun (run : DurablePerceptionRun) :
    Except SchedulerError (DurablePerceptionRun × PerceptionDb) :=
  match db.runs.find? run.runKey with
  | none => do
      let db ← db.insertRun run
      .ok (run, db)
  | some persisted => do
      -- `_same_run_configuration`, and the bytes of the plan
      raiseIf (persisted.planKey != run.planKey ||
          persisted.planSemanticSha256 != run.planSemanticSha256 ||
          persisted.codecPolicyVersion != run.codecPolicyVersion ||
          persisted.schedulerPolicyVersion != run.schedulerPolicyVersion ||
          persisted.configSha256 != run.configSha256 || persisted.planJson != run.planJson)
        (.conflict "existing vNext run identity has a different durable configuration")
      .ok (persisted, db)

def registerPlan (plan : MageStreamPlan) (codecPolicyVersion : String) (maxAttempts : Nat)
    (current : Instant) : Except SchedulerError (DurablePerceptionRun × PerceptionDb) := do
  requireNonempty codecPolicyVersion "codec_policy_version"
  requirePositive maxAttempts "max_attempts"
  let run := runOf S policy plan codecPolicyVersion current
  let contexts := plan.reasoningContexts.map (contextOf run.runKey)
  let registered ← db.registerRun run
  let db ← contexts.foldlM registerContext registered.2
  let work := normalWork S policy registered.1 contexts maxAttempts current
  let db ← work.foldlM insertOrVerifyWork db
  let edges ← normalDependencies (work.map (·.toWorkNode))
  let db ← edges.foldlM (fun db edge => db.dependency edge.1 edge.2) db
  .ok (registered.1, (db.refreshReady (some run.runKey) current).2)

def sealDerivedWork (runKey : String) (current : Instant) :
    Except SchedulerError (DurablePerceptionRun × PerceptionDb) := do
  requireNonempty runKey "run_key"
  let run ← db.loadRun runKey
  if run.derivedWorkSealed then .ok (run, db)
  else do
    raiseIf (db.items.rows.any fun i => i.runKey == runKey &&
        exceptionStages.contains i.stage && i.state != .succeeded)
      (.state "all declared derived work must be SUCCEEDED before the run can be sealed")
    let closed := { db with
      runs := db.runs.updateWhere (·.runKey == runKey)
        (fun r => { r with derivedWorkSealed := true }) fun _ => rfl }
    let refreshed := (closed.refreshReady (some runKey) current).2
    let run ← refreshed.loadRun runKey
    .ok (run, refreshed)

def reconcile (current : Instant) : Nat × PerceptionDb :=
  let recovered := db.recoverExpired current
  let promoted := recovered.2.promoteRetryWait current
  let refreshed := promoted.2.refreshReady none current
  (recovered.1 + promoted.1 + refreshed.1, refreshed.2)

/-- `ORDER BY stage_order, focus_segment_ordinal, work_item_id`. -/
def claimOrder (a b : DurablePerceptionWorkItem) : Bool :=
  stageOrder a.stage < stageOrder b.stage || (stageOrder a.stage == stageOrder b.stage &&
    (a.ordinalKey < b.ordinalKey || (a.ordinalKey == b.ordinalKey && a.workItemId ≤ b.workItemId)))

/-- The `READY` item a claim selects. -/
def nextClaim (runKey workItemId : Option String) : Option DurablePerceptionWorkItem :=
  ((db.items.rows.filter fun i => i.state == .ready && runKey.all (fun key => i.runKey == key) &&
    workItemId.all (fun id => i.workItemId == id) &&
    (i.stage != .finalize || db.isSealed i.runKey)).insertionSort fun a b => claimOrder a b).head?

def leaseItem (workerId : String) (leaseDurationSeconds : Nat) (token : String)
    (current : Instant) (item : DurablePerceptionWorkItem) :
    Except SchedulerError ((DurablePerceptionWorkItem × DurablePerceptionWorkLease) ×
      PerceptionDb) := do
  let epoch := item.leaseEpoch + 1
  let expires ← plusSeconds current leaseDurationSeconds
  let db ← db.updateItem
    (fun i => i.workItemId == item.workItemId && i.state == .ready &&
      i.leaseEpoch == item.leaseEpoch)
    (fun i => { i with
      state := .leased
      leaseEpoch := epoch
      fencingToken := some token
      leasedBy := some workerId
      leaseExpiresAt := some expires
      attempt := i.attempt + 1
      retryNotBeforeAt := none
      updatedAt := current }) (fun _ => rfl) "ready work changed while being claimed"
  let db ← db.insertAttempt
    { workItemId := item.workItemId
      attemptNumber := item.attempt + 1
      leaseEpoch := epoch
      fencingToken := token
      workerId := workerId
      claimedAt := current
      startedAt := none
      completedAt := none
      outcome := .active
      errorCode := none
      errorDetail := none }
  let leased ← db.loadItem item.workItemId
  .ok ((leased, ⟨leased.workItemId, workerId, epoch, token, expires⟩), db)

/-- `claim`; the token is that of `uuid4`. -/
def claim (workerId : String) (leaseDurationSeconds : Nat) (runKey workItemId : Option String)
    (token : String) (current : Instant) :
    Except SchedulerError (Option (DurablePerceptionWorkItem × DurablePerceptionWorkLease) ×
      PerceptionDb) := do
  requireNonempty workerId "worker_id"
  requirePositive leaseDurationSeconds "lease_duration_seconds"
  runKey.forM fun key => requireNonempty key "run_key"
  workItemId.forM fun id => requireNonempty id "work_item_id"
  let db := (db.recoverExpired current).2
  let db := (db.promoteRetryWait current).2
  let db := (db.refreshReady runKey current).2
  match db.nextClaim runKey workItemId with
  | none => .ok (none, db)
  | some item => do
      let leased ← db.leaseItem workerId leaseDurationSeconds token current item
      .ok (some leased.1, leased.2)

def start (lease : DurablePerceptionWorkLease) (current : Instant) :
    Except SchedulerError (DurablePerceptionWorkItem × PerceptionDb) := do
  let item ← db.liveLease lease current
  db.requireSealed item "FINALIZE cannot start before derived work is sealed"
  if item.state = .running then .ok (item, db)
  else do
    raiseIf (item.state != .leased) (.state "only leased work can start")
    let db ← db.updateItem
      (fun i => i.workItemId == item.workItemId && i.state == .leased &&
        i.leaseEpoch == lease.leaseEpoch && i.fencingToken == some lease.fencingToken)
      (fun i => { i with state := .running, updatedAt := current }) (fun _ => rfl)
      "lease changed while starting"
    let db := db.updateAttempts
      (fun a => a.workItemId == item.workItemId && a.leaseEpoch == lease.leaseEpoch &&
        a.fencingToken == lease.fencingToken)
      (fun a => { a with startedAt := some current }) fun _ => rfl
    let item ← db.loadItem item.workItemId
    .ok (item, db)

def heartbeat (lease : DurablePerceptionWorkLease) (leaseDurationSeconds : Nat)
    (current : Instant) : Except SchedulerError (DurablePerceptionWorkLease × PerceptionDb) := do
  requirePositive leaseDurationSeconds "lease_duration_seconds"
  let item ← db.liveLease lease current
  raiseIf (!item.state.isActive) (.state "only active work can heartbeat")
  let expires ← plusSeconds current leaseDurationSeconds
  let db ← db.updateItem
    (fun i => i.workItemId == item.workItemId && i.leaseEpoch == lease.leaseEpoch &&
      i.fencingToken == some lease.fencingToken)
    (fun i => { i with leaseExpiresAt := some expires, updatedAt := current }) (fun _ => rfl)
    "lease changed while heartbeating"
  .ok ({ lease with leaseExpiresAt := expires }, db)

/-- The columns an accepted result writes. -/
def accepted (resultReference resultSha256 : String) (current : Instant)
    (i : DurablePerceptionWorkItem) : DurablePerceptionWorkItem :=
  { i with
    state := .succeeded
    fencingToken := none
    leasedBy := none
    leaseExpiresAt := none
    resultReference := some resultReference
    resultSha256 := some resultSha256
    updatedAt := current }

def succeed (lease : DurablePerceptionWorkLease) (resultReference resultSha256 : String)
    (current : Instant) : Except SchedulerError (DurablePerceptionWorkItem × PerceptionDb) := do
  requireNonempty resultReference "result_reference"
  requireSha256 resultSha256 "result_sha256"
  let item ← db.loadItem lease.workItemId
  db.requireSealed item "FINALIZE cannot succeed before derived work is sealed"
  if item.state = .succeeded then do
    raiseIf (item.resultReference != some resultReference || item.resultSha256 != some resultSha256)
      (.conflict "successful work received a different artifact")
    .ok (item, db)
  else do
    let item ← db.liveLease lease current
    raiseIf (item.state != .running) (.state "only running work can succeed")
    let db ← db.updateItem
      (fun i => i.workItemId == item.workItemId && i.state == .running &&
        i.leaseEpoch == lease.leaseEpoch && i.fencingToken == some lease.fencingToken)
      (accepted resultReference resultSha256 current) (fun _ => rfl)
      "lease changed while succeeding"
    let db ← db.finishAttempt lease current .succeeded none none
    let db := (db.refreshReady (some item.runKey) current).2
    let item ← db.loadItem item.workItemId
    .ok (item, db)

/-- The time before which a failed item is not tried again. -/
def retryNotBefore (retry : Bool) (current : Instant) (retryDelaySeconds : Nat) :
    Except SchedulerError (Option Instant) :=
  if retry then (plusSeconds current retryDelaySeconds).map some else .ok none

def fail (lease : DurablePerceptionWorkLease) (errorCode : String) (retryable : Bool)
    (errorDetail : Option String) (retryDelaySeconds : Nat) (current : Instant) :
    Except SchedulerError (DurablePerceptionWorkItem × PerceptionDb) := do
  requireNonempty errorCode "error_code"
  errorDetail.forM fun detail => requireNonempty detail "error_detail"
  let item ← db.liveLease lease current
  raiseIf (!item.state.isActive) (.state "only active work can fail")
  let retry := retryable && decide (item.attempt < item.maxAttempts)
  let retryAt ← retryNotBefore retry current retryDelaySeconds
  let db ← db.updateItem
    (fun i => i.workItemId == item.workItemId && i.leaseEpoch == lease.leaseEpoch &&
      i.fencingToken == some lease.fencingToken && i.state.isActive)
    (fun i => { i with
      state := if retry then .retryWait else .failedPermanent
      fencingToken := none
      leasedBy := none
      leaseExpiresAt := none
      retryNotBeforeAt := retryAt
      updatedAt := current }) (fun _ => rfl) "lease changed while failing"
  let db ← db.finishAttempt lease current
    (if retry then .failedRetryable else .failedPermanent) (some errorCode) errorDetail
  let db := if retry then db else (db.refreshReady (some item.runKey) current).2
  let item ← db.loadItem item.workItemId
  .ok (item, db)

/-- The upstream item of derived work. -/
def derivedUpstream (runKey : String) (context : DurablePerceptionContext) :
    Option String → Except SchedulerError DurablePerceptionWorkItem
  | none => db.findStage runKey (some context.contextKey) .temporalReconcile
  | some upstreamWorkItemId => do
      let _ ← db.findStage runKey (some context.contextKey) .temporalReconcile
      let upstream ← db.loadItem upstreamWorkItemId
      raiseIf (upstream.runKey != runKey || upstream.contextKey != some context.contextKey ||
          upstream.stage != .fusion)
        (.state "PERCEPTION_REFINE upstream must be FUSION for the same context")
      .ok upstream

def scheduleDerived (runKey : String) (focusSegmentOrdinal : Nat) (stage : PerceptionStage)
    (inputSha256 configSha256 : String) (maxAttempts : Nat) (upstreamWorkItemId : Option String)
    (current : Instant) : Except SchedulerError (DurablePerceptionWorkItem × PerceptionDb) := do
  raiseIf (!exceptionStages.contains stage)
    (.value "only FUSION or PERCEPTION_REFINE is post-context derived work")
  requireNonempty runKey "run_key"
  requireSha256 inputSha256 "input_sha256"
  requireSha256 configSha256 "config_sha256"
  requirePositive maxAttempts "max_attempts"
  upstreamWorkItemId.forM fun id => requireNonempty id "upstream_work_item_id"
  raiseIf (stage == .perceptionRefine && upstreamWorkItemId.isNone)
    (.value "PERCEPTION_REFINE requires an upstream FUSION work item")
  raiseIf (stage == .fusion && upstreamWorkItemId.isSome)
    (.value "FUSION must not declare an upstream derived work item")
  let run ← db.loadRun runKey
  raiseIf run.derivedWorkSealed
    (.state "derived work is sealed; no late FUSION or PERCEPTION_REFINE may be scheduled")
  match db.contexts.find? (runKey, focusSegmentOrdinal) with
  | none => .error (.key "unknown context for exceptional perception work")
  | some context => do
      let item := workItem S policy run (some context) stage inputSha256 configSha256 maxAttempts
        current upstreamWorkItemId
      let db ← db.insertOrVerifyWork item
      let upstream ← db.derivedUpstream runKey context upstreamWorkItemId
      let db ← db.dependency item.workItemId upstream.workItemId
      let finalize ← db.findStage runKey none .finalize
      let db ← db.dependency finalize.workItemId item.workItemId
      let db := (db.refreshReady (some runKey) current).2
      let item ← db.loadItem item.workItemId
      .ok (item, db)

end Operations

end PerceptionDb

/-! ## Calls -/

/-- A call of the scheduler, by a worker or by the code that plans the work. -/
inductive SchedulerCall
  | registerPlan (plan : MageStreamPlan) (codecPolicyVersion : String) (maxAttempts : Nat)
  | scheduleDerived (runKey : String) (focusSegmentOrdinal : Nat) (stage : PerceptionStage)
      (inputSha256 configSha256 : String) (maxAttempts : Nat) (upstreamWorkItemId : Option String)
  | sealDerivedWork (runKey : String)
  | claim (workerId : String) (leaseDurationSeconds : Nat) (runKey workItemId : Option String)
      (token : String)
  | claimAndStart (workerId : String) (leaseDurationSeconds : Nat)
      (runKey workItemId : Option String) (token : String) (startedAt : Instant)
  | start (lease : DurablePerceptionWorkLease)
  | heartbeat (lease : DurablePerceptionWorkLease) (leaseDurationSeconds : Nat)
  | succeed (lease : DurablePerceptionWorkLease) (resultReference resultSha256 : String)
  | fail (lease : DurablePerceptionWorkLease) (errorCode : String) (retryable : Bool)
      (errorDetail : Option String) (retryDelaySeconds : Nat)
  | reconcile

section Calls

variable (S : SchedulerHashing) (policy : String)

/-- `claim_and_start`: a claim, and then the start of what it claimed. -/
def PerceptionDb.claimAndStart (workerId : String) (leaseDurationSeconds : Nat)
    (runKey workItemId : Option String) (token : String) (current startedAt : Instant) :
    Method PerceptionDb SchedulerError
      (Option (DurablePerceptionWorkItem × DurablePerceptionWorkLease)) := do
  let claimed ← transact fun db =>
    db.claim workerId leaseDurationSeconds runKey workItemId token current
  match claimed with
  | none => pure none
  | some (_, lease) => do
      let item ← transact (·.start lease startedAt)
      pure (some (item, lease))

/-- The tables after a call at a time, whether it returns or raises. -/
def SchedulerCall.after (current : Instant) (db : PerceptionDb) : SchedulerCall → PerceptionDb
  | .registerPlan plan codecPolicyVersion maxAttempts =>
    (transact (fun db => db.registerPlan S policy plan codecPolicyVersion maxAttempts current) db).2
  | .scheduleDerived runKey focusSegmentOrdinal stage inputSha256 configSha256 maxAttempts
      upstreamWorkItemId =>
      (transact (fun db => db.scheduleDerived S policy runKey focusSegmentOrdinal stage
        inputSha256 configSha256 maxAttempts upstreamWorkItemId current) db).2
  | .sealDerivedWork runKey => (transact (·.sealDerivedWork runKey current) db).2
  | .claim workerId leaseDurationSeconds runKey workItemId token =>
    (transact (fun db => db.claim workerId leaseDurationSeconds runKey workItemId token
      current) db).2
  | .claimAndStart workerId leaseDurationSeconds runKey workItemId token startedAt =>
    (PerceptionDb.claimAndStart workerId leaseDurationSeconds runKey workItemId token current startedAt db).2
  | .start lease => (transact (·.start lease current) db).2
  | .heartbeat lease leaseDurationSeconds =>
    (transact (·.heartbeat lease leaseDurationSeconds current) db).2
  | .succeed lease resultReference resultSha256 =>
    (transact (·.succeed lease resultReference resultSha256 current) db).2
  | .fail lease errorCode retryable errorDetail retryDelaySeconds =>
    (transact (fun db => db.fail lease errorCode retryable errorDetail retryDelaySeconds
      current) db).2
  | .reconcile => (db.reconcile current).2

/-- The calls on one database file: each with the policy of the scheduler object that makes
it and a time. -/
def PerceptionDb.afterCalls (db : PerceptionDb) (calls : List (String × Instant × SchedulerCall)) :
    PerceptionDb :=
  calls.foldl (fun db c => c.2.2.after S c.1 c.2.1 db) db

end Calls

end Robata.Perception
