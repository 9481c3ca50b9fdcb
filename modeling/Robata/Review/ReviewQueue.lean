import Robata.Review.ReviewModels

/-!
# The durable review queue

`SQLiteReviewQueue`: three tables and the five methods that write them.  A method is one
`BEGIN IMMEDIATE` transaction: it returns, and with it the rows it has written, or it raises
and writes nothing.  The columns of a task row that the trigger
`review_tasks_immutable_definition` protects are one field, `definition`.

The `CHECK`, `UNIQUE` and `FOREIGN KEY` clauses of the schema are checked by every insert and
update, in this order.
-/

namespace Robata.Review

open Contracts Lib

/-! ## Tables -/

/-- The immutable columns of a task row. -/
structure TaskDefinition where
  (reviewTaskId requestId : OpaqueUuid)
  taskSemanticSha256 : Sha256Digest
  priority : Nat
  (requestedAtNs dueAtNs : Int)
  taskJson : List UInt8
  taskExactSha256 : Sha256Digest

structure TaskRow where
  definition : TaskDefinition
  status : ReviewTaskStatus
  (leaseFence attemptCount : Nat)
  leaseOwner : Option String
  leaseExpiresAtNs : Option Int
  completedAnnotationId : Option OpaqueUuid

namespace TaskRow

variable (r : TaskRow)

def reviewTaskId : OpaqueUuid := r.definition.reviewTaskId

/-- The `CHECK` clauses of `review_tasks`. -/
def check : Bool :=
  decide (r.definition.requestedAtNs < r.definition.dueAtNs) && r.attemptCount == r.leaseFence &&
    match r.status with
    | .pending => r.leaseOwner.isNone && r.leaseExpiresAtNs.isNone &&
        r.completedAnnotationId.isNone
    | .leased => r.leaseOwner.isSome && r.leaseExpiresAtNs.isSome &&
        r.completedAnnotationId.isNone && decide (0 < r.leaseFence)
    | .completed => r.leaseOwner.isNone && r.leaseExpiresAtNs.isNone &&
        r.completedAnnotationId.isSome

/-- The `WHERE` clause of `claim_next`. -/
def claimable (nowNs : Int) : Bool :=
  r.status == .pending ||
    (r.status == .leased && r.leaseExpiresAtNs.any fun expiry => decide (expiry ≤ nowNs))

/-- `ORDER BY priority, due_at_ns, requested_at_ns, review_task_id`. -/
def scheduledBefore (q : TaskRow) : Bool :=
  let d := r.definition
  let e := q.definition
  d.priority < e.priority || (d.priority == e.priority && (d.dueAtNs < e.dueAtNs ||
    (d.dueAtNs == e.dueAtNs && (d.requestedAtNs < e.requestedAtNs ||
      (d.requestedAtNs == e.requestedAtNs && d.reviewTaskId ≤ e.reviewTaskId)))))

/-- The columns set by `claim_next`. -/
def lease (fence : Nat) (worker : String) (expiresAt : Int) : TaskRow :=
  { r with
    status := .leased
    leaseFence := fence
    attemptCount := fence
    leaseOwner := some worker
    leaseExpiresAtNs := some expiresAt
    completedAnnotationId := none }

/-- The column set by `renew_lease`. -/
def renew (expiresAt : Int) : TaskRow :=
  { r with leaseExpiresAtNs := some expiresAt }

/-- The columns set by `submit_annotation`. -/
def complete (annotationId : OpaqueUuid) : TaskRow :=
  { r with
    status := .completed
    leaseOwner := none
    leaseExpiresAtNs := none
    completedAnnotationId := some annotationId }

/-- The columns set by `reopen`. -/
def reopen : TaskRow :=
  { r with status := .pending, completedAnnotationId := none }

end TaskRow

structure AnnotationRow where
  (annotationId reviewTaskId : OpaqueUuid)
  leaseFence : Nat
  annotationSemanticSha256 : Sha256Digest
  annotationJson : List UInt8
  annotationExactSha256 : Sha256Digest

structure ReopenRow where
  (reopenId reviewTaskId expectedAnnotationId : OpaqueUuid)
  commandSemanticSha256 : Sha256Digest
  commandJson : List UInt8
  commandExactSha256 : Sha256Digest

/-- The database of a queue. -/
structure ReviewDb where
  tasks : KeyedTable TaskRow OpaqueUuid (·.definition.reviewTaskId)
  annotations : KeyedTable AnnotationRow OpaqueUuid (·.annotationId)
  reopens : KeyedTable ReopenRow OpaqueUuid (·.reopenId)

def ReviewDb.empty : ReviewDb := ⟨.empty, .empty, .empty⟩

/-! ## Rows of documents -/

/-- The row `enqueue` inserts. -/
def taskRow (task : ReviewTask) (payload : List UInt8) (payloadSha256 : Sha256Digest) :
    TaskRow where
  definition :=
    { reviewTaskId := task.reviewTaskId
      requestId := task.requestId
      taskSemanticSha256 := task.semanticSha256
      priority := task.priority
      requestedAtNs := task.requestedAtNs
      dueAtNs := task.dueAtNs
      taskJson := payload
      taskExactSha256 := payloadSha256 }
  status := .pending
  leaseFence := 0
  attemptCount := 0
  leaseOwner := none
  leaseExpiresAtNs := none
  completedAnnotationId := none

/-- The row `submit_annotation` inserts. -/
def annotationRow (submitted : ReviewAnnotation) (payload : List UInt8)
    (payloadSha256 : Sha256Digest) : AnnotationRow where
  annotationId := submitted.annotationId
  reviewTaskId := submitted.reviewTaskId
  leaseFence := submitted.leaseFence
  annotationSemanticSha256 := submitted.semanticSha256
  annotationJson := payload
  annotationExactSha256 := payloadSha256

/-- The row `reopen` inserts. -/
def reopenRow (command : ReviewReopenCommand) (payload : List UInt8)
    (payloadSha256 : Sha256Digest) : ReopenRow where
  reopenId := command.reopenId
  reviewTaskId := command.reviewTaskId
  expectedAnnotationId := command.expectedAnnotationId
  commandSemanticSha256 := command.semanticSha256
  commandJson := payload
  commandExactSha256 := payloadSha256

/-! ## Statements -/

namespace ReviewDb

variable (db : ReviewDb)

/-- `INSERT INTO review_tasks`. -/
def insertTask (row : TaskRow) : Except ReviewFailure ReviewDb := do
  refuse (!row.check) (constraintFailure "CHECK constraint failed: review_tasks")
  refuse (db.tasks.rows.any (·.definition.requestId == row.definition.requestId))
    (constraintFailure "UNIQUE constraint failed: review_tasks.request_id")
  refuse (db.tasks.rows.any fun r =>
      r.definition.taskSemanticSha256 == row.definition.taskSemanticSha256)
    (constraintFailure "UNIQUE constraint failed: review_tasks.task_semantic_sha256")
  match db.tasks.insert? row with
  | some tasks => .ok { db with tasks := tasks }
  | none => .error (constraintFailure "UNIQUE constraint failed: review_tasks.review_task_id")

/-- `UPDATE review_tasks`: the definition is not among the columns set. -/
def updateTasks (sel : TaskRow → Bool) (set : TaskRow → TaskRow)
    (hset : ∀ r, (set r).definition = r.definition) : Except ReviewFailure ReviewDb := do
  refuse (db.tasks.rows.any fun r => sel r && !(set r).check)
    (constraintFailure "CHECK constraint failed: review_tasks")
  .ok { db with
    tasks := db.tasks.updateWhere sel set fun r =>
      congrArg TaskDefinition.reviewTaskId (hset r) }

/-- `INSERT INTO review_annotations`. -/
def insertAnnotation (row : AnnotationRow) : Except ReviewFailure ReviewDb := do
  refuse (row.leaseFence == 0) (constraintFailure "CHECK constraint failed: review_annotations")
  refuse (db.annotations.rows.any fun a =>
      a.annotationSemanticSha256 == row.annotationSemanticSha256)
    (constraintFailure "UNIQUE constraint failed: review_annotations.annotation_semantic_sha256")
  refuse (db.annotations.rows.any fun a =>
      a.reviewTaskId == row.reviewTaskId && a.leaseFence == row.leaseFence)
    (constraintFailure
      "UNIQUE constraint failed: review_annotations.review_task_id, review_annotations.lease_fence")
  refuse (db.tasks.find? row.reviewTaskId).isNone
    (constraintFailure "FOREIGN KEY constraint failed")
  match db.annotations.insert? row with
  | some annotations => .ok { db with annotations := annotations }
  | none =>
    .error (constraintFailure "UNIQUE constraint failed: review_annotations.annotation_id")

/-- `INSERT INTO review_reopen_commands`. -/
def insertReopen (row : ReopenRow) : Except ReviewFailure ReviewDb := do
  refuse (db.tasks.find? row.reviewTaskId).isNone
    (constraintFailure "FOREIGN KEY constraint failed")
  refuse (db.annotations.find? row.expectedAnnotationId).isNone
    (constraintFailure "FOREIGN KEY constraint failed")
  match db.reopens.insert? row with
  | some reopens => .ok { db with reopens := reopens }
  | none =>
    .error (constraintFailure "UNIQUE constraint failed: review_reopen_commands.reopen_id")

/-- The row `claim_next` selects. -/
def nextClaimable (nowNs : Int) : Option TaskRow :=
  ((db.tasks.rows.filter (·.claimable nowNs)).insertionSort fun a b =>
    a.scheduledBefore b).head?

end ReviewDb

/-! ## Decoding -/

section Decoding

variable (codec : ReviewCodec) (registry : ReviewRegistry)

def snapshotFromRow (row : TaskRow) : Except ReviewFailure ReviewTaskSnapshot := do
  let task ← decodeModel codec.exactBytesSha256 codec.task row.definition.taskJson
    row.definition.taskExactSha256
  validatePersisted registry.task task "review task"
  let d := row.definition
  [(d.reviewTaskId != task.reviewTaskId, "review_task_id"),
    (d.requestId != task.requestId, "request_id"),
    (d.taskSemanticSha256 != task.semanticSha256, "task_semantic_sha256"),
    (d.priority != task.priority, "priority"),
    (d.requestedAtNs != task.requestedAtNs, "requested_at_ns"),
    (d.dueAtNs != task.dueAtNs, "due_at_ns")].forM fun column =>
      refuse column.1
        (integrityError ("review task indexed " ++ column.2 ++ " disagrees with payload"))
  let snapshot : ReviewTaskSnapshot :=
    { task := task
      status := row.status
      leaseFence := row.leaseFence
      attemptCount := row.attemptCount
      leaseOwner := row.leaseOwner
      leaseExpiresAtNs := row.leaseExpiresAtNs
      completedAnnotationId := row.completedAnnotationId }
  refuse (!snapshot.fieldsValid) (integrityError "invalid persisted review task state")
  match snapshot.validateState with
  | .ok () => .ok snapshot
  | .error text => .error (integrityError ("invalid persisted review task state: " ++ text))

def annotationFromRow (row : AnnotationRow) : Except ReviewFailure ReviewAnnotation := do
  let submitted ← decodeModel codec.exactBytesSha256 codec.annotation row.annotationJson
    row.annotationExactSha256
  validatePersisted registry.annotation submitted "review annotation"
  [(row.annotationId != submitted.annotationId, "annotation_id"),
    (row.reviewTaskId != submitted.reviewTaskId, "review_task_id"),
    (row.leaseFence != submitted.leaseFence, "lease_fence"),
    (row.annotationSemanticSha256 != submitted.semanticSha256,
      "annotation_semantic_sha256")].forM fun column =>
      refuse column.1
        (integrityError ("annotation indexed " ++ column.2 ++ " disagrees with payload"))
  .ok submitted

def reopenFromRow (row : ReopenRow) : Except ReviewFailure ReviewReopenCommand := do
  let command ← decodeModel codec.exactBytesSha256 codec.command row.commandJson
    row.commandExactSha256
  validatePersisted registry.command command "review reopen command"
  [(row.reopenId != command.reopenId, "reopen_id"),
    (row.reviewTaskId != command.reviewTaskId, "review_task_id"),
    (row.expectedAnnotationId != command.expectedAnnotationId, "expected_annotation_id"),
    (row.commandSemanticSha256 != command.semanticSha256,
      "command_semantic_sha256")].forM fun column =>
      refuse column.1 (integrityError ("reopen indexed " ++ column.2 ++ " disagrees with payload"))
  .ok command

def requiredSnapshot (db : ReviewDb) (reviewTaskId : OpaqueUuid) :
    Except ReviewFailure ReviewTaskSnapshot :=
  match db.tasks.find? reviewTaskId with
  | none => .error (.queue .taskNotFound ("review task not found: " ++ reviewTaskId))
  | some row => snapshotFromRow codec registry row

def requireMatchingLease (snapshot : ReviewTaskSnapshot) (worker : String) (fence nowNs : Int) :
    Except ReviewFailure Unit := do
  refuse (snapshot.status != .leased || (snapshot.leaseFence : Int) != fence ||
      snapshot.leaseOwner != some worker)
    (.queue .staleFence "review lease owner or fence is stale")
  match snapshot.leaseExpiresAtNs with
  | none => .error (integrityError "leased review task has no expiry")
  | some expiry =>
    refuse (decide (expiry ≤ nowNs)) (.queue .leaseExpired "review lease has expired")

end Decoding

/-! ## Methods -/

structure EnqueuedReviewTask where
  task : ReviewTask
  inserted : Bool

structure SubmittedReviewAnnotation where
  annotation : ReviewAnnotation
  inserted : Bool

structure ReopenedReviewTask where
  command : ReviewReopenCommand
  snapshot : ReviewTaskSnapshot
  applied : Bool

section Methods

variable (codec : ReviewCodec) (registry : ReviewRegistry)

def enqueue (db : ReviewDb) (task : ReviewTask) :
    Except ReviewFailure (EnqueuedReviewTask × ReviewDb) := do
  validateForWrite registry.task task "review task"
  let stored ← encodeModel codec.exactBytesSha256 codec.task task
  match db.tasks.rows.filter fun r =>
      r.definition.reviewTaskId == task.reviewTaskId ||
        r.definition.requestId == task.requestId with
  | [] =>
    let db ← db.insertTask (taskRow task stored.1 stored.2)
    .ok (⟨task, true⟩, db)
  | [row] =>
    let existing ← snapshotFromRow codec registry row
    if existing.task = task then
      .ok (⟨existing.task, false⟩, db)
    else
      .error (.queue .taskConflict
        "review request or task identity already has different immutable content")
  | _ => .error (integrityError "review task identities resolve to multiple rows")

def claimNext (db : ReviewDb) (workerId : String) (nowNs leaseDurationNs : Int) :
    Except ReviewFailure (Option ReviewLease × ReviewDb) := do
  nonemptyString workerId "worker_id"
  nanoseconds nowNs "now_ns"
  positiveDuration leaseDurationNs
  let expiresAt ← checkedAdd nowNs leaseDurationNs "lease expiry"
  match db.nextClaimable nowNs with
  | none => .ok (none, db)
  | some row =>
    let snapshot ← snapshotFromRow codec registry row
    let nextFence := snapshot.leaseFence + 1
    refuse (decide (int64Max < (nextFence : Int)))
      (integrityError "review lease fence exhausted signed int64")
    let sel := fun r : TaskRow => r.definition.reviewTaskId == snapshot.task.reviewTaskId &&
      r.leaseFence == snapshot.leaseFence
    let claimed ← db.updateTasks sel (·.lease nextFence workerId expiresAt) fun _ => rfl
    refuse (db.tasks.rowcount sel != 1)
      (integrityError "review claim compare-and-swap did not update one row")
    let lease ← makeLease snapshot.task workerId nextFence expiresAt
    .ok (some lease, claimed)

def renewLease (db : ReviewDb) (reviewTaskId workerId : String) (leaseFence : Int)
    (nowNs leaseDurationNs : Int) : Except ReviewFailure (ReviewLease × ReviewDb) := do
  nonemptyString reviewTaskId "review_task_id"
  nonemptyString workerId "worker_id"
  positiveFence leaseFence
  nanoseconds nowNs "now_ns"
  positiveDuration leaseDurationNs
  let expiresAt ← checkedAdd nowNs leaseDurationNs "lease expiry"
  let snapshot ← requiredSnapshot codec registry db reviewTaskId
  requireMatchingLease snapshot workerId leaseFence nowNs
  let renewed ← db.updateTasks (·.definition.reviewTaskId == reviewTaskId)
    (·.renew expiresAt) fun _ => rfl
  let lease ← makeLease snapshot.task workerId snapshot.leaseFence expiresAt
  .ok (lease, renewed)

def submitAnnotation (db : ReviewDb) (submitted : ReviewAnnotation) (nowNs : Int) :
    Except ReviewFailure ( SubmittedReviewAnnotation × ReviewDb) := do
  nanoseconds nowNs "now_ns"
  validateForWrite registry.annotation submitted "review annotation"
  let stored ← encodeModel codec.exactBytesSha256 codec.annotation submitted
  match db.annotations.rows.filter fun a =>
      a.annotationId == submitted.annotationId ||
        (a.reviewTaskId == submitted.reviewTaskId && a.leaseFence == submitted.leaseFence) with
  | [] =>
    let snapshot ← requiredSnapshot codec registry db submitted.reviewTaskId
    refuse (snapshot.task.semanticSha256 != submitted.reviewTaskSemanticSha256)
      (.queue .annotationConflict "annotation references a different immutable review task")
    refuse (decide (snapshot.task.subject ≠ submitted.subject))
      (.queue .annotationConflict "annotation subject does not match the review task")
    requireMatchingLease snapshot submitted.leaseOwner submitted.leaseFence nowNs
    let inserted ← db.insertAnnotation (annotationRow submitted stored.1 stored.2)
    let sel := fun r : TaskRow => r.definition.reviewTaskId == submitted.reviewTaskId &&
      r.status == .leased && r.leaseFence == submitted.leaseFence
    let completed ← inserted.updateTasks sel (·.complete submitted.annotationId) fun _ => rfl
    refuse (inserted.tasks.rowcount sel != 1)
      (integrityError "annotation completion did not update one leased task")
    .ok (⟨submitted, true⟩, completed)
  | [row] =>
    let existing ← annotationFromRow codec registry row
    if existing = submitted then
      .ok (⟨existing, false⟩, db)
    else
      .error (.queue .annotationConflict "review lease attempt already has a different annotation")
  | _ => .error (integrityError "annotation identity resolves to multiple rows")

def reopen (db : ReviewDb) (command : ReviewReopenCommand) :
    Except ReviewFailure (ReopenedReviewTask × ReviewDb) := do
  validateForWrite registry.command command "review reopen command"
  let stored ← encodeModel codec.exactBytesSha256 codec.command command
  match db.reopens.find? command.reopenId with
  | some row =>
    let existing ← reopenFromRow codec registry row
    if existing = command then
      let snapshot ← requiredSnapshot codec registry db existing.reviewTaskId
      .ok (⟨existing, snapshot, false⟩, db)
    else
      .error (.queue .reopenConflict "reopen ID already has different immutable content")
  | none =>
    let snapshot ← requiredSnapshot codec registry db command.reviewTaskId
    refuse (snapshot.status != .completed)
      (.queue .notClaimable "only completed review tasks may be reopened")
    refuse (snapshot.completedAnnotationId != some command.expectedAnnotationId)
      (.queue .reopenConflict "reopen command does not reference the current completed annotation")
    let inserted ← db.insertReopen (reopenRow command stored.1 stored.2)
    let pending ← inserted.updateTasks
      (·.definition.reviewTaskId == command.reviewTaskId) (·.reopen)
      fun _ => rfl
    let after ← requiredSnapshot codec registry pending command.reviewTaskId
    .ok (⟨command, after, true⟩, pending)

end Methods

end Robata.Review
