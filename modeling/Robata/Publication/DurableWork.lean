import Robata.Lib.Interleaving
import Robata.Queue.WorkOperations

/-!
# Durable work of the primary publication

`CanonicalActionPublishWorkCoordinator` fences the publication of a run with one work item of the
scheduler.  Every call of the scheduler and of the completion repository is a transaction of its
own, and a command of the program here; so is every reading of the clock.
-/

namespace Robata.Publication

open Lib Queue
open Prog (ofExcept perform)

/-! ## Commands and completions -/

/-- The fields of `PrimaryCompletionCommand` that its work is planned from. -/
structure PrimaryCompletionCommand where
  (runId mcapId : OpaqueUuid)
  (commandSha256 executionPolicySha256 : Sha256Digest)
  startedAt : Rfc3339Timestamp
  deriving DecidableEq

/-- `CommittedPrimaryCompletion`; `facts` are those that the transaction adds. -/
structure CommittedPrimaryCompletion (Facts : Type) extends PrimaryCompletionCommand where
  facts : Facts
  deriving DecidableEq

/-- The projection that `_action_publish_plan` hashes. -/
structure ActionPublishProjection where
  workPolicyVersion : String
  (runId mcapId : OpaqueUuid)
  stage : String
  (commandSha256 configSha256 : Sha256Digest)

/-- The hash functions and the texts of identifiers. -/
structure PublishHashing (Facts : Type) where
  semanticSha256 : ActionPublishProjection → Sha256Digest
  /-- `uuid5` in `NAMESPACE_URL`. -/
  uuid5 : String → OpaqueUuid
  /-- `exact_bytes_sha256` of the canonical JSON. -/
  exactBytesSha256 : CommittedPrimaryCompletion Facts → Sha256Digest
  digestText : Sha256Digest → String
  uuidText : OpaqueUuid → String

variable {Facts : Type} (H : PublishHashing Facts)

def canonicalActionPublishWorkMaxAttempts : Nat := 3

/-- A text with a prefix is not empty. -/
def prefixed (first : NonEmptyString) (rest : String) : NonEmptyString where
  val := first.val ++ rest
  nonempty := by
    intro h
    apply first.nonempty
    have hempty : first.val = "" ∧ rest = "" := by simpa using h
    exact hempty.1

def workKeyPrefix : NonEmptyString := ⟨"canonical-action-publish-work:", by decide⟩

def tracePrefix : NonEmptyString := ⟨"canonical-run:", by decide⟩

/-- The digest of `_action_publish_plan`. -/
def actionPublishDigest (command : PrimaryCompletionCommand) : Sha256Digest :=
  H.semanticSha256 {
    workPolicyVersion := "canonical-action-publish-work-v1"
    runId := command.runId
    mcapId := command.mcapId
    stage := "ACTION_PUBLISH"
    commandSha256 := command.commandSha256
    configSha256 := command.executionPolicySha256 }

/-- `_action_publish_plan`, from a command or from what has been committed. -/
def actionPublishPlan (command : PrimaryCompletionCommand) : WorkItemPlan where
  workItemId := H.uuid5 ("robata:canonical-action-publish-work:" ++
    H.digestText (actionPublishDigest H command))
  workLogicalKey := prefixed workKeyPrefix (H.digestText (actionPublishDigest H command))
  runId := command.runId
  mcapId := command.mcapId
  stage := .actionPublish
  subjectType := .mcap
  subjectId := command.mcapId
  inputDigest := command.commandSha256
  configDigest := command.executionPolicySha256
  priority := 100
  slaDeadlineAt := none
  executionExpiryAt := none
  maxAttempts := canonicalActionPublishWorkMaxAttempts
  traceId := some (prefixed tracePrefix (H.uuidText command.runId))
  createdAt := command.startedAt
  maxAttempts_pos := Nat.succ_pos 2

def workerId (plan : WorkItemPlan) : String :=
  "canonical-local-action-publish:" ++ H.uuidText plan.workItemId

def committedResultBinding (committed : CommittedPrimaryCompletion Facts) : String × Sha256Digest :=
  ("primary-completion:" ++ H.uuidText committed.runId, H.exactBytesSha256 committed)

/-! ## The two stores -/

/-- `CanonicalDurableWorkError`, the errors of the scheduler, and those of the repository. -/
inductive PublicationError
  | work (error : WorkError)
  | durable (message : String)
  | repository (message : String)
  deriving DecidableEq

/-- The work ledger, the completion of the run, and the last reading of the clock. -/
structure PublicationStore (Facts : Type) where
  ledger : WorkLedger
  completion : Option (CommittedPrimaryCompletion Facts)
  clock : Int

/-- What becomes of a commit of the repository. -/
inductive CommitOutcome
  | answers
  /-- It raises, and nothing is committed. -/
  | refuses
  /-- It raises although it has committed. -/
  | losesAnswer

structure PrimaryCompletionCommitResult (Facts : Type) where
  committed : CommittedPrimaryCompletion Facts
  replayed : Bool

variable (Facts)

/-- The transactions of the two stores, and the readings of the clock. -/
inductive PublicationCommand
  | now (reading : Int)
  | plan (value : WorkItemPlan)
  | reconcile (now : Int)
  | get (workItemId : OpaqueUuid)
  | claim (worker : String) (leaseDurationSeconds : Int) (workItemId : OpaqueUuid) (now : Int)
      (fencingToken : NonEmptyString)
  | start (lease : WorkLease) (now : Int)
  | heartbeat (lease : WorkLease) (leaseDurationSeconds : Int) (now : Int)
  | succeed (lease : WorkLease) (resultReference : String) (resultSha256 : Sha256Digest) (now : Int)
  | reconcileExactDueState (workItemId : OpaqueUuid) (now : Int)
  | getCompletion
  | commitCompletion (value : CommittedPrimaryCompletion Facts) (outcome : CommitOutcome)

variable {Facts}

abbrev PublicationAnswer : PublicationCommand Facts → Type
  | .now _ => Int
  | .plan _ => WorkItem
  | .reconcile _ => Nat
  | .get _ => WorkItem
  | .claim _ _ _ _ _ => Option WorkLeaseClaim
  | .start _ _ => WorkItem
  | .heartbeat _ _ _ => WorkLease
  | .succeed _ _ _ _ => WorkItem
  | .reconcileExactDueState _ _ => Nat
  | .getCompletion => Option (CommittedPrimaryCompletion Facts)
  | .commitCompletion _ _ => PrimaryCompletionCommitResult Facts

/-- A transaction of the scheduler. -/
def inLedger {α : Type} (write : WorkLedger → Except WorkError (α × WorkLedger))
    (store : PublicationStore Facts) :
    Except PublicationError (α × PublicationStore Facts) :=
  match write store.ledger with
  | .ok (a, ledger) => .ok (a, { store with ledger := ledger })
  | .error e => .error (.work e)

/-- `commit` of the repository: atomic, and a replay answers what was committed. -/
def PublicationStore.commitCompletion (value : CommittedPrimaryCompletion Facts)
    (outcome : CommitOutcome) :
    Method (PublicationStore Facts) PublicationError (PrimaryCompletionCommitResult Facts) :=
  fun store =>
    let committed := store.completion.getD value
    match outcome with
    | .refuses => (.error (.repository "commit failed"), store)
    | .answers => (.ok ⟨committed, store.completion.isSome⟩,
        { store with completion := some committed })
    | .losesAnswer => (.error (.repository "commit answer lost"),
        { store with completion := some committed })

def PublicationCommand.run : (c : PublicationCommand Facts) →
    Method (PublicationStore Facts) PublicationError (PublicationAnswer c)
  | .now reading => fun store => (.ok reading, { store with clock := reading })
  | .plan value => .transact (inLedger (·.plan value []))
  | .reconcile instant => .transact (inLedger (·.maintain instant true))
  | .get workItemId => .transact (inLedger fun s => (s.loadItem workItemId).map fun item => (item, s))
  | .claim worker duration workItemId instant token =>
    .transact (inLedger (·.claim worker duration (some workItemId) instant false token))
  | .start lease instant => .transact (inLedger (·.start lease instant))
  | .heartbeat lease duration instant => .transact (inLedger (·.heartbeat lease duration instant))
  | .succeed lease resultReference resultSha256 instant =>
    .transact (inLedger (·.succeed lease (some resultReference) (some resultSha256) instant))
  | .reconcileExactDueState workItemId instant =>
    .transact (inLedger (·.reconcileExactDueState workItemId instant))
  | .getCompletion => .query fun store => .ok store.completion
  | .commitCompletion value outcome => PublicationStore.commitCompletion value outcome

/-! ## The coordinator -/

abbrev PublicationProg (Facts : Type) :=
  Prog (PublicationCommand Facts) PublicationAnswer PublicationError

/-- A fenced call of the scheduler: after `WorkFenceError` it reconciles the item before it raises. -/
def fenced (c : PublicationCommand Facts) (workItemId : OpaqueUuid) (now : Int) :
    PublicationProg Facts (PublicationAnswer c) :=
  .call c fun
    | .ok answer => .done (.ok answer)
    | .error (.work (.fence message)) => .call (.reconcileExactDueState workItemId now) fun
        | .ok _ => .done (.error (.work (.fence message)))
        | .error e => .done (.error e)
    | .error e => .done (.error e)

/-- What differs from call to call: the lease duration of the coordinator, the readings of its
clock, the fencing token that a claim draws, and what the repository makes of a commit. -/
structure PublicationCall (Facts : Type) where
  leaseDurationSeconds : Nat
  positive : 1 ≤ leaseDurationSeconds
  (maintainedAt claimedAt startedAt succeededAt : Int)
  fencingToken : NonEmptyString
  facts : Facts
  outcome : CommitOutcome

variable (call : PublicationCall Facts)

def claimReady (plan : WorkItemPlan) : PublicationProg Facts WorkLease := do
  let now : Int ← perform (PublicationCommand.now call.claimedAt)
  let _ ← perform (PublicationCommand.reconcile now)
  let claim : Option WorkLeaseClaim ← perform (PublicationCommand.claim (workerId H plan)
    call.leaseDurationSeconds plan.workItemId now call.fencingToken)
  match claim with
  | none => do
      let item : WorkItem ← perform (PublicationCommand.get plan.workItemId)
      ofExcept (.error (.durable
        ("publication work is not claimable from state " ++ item.row.state.value)))
  | some claim =>
    if claim.workItem.row.workItemId ≠ plan.workItemId then
      ofExcept (.error (.durable "scheduler claimed unrelated publication work"))
    else pure claim.lease

def succeedWork (lease : WorkLease) (committed : CommittedPrimaryCompletion Facts) :
    PublicationProg Facts WorkItem := do
  let binding := committedResultBinding H committed
  let now : Int ← perform (PublicationCommand.now call.succeededAt)
  fenced (.succeed lease binding.1 binding.2 now) lease.workItemId now

def activeLease (item : WorkItem) : Except PublicationError WorkLease :=
  match item.row.fencingToken, item.row.leasedBy, item.row.leaseExpiresAt with
  | some fencingToken, some leasedBy, some leaseExpiresAt =>
    if h : item.row.state.isActive = true ∧ 0 < item.row.leaseEpoch then
      .ok ⟨item.row.workItemId, leasedBy, item.row.leaseEpoch, fencingToken, leaseExpiresAt, h.2⟩
    else .error (.durable "publication work lacks a complete active lease")
  | _, _, _ => .error (.durable "publication work lacks a complete active lease")

/-- The lease that `reconcile` goes on with. -/
def reconcileLease (plan : WorkItemPlan) (item : WorkItem) : PublicationProg Facts WorkLease :=
  if item.row.state = .leased ∨ item.row.state = .running then do
    let lease ← ofExcept (activeLease item)
    if lease.workerId.val ≠ workerId H plan then
      ofExcept (.error (.durable "committed publication is still leased by another worker"))
    else pure lease
  else if item.row.state = .ready then claimReady H call plan
  else ofExcept (.error (.durable
    ("committed publication has irreconcilable work state " ++ item.row.state.value)))

/-- `start` and `heartbeat` at one reading of the clock; `start` is left out unless `starts`. -/
def renewLease (starts : Prop) [Decidable starts] (lease : WorkLease) :
    PublicationProg Facts WorkLease := do
  let now : Int ← perform (PublicationCommand.now call.startedAt)
  if starts then do
    let _ ← fenced (.start lease now) lease.workItemId now
    fenced (.heartbeat lease call.leaseDurationSeconds now) lease.workItemId now
  else fenced (.heartbeat lease call.leaseDurationSeconds now) lease.workItemId now

/-- `reconcile` once it has read the item. -/
def reconcileItem (committed : CommittedPrimaryCompletion Facts) (item : WorkItem) :
    PublicationProg Facts WorkItem :=
  let binding := committedResultBinding H committed
  if item.row.state = .succeeded then
    if item.row.resultReference.map (·.val) ≠ some binding.1 ∨
        item.row.resultSha256 ≠ some binding.2 then
      ofExcept (.error (.durable "succeeded publication work has a different completion binding"))
    else pure item
  else do
    let lease ← reconcileLease H call (actionPublishPlan H committed.toPrimaryCompletionCommand) item
    -- the state is that of the item that was read, also where the lease was claimed since then
    let renewed ← renewLease call (item.row.state = .leased) lease
    succeedWork H call renewed committed

def reconcileWork (committed : CommittedPrimaryCompletion Facts) :
    PublicationProg Facts WorkItem := do
  let plan := actionPublishPlan H committed.toPrimaryCompletionCommand
  let _ ← perform (PublicationCommand.plan plan)
  let now : Int ← perform (PublicationCommand.now call.maintainedAt)
  let _ ← perform (PublicationCommand.reconcile now)
  let item : WorkItem ← perform (PublicationCommand.get plan.workItemId)
  reconcileItem H call committed item

/-- `_commit_checked` for a run without a completion. -/
def commitNew (command : PrimaryCompletionCommand) :
    PublicationProg Facts (PrimaryCompletionCommitResult Facts) := do
  let plan := actionPublishPlan H command
  let item : WorkItem ← perform (PublicationCommand.plan plan)
  if item.row.state = .succeeded then
    ofExcept (.error (.durable
      "publication work succeeded without authoritative primary completion"))
  else do
    let lease ← claimReady H call plan
    let renewed ← renewLease call True lease
    let result : PrimaryCompletionCommitResult Facts ← perform
      (PublicationCommand.commitCompletion ⟨command, call.facts⟩ call.outcome)
    let _ ← succeedWork H call renewed result.committed
    pure result

def commitChecked (command : PrimaryCompletionCommand) :
    PublicationProg Facts (PrimaryCompletionCommitResult Facts) := do
  let existing : Option (CommittedPrimaryCompletion Facts) ←
    perform PublicationCommand.getCompletion
  match existing with
  | some existing =>
    if existing.commandSha256 ≠ command.commandSha256 then
      ofExcept (.error (.durable "primary completion exists with a different publication command"))
    else do
      let _ ← reconcileWork H call existing
      pure ⟨existing, true⟩
  | none => commitNew H call command

/-- The calls of the processes for one command. -/
inductive PublicationOp (Facts : Type)
  | commit (call : PublicationCall Facts)
  | reconcile (committed : CommittedPrimaryCompletion Facts) (call : PublicationCall Facts)

/-- The coordinators of one command over the two stores. -/
def coordinators (command : PrimaryCompletionCommand) :
    System (PublicationStore Facts) (PublicationOp Facts) (PublicationCommand Facts)
      PublicationAnswer PublicationError Unit where
  run := PublicationCommand.run
  method
    | .commit call => do
        let _ ← commitChecked H call command
        pure ()
    | .reconcile committed call => do
        let _ ← reconcileWork H call committed
        pure ()

/-- `reconcile` is called with the completion that the repository holds. -/
def Calls : PublicationOp Facts → PublicationStore Facts → Prop
  | .commit _, _ => True
  | .reconcile committed _, store => store.completion = some committed

/-- The clock never goes backwards. -/
def ClockForward : PublicationCommand Facts → PublicationStore Facts → Prop
  | .now reading, store => store.clock ≤ reading
  | _, _ => True

/-- Both stores are empty. -/
def PublicationStore.empty (clock : Int) : PublicationStore Facts := ⟨.empty, none, clock⟩

end Robata.Publication
