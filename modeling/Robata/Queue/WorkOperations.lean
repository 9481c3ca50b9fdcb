import Robata.Queue.WorkScheduler

/-!
# Operations of the work scheduler

The maintenance sweeps and the public operations of `SQLiteWorkScheduler`, each
as the body of its write transaction.  A sweep reads its rows once, before its
loop, and then writes row by row; the snapshot is the list the fold runs over.
-/

namespace Robata.Queue

open Lib

/-- What the driver raises on a violated `UNIQUE` constraint; its own text is
left out. -/
def integrityError : WorkError := .conflict "SQLite rejected durable work"

def positiveInt (value : Int) (fieldName : String) : Except WorkError Nat :=
  if 0 < value then .ok value.toNat
  else .error (.value (fieldName ++ " must be positive"))

def nonnegativeInt (value : Int) (fieldName : String) : Except WorkError Nat :=
  if 0 ≤ value then .ok value.toNat
  else .error (.value (fieldName ++ " must be nonnegative"))

/-- Atomic claim result: the ledger snapshot and its capability. -/
structure WorkLeaseClaim where
  workItem : WorkItem
  lease : WorkLease

def WorkLeaseClaim.validateBinding (claim : WorkLeaseClaim) : Except WorkError Unit := do
  let item := claim.workItem.row
  let lease := claim.lease
  reject (!item.state.isActive) "a claim must contain a leased or running work item"
  reject (item.workItemId != lease.workItemId || item.leasedBy != some lease.workerId ||
      item.leaseEpoch != lease.leaseEpoch || item.fencingToken != some lease.fencingToken ||
      item.leaseExpiresAt != some lease.leaseExpiresAt)
    "claim lease does not match its work-item snapshot"

namespace WorkRow

/-- The row has not ended and its hard deadline has passed. -/
def hardDue (now : Int) (r : WorkRow) : Bool :=
  r.completedAt.isNone && r.executionExpiryAt.any fun e => decide (parseTimestamp e ≤ now)

/-- The row is leased and its lease has run out. -/
def leaseDue (now : Int) (r : WorkRow) : Bool :=
  r.state.isActive && r.leaseExpiresAt.any fun e => decide (parseTimestamp e ≤ now)

/-- The row's retry delay has passed. -/
def retryDue (now : Int) (r : WorkRow) : Bool :=
  r.state == .retryWait && r.retryNotBeforeAt.any fun e => decide (parseTimestamp e ≤ now)

/-- `ORDER BY execution_expiry_at, work_item_id`. -/
def expiryOrder (a b : WorkRow) : Bool :=
  let ka := (a.executionExpiryAt.map parseTimestamp).getD 0
  let kb := (b.executionExpiryAt.map parseTimestamp).getD 0
  ka < kb || (ka == kb && a.workItemId ≤ b.workItemId)

/-- `ORDER BY state, lease_expires_at, work_item_id`: `LEASED` sorts before
`RUNNING`. -/
def leaseOrder (a b : WorkRow) : Bool :=
  let sa := if a.state = .leased then 0 else 1
  let sb := if b.state = .leased then 0 else 1
  let ka := (a.leaseExpiresAt.map parseTimestamp).getD 0
  let kb := (b.leaseExpiresAt.map parseTimestamp).getD 0
  sa < sb || (sa == sb && (ka < kb || (ka == kb && a.workItemId ≤ b.workItemId)))

/-- `ORDER BY created_at, work_item_id`. -/
def createdOrder (a b : WorkRow) : Bool :=
  let ka := parseTimestamp a.createdAt
  let kb := parseTimestamp b.createdAt
  ka < kb || (ka == kb && a.workItemId ≤ b.workItemId)

/-- The dispatch order: priority first, then the earliest deadline with missing
deadlines last, then age. -/
def dispatchOrder (a b : WorkRow) : Bool :=
  let da := a.slaDeadlineAt.isNone.toNat
  let db := b.slaDeadlineAt.isNone.toNat
  let ka := (a.slaDeadlineAt.map parseTimestamp).getD 0
  let kb := (b.slaDeadlineAt.map parseTimestamp).getD 0
  b.priority < a.priority || (a.priority == b.priority &&
    (da < db || (da == db && (ka < kb || (ka == kb && a.createdOrder b)))))

/-- Everything `_require_lease` compares. -/
def holdsLease (r : WorkRow) (lease : WorkLease) (now : Int) : Bool :=
  r.state.isActive && r.leaseEpoch == lease.leaseEpoch &&
    r.fencingToken == some lease.fencingToken && r.leasedBy == some lease.workerId &&
    (r.leaseExpiresAt.any fun e =>
      parseTimestamp e == parseTimestamp lease.leaseExpiresAt && decide (now < parseTimestamp e)) &&
    !(r.executionExpiryAt.any fun e => decide (parseTimestamp e ≤ now))

end WorkRow

namespace WorkLedger

/-! ## Maintenance -/

/-- The rows of the hard-expiry sweep. -/
def hardDueRows (s : WorkLedger) (now : Int) : Option OpaqueUuid → List WorkRow
  | none => (s.items.rows.filter (WorkRow.hardDue now)).insertionSort fun a b => a.expiryOrder b
  | some workItemId =>
    s.items.rows.filter fun r => r.workItemId == workItemId && r.hardDue now

/-- The rows of the lease-recovery sweep. -/
def leaseDueRows (s : WorkLedger) (now : Int) : Option OpaqueUuid → List WorkRow
  | none => (s.items.rows.filter (WorkRow.leaseDue now)).insertionSort fun a b => a.leaseOrder b
  | some workItemId =>
    s.items.rows.filter fun r => r.workItemId == workItemId && r.leaseDue now

/-- `_finish_attempt` on an item that may or may not hold a lease. -/
def closeAttempt (s : WorkLedger) (item : WorkRow) (outcome : WorkAttemptOutcome)
    (errorCode errorDetail : Option NonEmptyString) (now : Int) : Except WorkError WorkLedger :=
  if item.state.isActive then s.finishAttempt item outcome errorCode errorDetail now
  else .ok s

/-- One round of `_expire_hard_deadlines`. -/
def expireRow (now : Int) (acc : Nat × WorkLedger) (row : WorkRow) :
    Except WorkError (Nat × WorkLedger) := do
  let item ← itemFromRow row
  if item.row.executionExpiryAt.any fun e => decide (parseTimestamp e ≤ now) then
    let s₁ ← acc.2.closeAttempt item.row .expired (some executionExpired) none now
    let s₂ ← s₁.setTerminal item.row.workItemId (.ofReason .expired executionExpired none) now
    let out ← s₂.refreshDownstreamForUpstreams now [item.row.workItemId]
    .ok (acc.1 + 1, out.2)
  else
    .ok acc

def expireHardDeadlines (s : WorkLedger) (now : Int) (workItemId : Option OpaqueUuid) :
    Except WorkError (Nat × WorkLedger) :=
  (s.hardDueRows now workItemId).foldlM (expireRow now) (0, s)

/-- One round of `_recover_expired_leases`. -/
def recoverRow (now : Int) (acc : Nat × WorkLedger) (row : WorkRow) :
    Except WorkError (Nat × WorkLedger) := do
  let item ← itemFromRow row
  if item.row.leaseExpiresAt.any fun e => decide (parseTimestamp e ≤ now) then
    let s₁ ← acc.2.finishAttempt item.row .abandoned (some leaseExpired) none now
    if item.row.attempt < item.row.maxAttempts then
      let s₂ ← s₁.updateOne item.row.workItemId
        (fun r => r.leaseEpoch == item.row.leaseEpoch && r.fencingToken.isSome &&
          r.fencingToken == item.row.fencingToken)
        (·.withRecovered now) (fun _ => rfl)
        (.fence "expired lease changed during recovery")
      .ok (acc.1 + 1, s₂)
    else
      let s₂ ← s₁.setTerminal item.row.workItemId
        (.ofReason .failedPermanent leaseAttemptsExhausted none) now
      let out ← s₂.refreshDownstreamForUpstreams now [item.row.workItemId]
      .ok (acc.1 + 1, out.2)
  else
    .ok acc

def recoverExpiredLeases (s : WorkLedger) (now : Int) (workItemId : Option OpaqueUuid) :
    Except WorkError (Nat × WorkLedger) :=
  (s.leaseDueRows now workItemId).foldlM (recoverRow now) (0, s)

/-- The bulk statement of `_maintain`: every due retry becomes `READY`. -/
def releaseRetries (s : WorkLedger) (now : Int) : WorkLedger :=
  { s with
    items := s.items.updateWhere (WorkRow.retryDue now) (·.withRetryReady now) fun _ => rfl }

/-- One round of the full readiness scan. -/
def scanRow (now : Int) (acc : Nat × WorkLedger) (workItemId : OpaqueUuid) :
    Except WorkError (Nat × WorkLedger) := do
  let out ← acc.2.advancePlannedItem workItemId now
  .ok (acc.1 + out.1.isSome.toNat, out.2)

/-- `SELECT work_item_id … WHERE state = 'PLANNED' ORDER BY created_at, work_item_id`. -/
def plannedIds (s : WorkLedger) : List OpaqueUuid :=
  ((s.items.rows.filter (·.state == .planned)).insertionSort
    fun a b => a.createdOrder b).map (·.workItemId)

/-- Loop rule of a pass: what every transition keeps holds when the pass is over. -/
theorem scan_invariant {now : Int} {s : WorkLedger} {out : Nat × WorkLedger}
    (P : Nat × WorkLedger → Prop)
    (hstep : ∀ acc i state s₁, P acc → Advance now acc.2 i (some state) s₁ → P (acc.1 + 1, s₁))
    (hstart : P (0, s)) (h : s.plannedIds.foldlM (scanRow now) (0, s) = .ok out) : P out := by
  refine foldlM_invariant (fun _ => P) ?_ s.plannedIds (0, s) out hstart h
  intro i _ acc acc' hacc hround
  obtain ⟨⟨transition, s₁⟩, hadvance, hround⟩ := bind_eq_ok.mp hround
  cases hround
  have hspec := advancePlannedItem_spec hadvance
  cases transition with
  | none =>
    cases hspec
    exact hacc
  | some state => exact hstep acc i state s₁ hacc hspec

theorem scan_plannedCount {now : Int} {s s' : WorkLedger} {n : Nat}
    (h : s.plannedIds.foldlM (scanRow now) (0, s) = .ok (n, s')) :
    n + s'.plannedCount ≤ s.plannedCount := by
  refine scan_invariant (fun acc => acc.1 + acc.2.plannedCount ≤ s.plannedCount) ?_ (by simp) h
  intro acc workItemId state s₁ hacc hspec
  have hlt := hspec.plannedCount_lt
  show acc.1 + 1 + s₁.plannedCount ≤ s.plannedCount
  omega

/-- `_refresh_planned`: passes over every `PLANNED` row until one changes nothing. -/
def refreshPlanned (now : Int) (changed : Nat) (s : WorkLedger) :
    Except WorkError (Nat × WorkLedger) :=
  match h : s.plannedIds.foldlM (scanRow now) (0, s) with
  | .error e => .error e
  | .ok (0, s') => .ok (changed, s')
  | .ok (passChanged + 1, s') => refreshPlanned now (changed + (passChanged + 1)) s'
termination_by s.plannedCount
decreasing_by
  have hcount := scan_plannedCount h
  omega

def maintain (s : WorkLedger) (now : Int) (refreshAllPlanned : Bool) :
    Except WorkError (Nat × WorkLedger) := do
  let expired ← s.expireHardDeadlines now none
  let recovered ← expired.2.recoverExpiredLeases now none
  let released := recovered.2.items.rowcount (WorkRow.retryDue now)
  let changed := expired.1 + recovered.1 + released
  if refreshAllPlanned then
    refreshPlanned now changed (recovered.2.releaseRetries now)
  else
    .ok (changed, recovered.2.releaseRetries now)

/-- `_reconcile_exact_due_state`, the second transaction of a fenced call that
raised `WorkFenceError`. -/
def reconcileExactDueState (s : WorkLedger) (workItemId : OpaqueUuid) (now : Int) :
    Except WorkError (Nat × WorkLedger) := do
  let expired ← s.expireHardDeadlines now (some workItemId)
  let recovered ← expired.2.recoverExpiredLeases now (some workItemId)
  let changed := expired.1 + recovered.1
  if changed = 0 then
    .ok (changed, recovered.2)
  else
    let item ← recovered.2.loadItem workItemId
    if item.row.state.isTerminal then
      let out ← recovered.2.refreshDownstreamForUpstreams now [workItemId]
      .ok (changed + out.1, out.2)
    else
      .ok (changed, recovered.2)

/-! ## Planning -/

/-- `_plan_matches`: the persisted policy is the one the plan asks for. -/
def planMatches (item : WorkRow) (plan : WorkItemPlan) : Bool :=
  item.workItemId == plan.workItemId && item.workLogicalKey == plan.workLogicalKey &&
    item.runId == plan.runId && item.mcapId == plan.mcapId && item.stage == plan.stage &&
    item.subjectType == plan.subjectType && item.subjectId == plan.subjectId &&
    item.inputDigest == plan.inputDigest && item.configDigest == plan.configDigest &&
    item.priority == plan.priority && item.maxAttempts == plan.maxAttempts &&
    item.traceId == plan.traceId &&
    parseTimestamp item.createdAt == parseTimestamp plan.createdAt &&
    item.slaDeadlineAt.map parseTimestamp == plan.slaDeadlineAt.map parseTimestamp &&
    item.executionExpiryAt.map parseTimestamp == plan.executionExpiryAt.map parseTimestamp

def validatePlanDependencies (plan : WorkItemPlan) (dependencies : List WorkDependency) :
    Except WorkError Unit :=
  if dependencies.any fun d => d.downstreamWorkItemId != plan.workItemId then
    .error (.conflict "dependency downstream id does not match the plan")
  else if ¬ (dependencies.map (·.dependencyId)).Nodup then
    .error (.conflict "dependency ids must be unique")
  else if ¬ (dependencies.map (·.upstreamWorkItemId)).Nodup then
    .error (.conflict "upstream dependencies must be unique")
  else
    .ok ()

/-- The check of one upstream edge of a new plan. -/
def checkUpstream (s : WorkLedger) (plan : WorkItemPlan) (dependency : WorkDependency) :
    Except WorkError Unit :=
  match s.item? dependency.upstreamWorkItemId with
  | none => .error (.conflict "every upstream dependency must already be planned")
  | some upstream =>
    if upstream.runId ≠ plan.runId then
      .error (.conflict "dependencies cannot cross processing runs")
    else
      .ok ()

/-- `INSERT INTO work_dependencies`. -/
def insertDependency (s : WorkLedger) (dependency : WorkDependency) : Except WorkError WorkLedger :=
  if s.deps.rows.any fun d =>
      d.downstreamWorkItemId == dependency.downstreamWorkItemId &&
        d.upstreamWorkItemId == dependency.upstreamWorkItemId then
    .error integrityError
  else
    match s.deps.insert? dependency with
    | none => .error integrityError
    | some deps => .ok { s with deps := deps }

/-- `INSERT INTO work_items`.  The driver cannot bind an integer beyond 64 bits. -/
def insertItem (s : WorkLedger) (plan : WorkItemPlan) : Except WorkError WorkLedger :=
  if maxSqliteInteger < plan.priority ∨ maxSqliteInteger < plan.maxAttempts then
    .error .overflow
  else
    match s.items.insert? plan.toRow with
    | none => .error integrityError
    | some items => .ok { s with items := items }

/-- The rows a plan shares its id or its logical key with. -/
def planRows (s : WorkLedger) (plan : WorkItemPlan) : List WorkRow :=
  (s.items.rows.filter fun r =>
    r.workItemId == plan.workItemId || r.workLogicalKey == plan.workLogicalKey).insertionSort
      fun a b => a.workItemId ≤ b.workItemId

/-- The `refresh_readiness` branch of `_plan_in_transaction`. -/
def deriveReadiness (s : WorkLedger) (plan : WorkItemPlan) (refreshReadiness : Bool) :
    Except WorkError WorkLedger :=
  if refreshReadiness then
    (s.refreshPlannedForWorkIds (parseTimestamp plan.createdAt) [plan.workItemId]).map Prod.snd
  else
    .ok s

def planInTransaction (s : WorkLedger) (plan : WorkItemPlan) (dependencies : List WorkDependency)
    (refreshReadiness : Bool) : Except WorkError (WorkItem × WorkLedger) :=
  match s.planRows plan with
  | [row] => do
      let existing ← itemFromRow row
      if existing.row.workItemId ≠ plan.workItemId ∨
          existing.row.workLogicalKey ≠ plan.workLogicalKey ∨
          planMatches existing.row plan = false ∨
          s.dependencies existing.row.workItemId ≠
            dependencies.insertionSort (fun a b => a.dependencyId ≤ b.dependencyId) then
        .error (.conflict "work-plan replay conflicts with persisted policy")
      else
        .ok (existing, s)
  | _ :: _ :: _ => .error (.conflict "work id and logical key identify different rows")
  | [] => do
      dependencies.forM (s.checkUpstream plan)
      let s₁ ← s.insertItem plan
      let s₂ ← dependencies.foldlM insertDependency s₁
      let s₃ ← s₂.deriveReadiness plan refreshReadiness
      let item ← s₃.loadItem plan.workItemId
      .ok (item, s₃)

def plan (s : WorkLedger) (plan : WorkItemPlan) (dependencies : List WorkDependency) :
    Except WorkError (WorkItem × WorkLedger) := do
  validatePlanDependencies plan dependencies
  s.planInTransaction plan dependencies true

/-- The instant `plan_many` derives readiness at: the latest `created_at`. -/
def latestCreation (first : WorkItemPlan) (rest : List (WorkItemPlan × List WorkDependency)) :
    Int :=
  rest.foldl (fun acc p => max acc (parseTimestamp p.1.createdAt)) (parseTimestamp first.createdAt)

def planMany (s : WorkLedger) (plans : List (WorkItemPlan × List WorkDependency)) :
    Except WorkError (List WorkItem × WorkLedger) :=
  match plans with
  | [] => .ok ([], s)
  | first :: rest => do
      plans.forM fun p => validatePlanDependencies p.1 p.2
      let s₁ ← plans.foldlM (fun s p => (s.planInTransaction p.1 p.2 false).map Prod.snd) s
      let out ← s₁.refreshPlannedForWorkIds (latestCreation first.1 rest)
        (plans.map fun p => p.1.workItemId)
      let items ← plans.mapM fun p => out.2.loadItem p.1.workItemId
      .ok (items, out.2)

/-! ## Claims -/

/-- The `READY` row a claim takes: the head of the dispatch order, or the exact
row asked for. -/
def claimable (s : WorkLedger) : Option OpaqueUuid → Option WorkRow
  | none => ((s.items.rows.filter (·.state == .ready)).insertionSort
      fun a b => a.dispatchOrder b).head?
  | some workItemId => (s.item? workItemId).filter (·.state == .ready)

/-- `INSERT INTO work_attempts`, with its three uniqueness constraints. -/
def insertAttempt (s : WorkLedger) (a : WorkAttempt) : Except WorkError WorkLedger :=
  if s.attempts.rows.any fun b => b.fencingToken == a.fencingToken ||
      (b.workItemId == a.workItemId && b.leaseEpoch == a.leaseEpoch) then
    .error integrityError
  else
    match s.attempts.insert? a with
    | none => .error integrityError
    | some attempts => .ok { s with attempts := attempts }

/-- The attempt a claim opens on a row. -/
def openAttempt (row : WorkRow) (fencingToken workerId : NonEmptyString) (now : Int)
    (startImmediately : Bool) : WorkAttempt where
  workItemId := row.workItemId
  attemptNumber := row.attempt + 1
  leaseEpoch := row.leaseEpoch + 1
  fencingToken := fencingToken
  workerId := workerId
  claimedAt := formatTimestamp now
  startedAt := if startImmediately then some (formatTimestamp now) else none
  completedAt := none
  outcome := .active
  errorCode := none
  errorDetail := none

/-- The capability a claim hands out. -/
def leaseOf (row : WorkRow) (fencingToken workerId : NonEmptyString) (leaseExpiresAt : Int) :
    WorkLease where
  workItemId := row.workItemId
  workerId := workerId
  leaseEpoch := row.leaseEpoch + 1
  fencingToken := fencingToken
  leaseExpiresAt := formatTimestamp leaseExpiresAt
  leaseEpoch_pos := Nat.succ_pos _

/-- The compare-and-swap of a claim on the row it has read. -/
def claimRow (s : WorkLedger) (row : WorkRow) (fencingToken workerId : NonEmptyString)
    (leaseExpiresAt now : Int) (startImmediately : Bool) :
    Except WorkError (WorkLeaseClaim × WorkLedger) := do
  let next := if startImmediately then WorkItemState.running else WorkItemState.leased
  let s₁ ← s.updateOne row.workItemId
    (fun r => r.state == .ready && r.rowVersion == row.rowVersion)
    (·.withClaim next fencingToken workerId leaseExpiresAt now) (fun _ => rfl)
    (.storage "atomic work claim lost its compare-and-swap")
  let s₂ ← s₁.insertAttempt (openAttempt row fencingToken workerId now startImmediately)
  let item ← s₂.loadItem row.workItemId
  let claim : WorkLeaseClaim := ⟨item, leaseOf row fencingToken workerId leaseExpiresAt⟩
  claim.validateBinding
  .ok (claim, s₂)

/-- `_claim` and `_claim_in_transaction`; `claim` and `claim_and_start` differ
in `startImmediately`. -/
def claim (s : WorkLedger) (workerId : String) (leaseDurationSeconds : Int)
    (workItemId : Option OpaqueUuid) (now : Int) (startImmediately : Bool)
    (fencingToken : NonEmptyString) : Except WorkError (Option WorkLeaseClaim × WorkLedger) := do
  let worker ← nonempty workerId "worker_id"
  let duration ← positiveInt leaseDurationSeconds "lease_duration_seconds"
  let maintained ← s.maintain now false
  match maintained.2.claimable workItemId with
  | none => .ok (none, maintained.2)
  | some row =>
    let leaseExpiresAt ← addSeconds now duration
    let out ← maintained.2.claimRow row fencingToken worker leaseExpiresAt now startImmediately
    .ok (some out.1, out.2)

/-! ## Fenced calls -/

def requireLease (s : WorkLedger) (lease : WorkLease) (now : Int) : Except WorkError WorkItem := do
  let item ← s.loadItem lease.workItemId
  if item.row.holdsLease lease now then
    .ok item
  else
    .error (.fence "work lease is stale, expired, or inactive")

/-- The attempt statement of `start`. -/
def startAttempt (s : WorkLedger) (item : WorkRow) (now : Int) : Except WorkError WorkLedger :=
  let sel := fun a : WorkAttempt =>
    (a.workItemId, a.attemptNumber) == (item.workItemId, item.attempt) && a.outcome == .active
  if s.attempts.rowcount sel = 1 then
    .ok { s with
      attempts := s.attempts.updateWhere sel (·.withStarted now) fun _ => rfl }
  else
    .error (.storage "active attempt is missing while starting")

/-- The first transaction of `start`. -/
def start (s : WorkLedger) (lease : WorkLease) (now : Int) :
    Except WorkError (WorkItem × WorkLedger) := do
  let item ← s.requireLease lease now
  if item.row.state = .running then
    .ok (item, s)
  else if item.row.state ≠ .leased then
    .error (.state "only leased work can start")
  else
    let s₁ ← s.updateOne item.row.workItemId
      (fun r => r.state == .leased && r.leaseEpoch == lease.leaseEpoch &&
        r.fencingToken == some lease.fencingToken)
      (·.withRunning now) (fun _ => rfl) (.fence "work lease changed while starting")
    let s₂ ← s₁.startAttempt item.row now
    let started ← s₂.loadItem item.row.workItemId
    .ok (started, s₂)

/-- The first transaction of `heartbeat`.  The renewed row is not read back. -/
def heartbeat (s : WorkLedger) (lease : WorkLease) (leaseDurationSeconds : Int) (now : Int) :
    Except WorkError (WorkLease × WorkLedger) := do
  let duration ← positiveInt leaseDurationSeconds "lease_duration_seconds"
  let item ← s.requireLease lease now
  let expiresAt ← addSeconds now duration
  let s₁ ← s.updateOne item.row.workItemId
    (fun r => r.leaseEpoch == lease.leaseEpoch && r.fencingToken == some lease.fencingToken &&
      r.state.isActive)
    (·.withRenewal expiresAt now) (fun _ => rfl)
    (.fence "work lease changed while renewing")
  .ok ({ lease with
      workItemId := item.row.workItemId
      leaseExpiresAt := formatTimestamp expiresAt }, s₁)

/-- What follows every terminal transition a call makes: refresh its
downstream, run maintenance, read the item back. -/
def settle (s : WorkLedger) (workItemId : OpaqueUuid) (now : Int) :
    Except WorkError (WorkItem × WorkLedger) := do
  let refreshed ← s.refreshDownstreamForUpstreams now [workItemId]
  let maintained ← refreshed.2.maintain now false
  let item ← maintained.2.loadItem workItemId
  .ok (item, maintained.2)

/-- The result arguments of `succeed`: both or neither. -/
def checkResult (resultReference : Option String) (resultSha256 : Option Sha256Digest) :
    Except WorkError (Option NonEmptyString) := do
  reject (resultReference.isNone != resultSha256.isNone)
    "result reference and digest must be supplied together"
  nonemptyOption resultReference "result_reference"

def successFacts (resultReference : Option NonEmptyString) (resultSha256 : Option Sha256Digest) :
    TerminalFacts where
  state := .succeeded
  reasonCode := none
  reasonDetail := none
  resultReference := resultReference
  resultSha256 := resultSha256
  cancelRequested := false

/-- The first transaction of `succeed`. -/
def succeed (s : WorkLedger) (lease : WorkLease) (resultReference : Option String)
    (resultSha256 : Option Sha256Digest) (now : Int) :
    Except WorkError (WorkItem × WorkLedger) := do
  let reference ← checkResult resultReference resultSha256
  let item ← s.requireLease lease now
  if item.row.state ≠ .running then
    .error (.state "only running work can succeed")
  else
    let s₁ ← s.finishAttempt item.row .succeeded none none now
    let s₂ ← s₁.setTerminal item.row.workItemId (successFacts reference resultSha256) now
    s₂.settle item.row.workItemId now

/-- The first transaction of `fail`. -/
def fail (s : WorkLedger) (lease : WorkLease) (errorCode : String) (retryable : Bool)
    (errorDetail : Option String) (retryDelaySeconds : Int) (now : Int) :
    Except WorkError (WorkItem × WorkLedger) := do
  let code ← nonempty errorCode "error_code"
  let detail ← nonemptyOption errorDetail "error_detail"
  let delay ← nonnegativeInt retryDelaySeconds "retry_delay_seconds"
  let item ← s.requireLease lease now
  let retryAt ← addSeconds now delay
  let beforeHardExpiry := item.row.executionExpiryAt.all fun e => decide (retryAt < parseTimestamp e)
  if retryable && decide (item.row.attempt < item.row.maxAttempts) && beforeHardExpiry then
    let s₁ ← s.finishAttempt item.row .failedRetryable (some code) detail now
    let s₂ ← s₁.updateOne item.row.workItemId
      (fun r => r.leaseEpoch == lease.leaseEpoch && r.fencingToken == some lease.fencingToken &&
        r.state.isActive)
      (·.withRetryWait retryAt now) (fun _ => rfl)
      (.fence "work lease changed while recording retry")
    let waiting ← s₂.loadItem item.row.workItemId
    .ok (waiting, s₂)
  else
    let s₁ ← s.finishAttempt item.row .failedPermanent (some code) detail now
    let s₂ ← s₁.setTerminal item.row.workItemId (.ofReason .failedPermanent code detail) now
    s₂.settle item.row.workItemId now

/-! ## Direct terminal outcomes -/

def directTerminal (s : WorkLedger) (workItemId : OpaqueUuid) (state : WorkItemState)
    (attemptOutcome : WorkAttemptOutcome) (reasonCode : String) (reasonDetail : Option String)
    (cancelRequested : Bool) (now : Int) : Except WorkError (WorkItem × WorkLedger) := do
  let code ← nonempty reasonCode "reason_code"
  let detail ← nonemptyOption reasonDetail "reason_detail"
  let expired ← s.expireHardDeadlines now (some workItemId)
  let recovered ← expired.2.recoverExpiredLeases now (some workItemId)
  let item ← recovered.2.loadItem workItemId
  if item.row.state = state then
    .ok (item, recovered.2)
  else if item.row.state.isTerminal then
    .error (.state ("cannot move terminal " ++ item.row.state.value ++ " work to " ++ state.value))
  else
    let s₁ ← recovered.2.closeAttempt item.row attemptOutcome (some code) detail now
    let s₂ ← s₁.setTerminal workItemId
      { TerminalFacts.ofReason state code detail with cancelRequested := cancelRequested } now
    s₂.settle workItemId now

def cancel (s : WorkLedger) (workItemId : OpaqueUuid) (reasonCode : String)
    (reasonDetail : Option String) (now : Int) : Except WorkError (WorkItem × WorkLedger) :=
  s.directTerminal workItemId .cancelled .cancelled reasonCode reasonDetail true now

def skip (s : WorkLedger) (workItemId : OpaqueUuid) (state : WorkItemState) (reasonCode : String)
    (reasonDetail : Option String) (now : Int) : Except WorkError (WorkItem × WorkLedger) :=
  if state ≠ .skippedPolicy ∧ state ≠ .skippedNotNeeded then
    .error (.value "skip state must be SKIPPED_POLICY or SKIPPED_NOT_NEEDED")
  else
    s.directTerminal workItemId state .skipped reasonCode reasonDetail false now

def invalidate (s : WorkLedger) (workItemId : OpaqueUuid) (reasonCode : String)
    (reasonDetail : Option String) (now : Int) : Except WorkError (WorkItem × WorkLedger) :=
  s.directTerminal workItemId .invalidated .invalidated reasonCode reasonDetail false now

end WorkLedger

/-! ## Runs -/

/-- The write transactions of the scheduler with their arguments. -/
inductive SchedulerOp
  | plan (plan : WorkItemPlan) (dependencies : List WorkDependency)
  | planMany (plans : List (WorkItemPlan × List WorkDependency))
  | reconcile (now : Int)
  | claim (workerId : String) (leaseDurationSeconds : Int) (workItemId : Option OpaqueUuid)
      (now : Int) (startImmediately : Bool) (fencingToken : NonEmptyString)
  | start (lease : WorkLease) (now : Int)
  | heartbeat (lease : WorkLease) (leaseDurationSeconds : Int) (now : Int)
  | succeed (lease : WorkLease) (resultReference : Option String)
      (resultSha256 : Option Sha256Digest) (now : Int)
  | fail (lease : WorkLease) (errorCode : String) (retryable : Bool) (errorDetail : Option String)
      (retryDelaySeconds : Int) (now : Int)
  | cancel (workItemId : OpaqueUuid) (reasonCode : String) (reasonDetail : Option String)
      (now : Int)
  | skip (workItemId : OpaqueUuid) (state : WorkItemState) (reasonCode : String)
      (reasonDetail : Option String) (now : Int)
  | invalidate (workItemId : OpaqueUuid) (reasonCode : String) (reasonDetail : Option String)
      (now : Int)
  | reconcileExactDueState (workItemId : OpaqueUuid) (now : Int)

/-- The ledger an operation commits. -/
def SchedulerOp.run : SchedulerOp → WorkLedger → Except WorkError WorkLedger
  | .plan value dependencies, s => (s.plan value dependencies).map Prod.snd
  | .planMany plans, s => (s.planMany plans).map Prod.snd
  | .reconcile now, s => (s.maintain now true).map Prod.snd
  | .claim workerId duration workItemId now startImmediately fencingToken, s =>
    (s.claim workerId duration workItemId now startImmediately fencingToken).map Prod.snd
  | .start lease now, s => (s.start lease now).map Prod.snd
  | .heartbeat lease duration now, s => (s.heartbeat lease duration now).map Prod.snd
  | .succeed lease resultReference resultSha256 now, s =>
    (s.succeed lease resultReference resultSha256 now).map Prod.snd
  | .fail lease errorCode retryable errorDetail retryDelaySeconds now, s =>
    (s.fail lease errorCode retryable errorDetail retryDelaySeconds now).map Prod.snd
  | .cancel workItemId reasonCode reasonDetail now, s =>
    (s.cancel workItemId reasonCode reasonDetail now).map Prod.snd
  | .skip workItemId state reasonCode reasonDetail now, s =>
    (s.skip workItemId state reasonCode reasonDetail now).map Prod.snd
  | .invalidate workItemId reasonCode reasonDetail now, s =>
    (s.invalidate workItemId reasonCode reasonDetail now).map Prod.snd
  | .reconcileExactDueState workItemId now, s =>
    (s.reconcileExactDueState workItemId now).map Prod.snd

/-- The states of an unrestricted run of the scheduler on a fresh database. -/
def Reachable (s : WorkLedger) : Prop :=
  Reach SchedulerOp.run (fun _ _ => True) WorkLedger.empty s

end Robata.Queue
