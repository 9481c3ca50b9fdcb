import Robata.Queue.WorkOperations
import Robata.Stream.Documents

/-!
# The stream database

One SQLite file holds the tables of `SQLiteWorkScheduler`, `SQLiteStreamWorkLedger` and
`SQLiteStreamDeliveryAuthority`; a `StreamDb` is their content.  The methods below are
those of the ledger, each of them one transaction.  The ledger decides nothing about work:
it compares exact bytes, keeps what is written once, and checks the order of appends.

Who may append how many windows (fair admission among recordings) is decided by counters
this model does not have; the decision is the argument `throttled` of an append.
-/

namespace Robata.Stream

open Lib
open Queue (OpaqueUuid Sha256Digest NonEmptyString WorkLedger WorkError WorkLease parseTimestamp
  integrityError)
open Outbox (OutboxDb StreamContent)

/-- The exceptions of the stream code, with their texts. -/
inductive StreamError
  | composition (message : String)
  | ledger (message : String)
  | ledgerConflict (message : String)
  | throttle
  | delivery (message : String)
  | deliveryConflict (message : String)
  | outboxFence (message : String)
  | work (error : WorkError)
  | value (message : String)
  deriving DecidableEq

/-- Raise when a check finds its condition. -/
def refuse (found : Bool) (e : StreamError) : Except StreamError Unit :=
  if found then .error e else .ok ()

/-! ## Tables -/

/-- A row of `stream_plans`; the plan, its source and its pins are one text. -/
structure StreamPlanRow where
  (planKey pins : String)
  plannerEosSha256 : Option Sha256Digest
  sealJson : Option ExpectedWindowPlanSeal
  terminalClosureJson : Option WindowTerminalClosure
  exportManifest : Option (Sha256Digest × Nat)

structure ExpectedWindowRow where
  planKey : String
  ordinal : Nat
  declaration : ExpectedWindowDeclaration
  window : String
  terminalMember : Option WindowTerminalMember

/-- `pending_terminal_json`, `pending_lease_epoch` and `pending_fencing_token`, which are
written and cleared together. -/
structure PendingTerminal where
  evidence : StreamTerminalEvidence
  leaseEpoch : Nat
  fencingToken : NonEmptyString
  deriving DecidableEq

/-- A stream work plan before it is stored. -/
structure NewStreamWorkPlan where
  expectedOrdinal : Option Nat
  roleOrder : Nat
  plan : StreamWorkItemPlan
  publicationState : PublicationState

structure StreamWorkRow extends NewStreamWorkPlan where
  planKey : String
  terminalEvidence : Option StreamTerminalEvidence
  pending : Option PendingTerminal

/-- A row of `stream_window_results`, less the columns that repeat the result. -/
structure WindowResultRow where
  planKey : String
  expectedOrdinal : Nat
  workItemId : OpaqueUuid
  result : StreamWindowResult

/-- A row of `stream_window_evidence_commits`. -/
structure EvidenceCommitRow where
  planKey : String
  expectedOrdinal : Nat
  windowResultId : OpaqueUuid
  evidence : PreparedWindowReductionEvidence

structure FinalizationRow where
  planKey : String
  finalization : RecordingFinalizationMap
  outboxId : String

/-- The tables of the three components. -/
structure StreamDb where
  work : WorkLedger
  plans : KeyedTable StreamPlanRow String (·.planKey)
  windows : KeyedTable ExpectedWindowRow (String × Nat) fun r => (r.planKey, r.ordinal)
  rows : KeyedTable StreamWorkRow OpaqueUuid (·.plan.workItemId)
  results : KeyedTable WindowResultRow (String × Nat) fun r => (r.planKey, r.expectedOrdinal)
  evidence : KeyedTable EvidenceCommitRow (String × Nat) fun r => (r.planKey, r.expectedOrdinal)
  finalizations : KeyedTable FinalizationRow String (·.planKey)
  outbox : OutboxDb StreamContent

def StreamDb.empty : StreamDb :=
  ⟨.empty, .empty, .empty, .empty, .empty, .empty, .empty, ⟨.empty, .empty⟩⟩

/-! ## Reads -/

namespace StreamDb

variable (db : StreamDb)

def getPlan (planKey : String) : Except StreamError StreamPlanRow :=
  match db.plans.find? planKey with
  | some row => .ok row
  | none => .error (.ledger "expected plan is not registered")

/-- `windows`: `ORDER BY ordinal`. -/
def windowsOf (planKey : String) : List ExpectedWindowRow :=
  (db.windows.rows.filter (·.planKey == planKey)).insertionSort fun a b => a.ordinal ≤ b.ordinal

def nextWindowOrdinal (planKey : String) : Nat :=
  ((db.windowsOf planKey).getLast?.map (·.ordinal + 1)).getD 0

def windowAt (planKey : String) (ordinal : Nat) : Option ExpectedWindowRow :=
  db.windows.find? (planKey, ordinal)

def windowsForOrdinals (planKey : String) (ordinals : List Nat) : List ExpectedWindowRow :=
  (db.windowsOf planKey).filter fun r => ordinals.contains r.ordinal

/-- `ORDER BY COALESCE(expected_ordinal, …), role_order, work_item_id`. -/
def rowOrder (a b : StreamWorkRow) : Bool :=
  let oa := a.expectedOrdinal.getD 2147483647
  let ob := b.expectedOrdinal.getD 2147483647
  oa < ob || (oa == ob && (a.roleOrder < b.roleOrder ||
    (a.roleOrder == b.roleOrder && a.plan.workItemId ≤ b.plan.workItemId)))

def workPlans (planKey : String) : List StreamWorkRow :=
  (db.rows.rows.filter (·.planKey == planKey)).insertionSort fun a b => rowOrder a b

def workPlansForOrdinals (planKey : String) (ordinals : List Nat) : List StreamWorkRow :=
  (db.workPlans planKey).filter (·.expectedOrdinal.any ordinals.contains)

def workPlansForIds (workItemIds : List OpaqueUuid) : Except StreamError (List StreamWorkRow) :=
  workItemIds.mapM fun workItemId =>
    match db.rows.find? workItemId with
    | some row => .ok row
    | none => .error (.ledger "stream work lookup row is absent")

def pendingPublicationWorkRows (planKey : String) : List StreamWorkRow :=
  (db.workPlans planKey).filter (·.publicationState == .pending)

/-- `pending_work_rows`: `ORDER BY work_item_id`. -/
def pendingWorkRows (planKey : String) : List StreamWorkRow :=
  (db.rows.rows.filter fun r => r.planKey == planKey && r.pending.isSome).insertionSort
    fun a b => a.plan.workItemId ≤ b.plan.workItemId

def getWork (workItemId : OpaqueUuid) : Except StreamError StreamWorkRow :=
  match db.rows.find? workItemId with
  | some row => .ok row
  | none => .error (.ledger "work item is not in this stream graph")

def getWorkByKey (logicalKey : NonEmptyString) : Except StreamError StreamWorkRow :=
  match db.rows.rows.find? fun r => r.plan.workLogicalKey == logicalKey with
  | some row => .ok row
  | none => .error (.ledger "upstream stream work is not durable")

def nextReadyWork (planKey : String) : Option StreamWorkRow :=
  let ready := db.work.items.rows.filter fun item => item.state == .ready &&
    (db.rows.find? item.workItemId).any fun r =>
      r.planKey == planKey && r.publicationState == .published
  ((ready.insertionSort fun a b => a.dispatchOrder b).head?).bind fun item =>
    db.rows.find? item.workItemId

end StreamDb

/-! ## Writes -/

structure NewStreamWindow where
  ordinal : Nat
  declaration : ExpectedWindowDeclaration
  window : String
  workPlans : List NewStreamWorkPlan

/-- The row a stream work plan is stored as. -/
def NewStreamWorkPlan.stored (work : NewStreamWorkPlan) (planKey : String) : StreamWorkRow :=
  { work with planKey := planKey, terminalEvidence := none, pending := none }

/-- The row an expected window is stored as. -/
def NewStreamWindow.stored (window : NewStreamWindow) (planKey : String) : ExpectedWindowRow :=
  ⟨planKey, window.ordinal, window.declaration, window.window, none⟩

/-- The check of a stored companion row against the row a replay brings. -/
def NewStreamWorkPlan.sameRow (candidate : NewStreamWorkPlan) (current : StreamWorkRow) : Bool :=
  current.expectedOrdinal == candidate.expectedOrdinal &&
    current.roleOrder == candidate.roleOrder && current.plan == candidate.plan &&
    (candidate.publicationState == .gated ||
      current.publicationState == candidate.publicationState ||
      current.publicationState == .published)

namespace StreamDb

variable (db : StreamDb)

/-- Rewrite the row of one plan. -/
def setPlan (planKey : String) (set : StreamPlanRow → StreamPlanRow)
    (hset : ∀ r, (set r).planKey = r.planKey) : StreamDb :=
  { db with plans := db.plans.updateWhere (·.planKey == planKey) set hset }

/-- Rewrite one stream work row. -/
def setRow (workItemId : OpaqueUuid) (set : StreamWorkRow → StreamWorkRow)
    (hset : ∀ r, (set r).plan.workItemId = r.plan.workItemId) : StreamDb :=
  { db with rows := db.rows.updateWhere (·.plan.workItemId == workItemId) set hset }

/-- Write the terminal member of one expected window. -/
def setMember (planKey : String) (ordinal : Nat) (member : WindowTerminalMember) : StreamDb :=
  { db with
    windows := db.windows.updateWhere (fun r => r.planKey == planKey && r.ordinal == ordinal)
      (fun r => { r with terminalMember := some member }) fun _ => rfl }

def registerPlan (planKey pins : String) : Except StreamError StreamDb :=
  match db.plans.find? planKey with
  | some existing => do
      refuse (existing.pins != pins)
        (.ledgerConflict "composition replay changed plan or policy pins")
      .ok db
  | none =>
    match db.plans.insert? ⟨planKey, pins, none, none, none, none⟩ with
    | some plans => .ok { db with plans := plans }
    | none => .error (.work integrityError)

/-- `_insert_work`; the primary key and the unique logical key are the constraints. -/
def insertWork (planKey : String) (work : NewStreamWorkPlan) : Except StreamError StreamDb := do
  refuse (db.rows.rows.any (·.plan.workLogicalKey == work.plan.workLogicalKey))
    (.work integrityError)
  match db.rows.insert? (work.stored planKey) with
  | some rows => .ok { db with rows := rows }
  | none => .error (.work integrityError)

/-- The rows of one ordinal: `ORDER BY role_order, work_item_id`. -/
def companionRows (planKey : String) (expectedOrdinal : Option Nat) : List StreamWorkRow :=
  (db.workPlans planKey).filter (·.expectedOrdinal == expectedOrdinal)

def verifyExistingWorkRows (planKey : String) (expectedOrdinal : Option Nat)
    (expected : List NewStreamWorkPlan) : Except StreamError Unit := do
  let stored := db.companionRows planKey expectedOrdinal
  refuse (stored.length != expected.length)
    (.ledgerConflict "stream work replay lacks exact companion rows")
  refuse (!(stored.zip expected).all fun pair => pair.2.sameRow pair.1)
    (.ledgerConflict "stream work replay changed exact companion rows")

/-- The first loop of `append_windows` on one window: whether it is new, and the ordinal
that comes next. -/
def admitWindow (plan : StreamPlanRow) (next : Nat) (window : NewStreamWindow) :
    Except StreamError (Bool × Nat) :=
  match db.windows.find? (plan.planKey, window.ordinal) with
  | some stored => do
      refuse (stored.declaration != window.declaration || stored.window != window.window)
        (.ledgerConflict "expected-window replay changed exact bytes")
      db.verifyExistingWorkRows plan.planKey (some window.ordinal) window.workPlans
      .ok (false, next)
  | none => do
      refuse (plan.plannerEosSha256.isSome || plan.sealJson.isSome)
        (.ledgerConflict "cannot append a new window after planner EOS")
      refuse (next != window.ordinal)
        (.ledgerConflict "expected windows must be appended in contiguous planner order")
      .ok (true, next + 1)

/-- The first loop of `append_windows`: the windows of the batch that are new. -/
def admitWindows (plan : StreamPlanRow) : Nat → List NewStreamWindow →
    Except StreamError (List NewStreamWindow)
  | _, [] => .ok []
  | next, window :: rest => do
      let admitted ← db.admitWindow plan next window
      let new ← admitWindows plan admitted.2 rest
      .ok (if admitted.1 then window :: new else new)

/-- The second loop of `append_windows` on one new window. -/
def insertWindow (planKey : String) (db : StreamDb) (window : NewStreamWindow) :
    Except StreamError StreamDb :=
  match db.windows.insert? (window.stored planKey) with
  | none => .error (.work integrityError)
  | some windows => window.workPlans.foldlM (fun db work => db.insertWork planKey work)
      { db with windows := windows }

/-- `append_windows`: the ordinals of the windows inserted, and the tables after it. -/
def appendWindows (planKey : String) (windows : List NewStreamWindow) (throttled : Bool) :
    Except StreamError (List Nat × StreamDb) := do
  refuse (windows.any fun w => w.workPlans.any (·.expectedOrdinal != some w.ordinal))
    (.ledgerConflict "stream child work ordinal does not match its window")
  refuse (!decide ((windows.map (·.ordinal)).Pairwise (· < ·)))
    (.ledgerConflict "window batch ordinals must be unique and ordered")
  let plan ← db.getPlan planKey
  let new ← db.admitWindows plan (db.nextWindowOrdinal planKey) windows
  refuse (!new.isEmpty && throttled) .throttle
  let db' ← new.foldlM (insertWindow planKey) db
  .ok (new.map (·.ordinal), db')

def setPlannerEos (planKey : String) (finishSha256 : Sha256Digest) :
    Except StreamError StreamDb := do
  let plan ← db.getPlan planKey
  refuse (plan.plannerEosSha256.any fun current => current != finishSha256)
    (.ledgerConflict "planner EOS replay changed exact facts")
  .ok (db.setPlan planKey (fun r => { r with plannerEosSha256 := some finishSha256 }) fun _ => rfl)

def storeSealAndFinalization (planKey : String) (planSeal : ExpectedWindowPlanSeal)
    (declarations : List ExpectedWindowDeclaration) (finalization : NewStreamWorkPlan) :
    Except StreamError (Bool × StreamDb) := do
  let plan ← db.getPlan planKey
  refuse plan.plannerEosSha256.isNone (.ledgerConflict "planner EOS must be durable before seal")
  let stored := db.windowsOf planKey
  refuse ((stored.map (·.ordinal)) != List.range declarations.length ||
      (stored.map (·.declaration)) != declarations)
    (.ledgerConflict "EOS seal declarations changed before commit")
  match plan.sealJson with
  | some existing => do
      refuse (existing != planSeal) (.ledgerConflict "EOS seal replay changed source facts")
      db.verifyExistingWorkRows planKey none [finalization]
      .ok (false, db)
  | none => do
      let db' ← (db.setPlan planKey (fun r => { r with sealJson := some planSeal }) fun _ => rfl).insertWork
        planKey finalization
      .ok (true, db')

def markExportBarrier (planKey : String) (manifestSha256 : Sha256Digest) (memberCount : Nat) :
    Except StreamError StreamDb := do
  let plan ← db.getPlan planKey
  refuse (plan.exportManifest.any fun existing => existing != (manifestSha256, memberCount))
    (.ledgerConflict "export barrier replay changed manifest")
  .ok (db.setPlan planKey (fun r => { r with exportManifest := some (manifestSha256, memberCount) })
    fun _ => rfl)

def storeClosureAndOpenFinalization (planKey : String) (closure : WindowTerminalClosure) :
    Except StreamError StreamDb := do
  let plan ← db.getPlan planKey
  refuse (plan.terminalClosureJson.any fun existing => existing != closure)
    (.ledgerConflict "terminal closure replay changed accepted members")
  match db.rows.rows.filter fun r => r.planKey == planKey && r.plan.stage == .finalization with
  | [finalization] => do
      refuse (plan.terminalClosureJson.isNone && finalization.publicationState != .gated)
        (.ledgerConflict "unclosed finalization work must remain gated")
      refuse (plan.terminalClosureJson.isSome && finalization.publicationState == .gated)
        (.ledgerConflict "closed finalization work cannot remain gated")
      let closed := db.setPlan planKey (fun r => { r with terminalClosureJson := some closure })
        fun _ => rfl
      .ok { closed with
        rows := closed.rows.updateWhere
          (fun r => r.planKey == planKey && r.plan.stage == .finalization &&
            r.publicationState == .gated)
          (fun r => { r with publicationState := .pending }) fun _ => rfl }
  | _ => .error (.ledger "terminal closure requires exact finalization work")

def markPublishedMany (workItemIds : List OpaqueUuid) : Except StreamError StreamDb := do
  refuse (!decide workItemIds.Nodup) (.value "work_item_ids must be unique")
  refuse (workItemIds.any fun i => (db.rows.find? i).isNone)
    (.ledger "work publication row is absent")
  refuse (workItemIds.any fun i => (db.rows.find? i).any (·.publicationState == .gated))
    (.ledgerConflict "gated work cannot be published")
  .ok { db with
    rows := db.rows.updateWhere
      (fun r => workItemIds.contains r.plan.workItemId && r.publicationState == .pending)
      (fun r => { r with publicationState := .published }) fun _ => rfl }

/-- The fence `store_pending_terminal` checks.  The expiry is compared as a text, so an
equal instant in another spelling does not pass. -/
def holdsTerminalFence (lease : WorkLease) (now : Int) : Bool :=
  (db.work.item? lease.workItemId).any fun execution =>
    execution.state.isActive && execution.leaseEpoch == lease.leaseEpoch &&
      execution.fencingToken == some lease.fencingToken &&
      execution.leasedBy == some lease.workerId &&
      execution.leaseExpiresAt.any fun expiry =>
        expiry == lease.leaseExpiresAt && decide (now < parseTimestamp expiry)

/-- `store_pending_terminal`, as the stream path calls it: with the lease and the authority
time.  `false` means that the same evidence is accepted already. -/
def storePendingTerminal (lease : WorkLease) (payload : StreamTerminalEvidence) (now : Int) :
    Except StreamError (Bool × StreamDb) :=
  match db.rows.find? lease.workItemId with
  | none => .error (.ledger "terminal work is not in this graph")
  | some row =>
    match row.terminalEvidence with
    | some accepted => do
        refuse (accepted != payload)
          (.ledgerConflict "terminal replay changed accepted stream evidence")
        .ok (false, db)
    | none => do
        refuse (!db.holdsTerminalFence lease now)
          (.work (.fence "work lease is stale, expired, or inactive"))
        let intent : PendingTerminal := ⟨payload, lease.leaseEpoch, lease.fencingToken⟩
        if row.pending = some intent then .ok (true, db)
        else do
          refuse (row.pending.any fun stored => decide (lease.leaseEpoch ≤ stored.leaseEpoch))
            (.ledgerConflict "a newer or conflicting terminal acceptance is pending")
          .ok (true, db.setRow lease.workItemId (fun r => { r with pending := some intent })
            fun _ => rfl)

def acceptPendingTerminal (workItemId : OpaqueUuid) (expected : StreamTerminalEvidence)
    (member : Option WindowTerminalMember) (expectedOrdinal : Option Nat) :
    Except StreamError StreamDb :=
  match db.rows.find? workItemId with
  | none => .error (.ledger "terminal work is not in this graph")
  | some row =>
    match row.terminalEvidence with
    | some accepted => do
        refuse (accepted != expected)
          (.ledgerConflict "terminal replay changed accepted stream evidence")
        .ok db
    | none => do
        refuse ((row.pending.map (·.evidence)) != some expected)
          (.ledgerConflict "pending terminal changed before acceptance")
        let promoted := db.setRow workItemId
          (fun r => { r with terminalEvidence := some expected, pending := none }) fun _ => rfl
        match member, expectedOrdinal with
        | none, _ => .ok promoted
        | some _, none =>
          .error (.ledger "window terminal member requires an expected ordinal")
        | some member, some ordinal =>
          match db.windows.find? (row.planKey, ordinal) with
          | none => .error (.ledger "window reduction lacks expected declaration")
          | some window => do
              refuse (window.terminalMember.any fun existing => existing != member)
                (.ledgerConflict "terminal member replay changed accepted evidence")
              .ok (promoted.setMember row.planKey ordinal member)

end StreamDb
end Robata.Stream
