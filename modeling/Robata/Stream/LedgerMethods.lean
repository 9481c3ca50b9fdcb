import Robata.Stream.ControllerLedger

/-!
# The methods of a stream ledger

`SQLiteStreamWorkLedger` and `PostgresStreamWorkLedger` have the same methods, statement by
statement: the two texts differ in the placeholders, in the classes of the exceptions, in the
comparison of a nullable column, and in what the driver hands over for a truth value.  The
methods are written here once, over the `Dialect` they run on; the columns of a stored row
come back as they were written in both.
-/

namespace Robata.Stream

open Lib
open Queue (OpaqueUuid NonEmptyString Rfc3339Timestamp WorkItemState parseTimestamp)

/-- The comparison of a nullable column with a parameter: `IS` in SQLite,
`IS NOT DISTINCT FROM` in PostgreSQL. -/
def Dialect.sameOrdinal : Dialect → Option Nat → Option Nat → Bool
  | .sqlite, a, b => a == b
  | .postgres, none, none => true
  | .postgres, some a, some b => a == b
  | .postgres, _, _ => false

/-! Updates that keep the key of a row. -/

theorem StreamPlanRow.sealed_planKey (planSeal : ExpectedWindowPlanSeal) :
    ∀ r : StreamPlanRow, { r with sealJson := some planSeal }.planKey = r.planKey :=
  fun _ => rfl

theorem StreamPlanRow.closed_planKey (closure : WindowTerminalClosure) :
    ∀ r : StreamPlanRow, { r with terminalClosureJson := some closure }.planKey = r.planKey :=
  fun _ => rfl

theorem StreamWorkRow.published_workItemId : ∀ r : StreamWorkRow,
    { r with publicationState := .published }.plan.workItemId = r.plan.workItemId :=
  fun _ => rfl

theorem StreamWorkRow.pending_workItemId : ∀ r : StreamWorkRow,
    { r with publicationState := .pending }.plan.workItemId = r.plan.workItemId :=
  fun _ => rfl

theorem sameOrdinal_eq (dialect : Dialect) (a b : Option Nat) :
    dialect.sameOrdinal a b = (a == b) := by
  cases dialect <;> cases a <;> cases b <;> simp [Dialect.sameOrdinal]

/-- `COUNT` is an integer in both databases. -/
def countColumn (n : Nat) (field : String) : Except StreamError Nat :=
  (Cell.integer n).int field

/-- One bounded stream row joined to its execution state. -/
structure StoredStreamWorkExecution where
  work : StreamWorkRow
  executionState : WorkItemState
  executionCreatedAt : Rfc3339Timestamp

/-- The check of the arguments of a lookup by several ordinals or identities. -/
def requireUnique {α : Type} [DecidableEq α] (values : List α) (field : String) :
    Except StreamError Unit :=
  refuse (!decide values.Nodup) (.value (field ++ " must be unique"))

namespace LedgerDb

variable (dialect : Dialect) (ldb : LedgerDb)

/-! ## Reads -/

/-- `plans`: `ORDER BY plan_key`. -/
def allPlans : List StreamPlanRow := ldb.plans.rows.insertionSort fun a b => a.planKey ≤ b.planKey

def windowCount (planKey : String) : Except StreamError Nat :=
  countColumn (ldb.windowsOf planKey).length "count"

def terminalMemberAt (planKey : String) (ordinal : Nat) : Option WindowTerminalMember :=
  (ldb.windowAt planKey ordinal).bind (·.terminalMember)

def terminalMemberCount (planKey : String) : Except StreamError Nat :=
  countColumn ((ldb.windowsOf planKey).countP (·.terminalMember.isSome)) "count"

def workPlansForOrdinal (planKey : String) (ordinal : Nat) : List StreamWorkRow :=
  (ldb.workPlans planKey).filter (·.expectedOrdinal == some ordinal)

/-- The join of a stream row with its execution item. -/
def executionOf (r : StreamWorkRow) : Option StoredStreamWorkExecution :=
  (ldb.work.item? r.plan.workItemId).map fun item => ⟨r, item.state, item.createdAt⟩

/-- `bounded_execution_scope`: the first active rows and their direct upstream rows. -/
def boundedExecutionScope (planKey : String) (maxActive : Nat) (terminalStates : List WorkItemState)
    (finalizationStage : StreamStage) : Except StreamError (List StoredStreamWorkExecution) := do
  refuse (maxActive == 0) (.value "max_active must be positive")
  refuse terminalStates.isEmpty (.value "terminal_states must not be empty")
  let active := (((ldb.workPlans planKey).filter fun r =>
    r.publicationState == .published && r.plan.stage != finalizationStage &&
      (ldb.work.item? r.plan.workItemId).any fun item =>
        !terminalStates.contains item.state).take maxActive).map (·.plan.workItemId)
  let upstream := (ldb.work.deps.rows.filter fun d =>
    active.contains d.downstreamWorkItemId).map (·.upstreamWorkItemId)
  .ok (((ldb.workPlans planKey).filter fun r =>
    (active ++ upstream).contains r.plan.workItemId).filterMap ldb.executionOf)

/-! ## Appends and seals -/

/-- The rows of one ordinal: `ORDER BY role_order, work_item_id`. -/
def companionRows (planKey : String) (expectedOrdinal : Option Nat) : List StreamWorkRow :=
  (ldb.workPlans planKey).filter fun r => dialect.sameOrdinal r.expectedOrdinal expectedOrdinal

def verifyExistingWorkRows (planKey : String) (expectedOrdinal : Option Nat)
    (expected : List NewStreamWorkPlan) : Except StreamError Unit := do
  let stored := ldb.companionRows dialect planKey expectedOrdinal
  refuse (stored.length != expected.length)
    (.ledgerConflict "stream work replay lacks exact companion rows")
  refuse (!(stored.zip expected).all fun pair => pair.2.sameRow pair.1)
    (.ledgerConflict "stream work replay changed exact companion rows")

/-- The first loop of `append_windows` on one window: whether it is new, and the ordinal
that comes next. -/
def admitWindow (plan : StreamPlanRow) (next : Nat) (window : NewStreamWindow) :
    Except StreamError (Bool × Nat) :=
  match ldb.windows.find? (plan.planKey, window.ordinal) with
  | some stored => do
      refuse (stored.declaration != window.declaration || stored.window != window.window)
        (.ledgerConflict "expected-window replay changed exact bytes")
      ldb.verifyExistingWorkRows dialect plan.planKey (some window.ordinal) window.workPlans
      .ok (false, next)
  | none => do
      refuse (plan.plannerEosSha256.isSome || plan.sealJson.isSome)
        (.ledgerConflict "cannot append a new window after planner EOS")
      refuse (next != window.ordinal)
        (.ledgerConflict "expected windows must be appended in contiguous planner order")
      .ok (true, next + 1)

/-- The first loop of `append_windows`: which windows of the batch are new. -/
def admitWindows (plan : StreamPlanRow) : Nat → List NewStreamWindow → Except StreamError (List Bool)
  | _, [] => .ok []
  | next, window :: rest => do
      let admitted ← ldb.admitWindow dialect plan next window
      let inserted ← admitWindows plan admitted.2 rest
      .ok (admitted.1 :: inserted)

/-- The fair admission of `append_windows`, when the caller names its controller. -/
def admitFairly (planKey : String) (controller : Option (String × String)) (newWindows : Nat) :
    Except StreamError Unit :=
  match controller with
  | some (controllerKey, policyVersion) =>
    if newWindows = 0 then .ok ()
    else ldb.enforceRecordingFairAdmission planKey controllerKey policyVersion newWindows
  | none => .ok ()

/-- The controller an append names: both of its arguments or neither. -/
def appendController (controllerKey controllerPolicyVersion : Option String) :
    Except StreamError (Option (String × String)) :=
  match controllerKey, controllerPolicyVersion with
  | none, none => .ok none
  | some key, some policyVersion => do
      requireNonemptyText key "controller_key"
      requireNonemptyText policyVersion "controller_policy_version"
      .ok (some (key, policyVersion))
  | _, _ =>
    .error (.value "controller_key and controller_policy_version must be supplied together")

def appendWindows (planKey : String) (windows : List NewStreamWindow)
    (controllerKey controllerPolicyVersion : Option String) :
    Except StreamError (List Bool × LedgerDb) :=
  if windows.isEmpty then .ok ([], ldb)
  else do
    let controller ← appendController controllerKey controllerPolicyVersion
    refuse (windows.any fun w =>
        w.workPlans.any (·.expectedOrdinal != some w.ordinal))
      (.ledgerConflict "stream child work ordinal does not match its window")
    refuse (!decide ((windows.map (·.ordinal)).Pairwise (· < ·)))
      (.ledgerConflict "window batch ordinals must be unique and ordered")
    let plan ← ldb.getPlan planKey
    let inserted ← ldb.admitWindows dialect plan (ldb.nextWindowOrdinal planKey) windows
    ldb.admitFairly planKey controller (inserted.count true)
    let new := ((windows.zip inserted).filter Prod.snd).map Prod.fst
    let db ← new.foldlM (StreamDb.insertWindow planKey) ldb.toStreamDb
    .ok (inserted, { ldb with toStreamDb := db })

def storeSealAndFinalization (planKey : String) (planSeal : ExpectedWindowPlanSeal)
    (declarations : List ExpectedWindowDeclaration) (finalization : NewStreamWorkPlan) :
    Except StreamError (Bool × LedgerDb) := do
  let plan ← ldb.getPlan planKey
  refuse plan.plannerEosSha256.isNone (.ledgerConflict "planner EOS must be durable before seal")
  let stored := ldb.windowsOf planKey
  refuse ((stored.map (·.ordinal)) != List.range declarations.length ||
      (stored.map (·.declaration)) != declarations)
    (.ledgerConflict "EOS seal declarations changed before commit")
  match plan.sealJson with
  | some existing => do
      refuse (existing != planSeal) (.ledgerConflict "EOS seal replay changed source facts")
      ldb.verifyExistingWorkRows dialect planKey none [finalization]
      .ok (false, ldb)
  | none => do
      let db ← (ldb.setPlan planKey (fun r => { r with sealJson := some planSeal })
        (StreamPlanRow.sealed_planKey planSeal)).insertWork planKey finalization
      .ok (true, { ldb with toStreamDb := db })

def storeClosureAndOpenFinalization (planKey : String) (closure : WindowTerminalClosure)
    (finalizationStage : StreamStage) : Except StreamError LedgerDb := do
  let plan ← ldb.getPlan planKey
  refuse (plan.terminalClosureJson.any fun existing => existing != closure)
    (.ledgerConflict "terminal closure replay changed accepted members")
  match ldb.rows.rows.filter fun r => r.planKey == planKey && r.plan.stage == finalizationStage with
  | [finalization] => do
      refuse (plan.terminalClosureJson.isNone && finalization.publicationState != .gated)
        (.ledgerConflict "unclosed finalization work must remain gated")
      refuse (plan.terminalClosureJson.isSome && finalization.publicationState == .gated)
        (.ledgerConflict "closed finalization work cannot remain gated")
      let closed := ldb.setPlan planKey (fun r => { r with terminalClosureJson := some closure })
        (StreamPlanRow.closed_planKey closure)
      .ok { ldb with
        toStreamDb := { closed with
          rows := closed.rows.updateWhere
            (fun r => r.planKey == planKey && r.plan.stage == finalizationStage &&
              r.publicationState == .gated)
            (fun r => { r with publicationState := .pending })
            StreamWorkRow.pending_workItemId } }
  | _ => .error (.ledger "terminal closure requires exact finalization work")

/-! ## Publication and terminals -/

def markPublished (workItemId : OpaqueUuid) : LedgerDb :=
  { ldb with
    rows := ldb.rows.updateWhere
      (fun r => r.plan.workItemId == workItemId && r.publicationState == .pending)
      (fun r => { r with publicationState := .published }) StreamWorkRow.published_workItemId }

/-- `mark_published_many`, with the number of rows it changes. -/
def markPublishedMany (workItemIds : List OpaqueUuid) : Except StreamError (Nat × LedgerDb) := do
  let db ← ldb.toStreamDb.markPublishedMany workItemIds
  .ok (ldb.rows.rowcount fun r =>
    workItemIds.contains r.plan.workItemId && r.publicationState == .pending,
    { ldb with toStreamDb := db })

/-- The arguments of `store_pending_terminal`; the times are texts of one spelling, compared
as the instants they name. -/
structure PendingTerminalCall where
  workItemId : OpaqueUuid
  payload : StreamTerminalEvidence
  leaseEpoch : Nat
  fencingToken : NonEmptyString
  workerId : Option NonEmptyString
  authorityNow : Option Int
  leaseExpiresAt : Option Rfc3339Timestamp

/-- The fence `store_pending_terminal` checks when it is given a worker and a time. -/
def holdsFence (call : PendingTerminalCall) (workerId : NonEmptyString) (authorityNow : Int) : Bool :=
  (ldb.work.item? call.workItemId).any fun execution =>
    execution.state.isActive && execution.leaseEpoch == call.leaseEpoch &&
      execution.fencingToken == some call.fencingToken && execution.leasedBy == some workerId &&
      execution.leaseExpiresAt.any fun expiry =>
        call.leaseExpiresAt.all (fun named => expiry == named) &&
          decide (authorityNow < parseTimestamp expiry)

def storePendingTerminal (call : PendingTerminalCall) : Except StreamError (Bool × LedgerDb) := do
  refuse (call.workerId.isNone != call.authorityNow.isNone)
    (.value "worker_id and authority_now must be supplied together")
  match ldb.rows.find? call.workItemId with
  | none => .error (.ledger "terminal work is not in this graph")
  | some row =>
    match row.terminalEvidence with
    | some accepted => do
        refuse (accepted != call.payload)
          (.ledgerConflict "terminal replay changed accepted stream evidence")
        .ok (false, ldb)
    | none => do
        refuse (call.workerId.any fun workerId => call.authorityNow.any fun now =>
            !ldb.holdsFence call workerId now)
          (.work (.fence "work lease is stale, expired, or inactive"))
        let intent : PendingTerminal := ⟨call.payload, call.leaseEpoch, call.fencingToken⟩
        if row.pending = some intent then .ok (true, ldb)
        else do
          refuse (row.pending.any fun stored => decide (call.leaseEpoch ≤ stored.leaseEpoch))
            (.ledgerConflict "a newer or conflicting terminal acceptance is pending")
          .ok (true, { ldb with
            toStreamDb := ldb.setRow call.workItemId (fun r => { r with pending := some intent })
              fun _ => rfl })

end LedgerDb

/-! ## The methods as the stream path calls them -/

section StreamPath

variable {dialect : Dialect} {ldb : LedgerDb}

theorem companionRows_eq {planKey : String} {expectedOrdinal : Option Nat} :
    ldb.companionRows dialect planKey expectedOrdinal =
      ldb.toStreamDb.companionRows planKey expectedOrdinal := by
  apply List.filter_congr
  intro r _
  exact sameOrdinal_eq dialect _ _

theorem verifyExistingWorkRows_eq {planKey : String} {expectedOrdinal : Option Nat}
    {expected : List NewStreamWorkPlan} :
    ldb.verifyExistingWorkRows dialect planKey expectedOrdinal expected =
      ldb.toStreamDb.verifyExistingWorkRows planKey expectedOrdinal expected := by
  unfold LedgerDb.verifyExistingWorkRows StreamDb.verifyExistingWorkRows
  rw [companionRows_eq]

theorem admitWindow_eq {plan : StreamPlanRow} {next : Nat} {window : NewStreamWindow} :
    ldb.admitWindow dialect plan next window = ldb.toStreamDb.admitWindow plan next window := by
  unfold LedgerDb.admitWindow
  simp only [verifyExistingWorkRows_eq] <;> rfl

end StreamPath

end Robata.Stream
