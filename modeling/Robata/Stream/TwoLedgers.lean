import Robata.Stream.LedgerMethods
import Robata.Stream.PublishedRows

/-!
# One ledger on two databases

A history is a sequence of calls of one ledger, between which the scheduler may change the
work items it shares the file with.  Each call is one transaction: a call that raises leaves
the tables as they were.  The histories of the two ledgers are compared call by call, by the
value that is returned, if one is, and by the tables after it.
-/

namespace Robata.Stream

open Backpressure (BackpressureControllerState)
open Lib
open Queue (OpaqueUuid Sha256Digest NonEmptyString WorkItemState SchedulerOp)

inductive LedgerCall
  | registerPlan (planKey pins : String)
  | getPlan (planKey : String)
  | plans
  | claimBackpressureController (planKey controllerKey policyVersion ownerId : String)
      (initialState : BackpressureControllerState)
  | saveBackpressureController (controller : StoredStreamBackpressureController)
      (state : BackpressureControllerState)
  | appendWindows (planKey : String) (windows : List NewStreamWindow)
      (controllerKey controllerPolicyVersion : Option String)
  | appendWindow (planKey : String) (window : NewStreamWindow)
      (controllerKey controllerPolicyVersion : Option String)
  | windows (planKey : String)
  | windowsForOrdinals (planKey : String) (ordinals : List Nat)
  | windowCount (planKey : String)
  | nextWindowOrdinal (planKey : String)
  | windowAt (planKey : String) (ordinal : Nat)
  | terminalMemberAt (planKey : String) (ordinal : Nat)
  | terminalMemberCount (planKey : String)
  | setPlannerEos (planKey : String) (finishSha256 : Sha256Digest)
  | storeSealAndFinalization (planKey : String) (planSeal : ExpectedWindowPlanSeal)
      (declarations : List ExpectedWindowDeclaration) (finalization : NewStreamWorkPlan)
  | markExportBarrier (planKey : String) (manifestSha256 : Sha256Digest) (memberCount : Nat)
  | storeClosureAndOpenFinalization (planKey : String) (closure : WindowTerminalClosure)
      (finalizationStage : StreamStage)
  | workPlans (planKey : String)
  | pendingPublicationWorkRows (planKey : String)
  | nextReadyWork (planKey : String)
  | workPlansForOrdinals (planKey : String) (ordinals : List Nat)
  | workPlansForIds (workItemIds : List OpaqueUuid)
  | workPlansForOrdinal (planKey : String) (ordinal : Nat)
  | boundedExecutionScope (planKey : String) (maxActive : Nat)
      (terminalStates : List WorkItemState) (finalizationStage : StreamStage)
  | backlogProjection (planKey : String) (terminalStates : List WorkItemState)
      (finalizationStage : StreamStage)
  | getWork (workItemId : OpaqueUuid)
  | getWorkByKey (logicalKey : NonEmptyString)
  | markPublished (workItemId : OpaqueUuid)
  | markPublishedMany (workItemIds : List OpaqueUuid)
  | storePendingTerminal (call : LedgerDb.PendingTerminalCall)
  | pendingWorkItemIds (planKey : String)
  | pendingWorkRows (planKey : String)
  | acceptPendingTerminal (workItemId : OpaqueUuid) (expected : StreamTerminalEvidence)
      (member : Option WindowTerminalMember) (expectedOrdinal : Option Nat)

/-- What a call of a ledger returns. -/
inductive LedgerValue
  | nothing
  | flag (value : Bool)
  | flags (values : List Bool)
  | number (value : Nat)
  | plan (row : StreamPlanRow)
  | plans (rows : List StreamPlanRow)
  | controller (row : StoredStreamBackpressureController)
  | window (row : Option ExpectedWindowRow)
  | windows (rows : List ExpectedWindowRow)
  | member (value : Option WindowTerminalMember)
  | work (row : Option StreamWorkRow)
  | works (rows : List StreamWorkRow)
  | executions (rows : List StoredStreamWorkExecution)
  | backlog (value : StoredStreamBacklog)
  | workItemIds (values : List OpaqueUuid)

section Ledger

variable (dialect : Dialect)

/-- A call that only reads. -/
def LedgerDb.read (ldb : LedgerDb) (value : LedgerValue) : Except StreamError (LedgerValue × LedgerDb) :=
  .ok (value, ldb)

/-- A call that writes the stream tables and returns nothing. -/
def LedgerDb.wrote (ldb : LedgerDb) (db : StreamDb) : LedgerValue × LedgerDb :=
  (.nothing, { ldb with toStreamDb := db })

def LedgerDb.runCall (ldb : LedgerDb) : LedgerCall → Except StreamError (LedgerValue × LedgerDb)
  | .registerPlan planKey pins => (ldb.registerPlan planKey pins).map ldb.wrote
  | .getPlan planKey => do ldb.read (.plan (← ldb.getPlan planKey))
  | .plans => ldb.read (.plans ldb.allPlans)
  | .claimBackpressureController planKey controllerKey policyVersion ownerId initialState => do
      let claimed ← ldb.claimBackpressureController planKey controllerKey policyVersion ownerId
        initialState
      .ok (.controller claimed.1, claimed.2)
  | .saveBackpressureController controller state => do
      let saved ← ldb.saveBackpressureController controller state
      .ok (.controller saved.1, saved.2)
  | .appendWindows planKey batch controllerKey controllerPolicyVersion => do
      let appended ← ldb.appendWindows dialect planKey batch controllerKey controllerPolicyVersion
      .ok (.flags appended.1, appended.2)
  | .appendWindow planKey window controllerKey controllerPolicyVersion => do
      let appended ← ldb.appendWindows dialect planKey [window] controllerKey controllerPolicyVersion
      .ok (.flag (appended.1.headD false), appended.2)
  | .windows planKey => ldb.read (.windows (ldb.windowsOf planKey))
  | .windowsForOrdinals planKey ordinals => do
      requireUnique ordinals "ordinals"
      ldb.read (.windows (ldb.toStreamDb.windowsForOrdinals planKey ordinals))
  | .windowCount planKey => do ldb.read (.number (← ldb.windowCount planKey))
  | .nextWindowOrdinal planKey => ldb.read (.number (ldb.toStreamDb.nextWindowOrdinal planKey))
  | .windowAt planKey ordinal => ldb.read (.window (ldb.toStreamDb.windowAt planKey ordinal))
  | .terminalMemberAt planKey ordinal => ldb.read (.member (ldb.terminalMemberAt planKey ordinal))
  | .terminalMemberCount planKey => do ldb.read (.number (← ldb.terminalMemberCount planKey))
  | .setPlannerEos planKey finishSha256 => (ldb.setPlannerEos planKey finishSha256).map ldb.wrote
  | .storeSealAndFinalization planKey planSeal declarations finalization => do
      let stored ← ldb.storeSealAndFinalization dialect planKey planSeal declarations finalization
      .ok (.flag stored.1, stored.2)
  | .markExportBarrier planKey manifestSha256 memberCount =>
    (ldb.markExportBarrier planKey manifestSha256 memberCount).map ldb.wrote
  | .storeClosureAndOpenFinalization planKey closure finalizationStage => do
      let closed ← ldb.storeClosureAndOpenFinalization planKey closure finalizationStage
      .ok (.nothing, closed)
  | .workPlans planKey => ldb.read (.works (ldb.toStreamDb.workPlans planKey))
  | .pendingPublicationWorkRows planKey =>
    ldb.read (.works (ldb.toStreamDb.pendingPublicationWorkRows planKey))
  | .nextReadyWork planKey => ldb.read (.work (ldb.toStreamDb.nextReadyWork planKey))
  | .workPlansForOrdinals planKey ordinals => do
      requireUnique ordinals "ordinals"
      ldb.read (.works (ldb.toStreamDb.workPlansForOrdinals planKey ordinals))
  | .workPlansForIds workItemIds => do
      requireUnique workItemIds "work_item_ids"
      ldb.read (.works (← ldb.toStreamDb.workPlansForIds workItemIds))
  | .workPlansForOrdinal planKey ordinal =>
    ldb.read (.works (ldb.workPlansForOrdinal planKey ordinal))
  | .boundedExecutionScope planKey maxActive terminalStates finalizationStage => do
      ldb.read (.executions
        (← ldb.boundedExecutionScope planKey maxActive terminalStates finalizationStage))
  | .backlogProjection planKey terminalStates finalizationStage => do
      ldb.read (.backlog
        (← ldb.toStreamDb.backlogProjection dialect planKey terminalStates finalizationStage))
  | .getWork workItemId => do ldb.read (.work (some (← ldb.toStreamDb.getWork workItemId)))
  | .getWorkByKey logicalKey => do
      ldb.read (.work (some (← ldb.toStreamDb.getWorkByKey logicalKey)))
  | .markPublished workItemId => .ok (.nothing, ldb.markPublished workItemId)
  | .markPublishedMany workItemIds => do
      let published ← ldb.markPublishedMany workItemIds
      .ok (.number published.1, published.2)
  | .storePendingTerminal call => do
      let stored ← ldb.storePendingTerminal call
      .ok (.flag stored.1, stored.2)
  | .pendingWorkItemIds planKey => ldb.read
      (.workItemIds ((ldb.toStreamDb.pendingWorkRows planKey).map (·.plan.workItemId)))
  | .pendingWorkRows planKey => ldb.read (.works (ldb.toStreamDb.pendingWorkRows planKey))
  | .acceptPendingTerminal workItemId expected member expectedOrdinal =>
    (ldb.acceptPendingTerminal workItemId expected member expectedOrdinal).map ldb.wrote

end Ledger

/-! ## Histories -/

/-- A step of a history: a call of the ledger, or one of the scheduler it shares its file with. -/
inductive LedgerStep
  | call (c : LedgerCall)
  | work (op : SchedulerOp)

def LedgerStep.run (dialect : Dialect) (ldb : LedgerDb) :
    LedgerStep → Except StreamError (LedgerValue × LedgerDb)
  | .call c => ldb.runCall dialect c
  | .work op =>
    match op.run ldb.work with
    | .ok tables => .ok (.nothing, { ldb with work := tables })
    | .error e => .error (.work e)

/-- What the caller sees of a step: the value, if one is returned, and the tables after it. -/
def LedgerStep.outcome (dialect : Dialect) (ldb : LedgerDb) (step : LedgerStep) :
    Option LedgerValue × LedgerDb :=
  match step.run dialect ldb with
  | .ok (value, ldb') => (some value, ldb')
  | .error _ => (none, ldb)

/-- The outcomes of the steps of a history. -/
def ledgerHistory (dialect : Dialect) : LedgerDb → List LedgerStep → List (Option LedgerValue × LedgerDb)
  | _, [] => []
  | ldb, step :: rest =>
    let out := step.outcome dialect ldb
    out :: ledgerHistory dialect out.2 rest

/-- The histories of `SQLiteStreamWorkLedger`. -/
def sqliteStreamWorkLedger : LedgerDb → List LedgerStep → List (Option LedgerValue × LedgerDb) :=
  ledgerHistory .sqlite

/-- The histories of `PostgresStreamWorkLedger`. -/
def postgresStreamWorkLedger : LedgerDb → List LedgerStep → List (Option LedgerValue × LedgerDb) :=
  ledgerHistory .postgres

/-- A step asks for the backlog of a registered plan whose rows can all be joined. -/
def LedgerStep.ReadsBacklog (ldb : LedgerDb) : LedgerStep → Prop
  | .call (.backlogProjection planKey terminalStates _) =>
    terminalStates ≠ [] ∧ (∃ plan, ldb.plans.find? planKey = some plan) ∧
      ldb.toStreamDb.PlannedRows planKey
  | _ => False

/-- No step of a history asks for such a backlog. -/
def NeverReadsBacklog : LedgerDb → List LedgerStep → Prop
  | _, [] => True
  | ldb, step :: rest =>
    ¬ step.ReadsBacklog ldb ∧ NeverReadsBacklog (step.outcome .sqlite ldb).2 rest

/-! ## One call on the two databases -/

section Agreement

variable {ldb : LedgerDb} {step : LedgerStep}

theorem admitWindows_postgres {plan : StreamPlanRow} {windows : List NewStreamWindow} :
    ∀ {next : Nat}, ldb.admitWindows .postgres plan next windows =
      ldb.admitWindows .sqlite plan next windows := by
  induction windows with
  | nil =>
    intro next
    rfl
  | cons window rest ih =>
    intro next
    simp only [LedgerDb.admitWindows, admitWindow_eq, ih]

theorem appendWindows_postgres {planKey : String} {windows : List NewStreamWindow}
    {controllerKey controllerPolicyVersion : Option String} :
    ldb.appendWindows .postgres planKey windows controllerKey controllerPolicyVersion =
      ldb.appendWindows .sqlite planKey windows controllerKey controllerPolicyVersion := by
  simp only [LedgerDb.appendWindows, admitWindows_postgres]

theorem storeSealAndFinalization_postgres {planKey : String} {planSeal : ExpectedWindowPlanSeal}
    {declarations : List ExpectedWindowDeclaration} {finalization : NewStreamWorkPlan} :
    ldb.storeSealAndFinalization .postgres planKey planSeal declarations finalization =
      ldb.storeSealAndFinalization .sqlite planKey planSeal declarations finalization := by
  simp only [LedgerDb.storeSealAndFinalization, verifyExistingWorkRows_eq]

theorem backlogProjection_postgres (db : StreamDb) (planKey : String)
    (terminalStates : List WorkItemState) (stage : StreamStage) :
    ∃ e, db.backlogProjection .postgres planKey terminalStates stage = .error e := by
  cases h : db.backlogProjection .postgres planKey terminalStates stage with
  | error e => exact ⟨e, rfl⟩
  | ok b =>
    obtain ⟨_, _, _, hdialect, _⟩ := backlogProjection_spec h
    cases hdialect

/-- On SQLite it returns for every plan whose rows can be joined, and for no other. -/
theorem backlogProjection_sqlite (db : StreamDb) (planKey : String)
    (terminalStates : List WorkItemState) (stage : StreamStage) :
    (∃ b, db.backlogProjection .sqlite planKey terminalStates stage = .ok b) ↔
      terminalStates ≠ [] ∧ (∃ plan, db.plans.find? planKey = some plan) ∧
        db.PlannedRows planKey := by
  constructor
  · rintro ⟨b, hb⟩
    obtain ⟨hstates, hplan, hrows, _⟩ := backlogProjection_spec hb
    exact ⟨hstates, hplan, hrows⟩
  · rintro ⟨hstates, hplan, hrows⟩
    exact backlogProjection_completes hstates hplan hrows

/-- A read of the backlog has one outcome on the two databases only if it raises on both. -/
theorem backlog_outcome_iff {planKey : String} {terminalStates : List WorkItemState}
    {stage : StreamStage} :
    (LedgerStep.call (.backlogProjection planKey terminalStates stage)).outcome .postgres ldb =
        (LedgerStep.call (.backlogProjection planKey terminalStates stage)).outcome .sqlite ldb ↔
      ¬ (LedgerStep.call (.backlogProjection planKey terminalStates stage)).ReadsBacklog ldb := by
  obtain ⟨e, he⟩ := backlogProjection_postgres ldb.toStreamDb planKey terminalStates stage
  have hsqlite := backlogProjection_sqlite ldb.toStreamDb planKey terminalStates stage
  show _ ↔ ¬ (_ ∧ _ ∧ _)
  rw [← hsqlite]
  simp only [LedgerStep.outcome, LedgerStep.run, LedgerDb.runCall, he]
  cases hb : ldb.toStreamDb.backlogProjection .sqlite planKey terminalStates stage with
  | error e' =>
    constructor
    · rintro _ ⟨b, hb'⟩
      cases hb'
    · intro _
      rfl
  | ok b =>
    constructor
    · intro hsame
      cases congrArg Prod.fst hsame
    · intro hnone
      exact absurd ⟨b, rfl⟩ hnone

theorem outcome_iff :
    step.outcome .postgres ldb = step.outcome .sqlite ldb ↔ ¬ step.ReadsBacklog ldb := by
  cases step with
  | work op => exact ⟨fun _ h => h, fun _ => rfl⟩
  | call c =>
    cases c with
    | backlogProjection planKey terminalStates stage => exact backlog_outcome_iff
    | appendWindows planKey windows controllerKey controllerPolicyVersion
    | appendWindow planKey window controllerKey controllerPolicyVersion =>
      refine ⟨fun _ h => h, fun _ => ?_⟩
      simp only [LedgerStep.outcome, LedgerStep.run, LedgerDb.runCall, appendWindows_postgres]
    | storeSealAndFinalization planKey planSeal declarations finalization =>
      refine ⟨fun _ h => h, fun _ => ?_⟩
      simp only [LedgerStep.outcome, LedgerStep.run, LedgerDb.runCall,
        storeSealAndFinalization_postgres]
    | _ => exact ⟨fun _ h => h, fun _ => rfl⟩

end Agreement

/-! ## Whole histories -/

/-- The two ledgers are one exactly on the histories that read no backlog. -/
theorem two_ledgers_agree_exact (ldb : LedgerDb) (steps : List LedgerStep) :
    postgresStreamWorkLedger ldb steps = sqliteStreamWorkLedger ldb steps ↔
      NeverReadsBacklog ldb steps := by
  unfold postgresStreamWorkLedger sqliteStreamWorkLedger
  induction steps generalizing ldb with
  | nil => exact ⟨fun _ => trivial, fun _ => rfl⟩
  | cons step rest ih =>
    simp only [ledgerHistory, NeverReadsBacklog, List.cons.injEq, ← ih, ← outcome_iff]
    constructor
    · rintro ⟨hfirst, hrest⟩
      rw [hfirst] at hrest
      exact ⟨hfirst, hrest⟩
    · rintro ⟨hfirst, hrest⟩
      refine ⟨hfirst, ?_⟩
      rw [hfirst]
      exact hrest

/-- A plan is registered, and its backlog read: PostgreSQL refuses the `EXISTS` column. -/
theorem two_ledgers_agree_fails :
    ¬ ∀ (ldb : LedgerDb) (steps : List LedgerStep),
      postgresStreamWorkLedger ldb steps = sqliteStreamWorkLedger ldb steps := by
  intro h
  have hunread := (two_ledgers_agree_exact _ _).mp (h .empty [.call (.registerPlan "plan" ""),
    .call (.backlogProjection "plan" [.succeeded] .finalization)])
  refine hunread.2.1 ⟨by decide, ⟨_, rfl⟩, ?_⟩
  decide +kernel

end Robata.Stream
