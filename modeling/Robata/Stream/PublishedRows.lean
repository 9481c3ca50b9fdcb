import Robata.Stream.CommitRefinement
import Robata.Stream.WindowAdmission

/-!
# Rows and their execution items

A window becomes executable in three transactions: its rows are appended, their execution
items are planned, and the rows are marked as published.  The scheduler may fail or stop
between any two of them.  The run of a `StreamNode` interleaves these transactions with all
the others; what holds in each of its states ties the rows to the items, and says when the
backlog can be added up.
-/

namespace Robata.Stream

open Backpressure (BackpressureConfig BackpressureControllerState)
open Lib Relation List
open Queue (OpaqueUuid Sha256Digest Rfc3339Timestamp WorkItemPlan WorkDependency WorkLedger
  parseTimestamp formatTimestamp)
open Queue.WorkLedger (Evolves)
open Outbox (OutboxRetryPolicy)

variable {codec : Codec} {policy : OutboxRetryPolicy}

/-! ## The scheduler's transactions -/

/-- The identities and digests a projection takes from elsewhere. -/
structure ExecutionNames where
  sourceSurrogate : Sha256Digest → OpaqueUuid
  subjectSurrogate : String → OpaqueUuid
  configDigest : Sha256Digest → Sha256Digest

def StreamStage.executionProjection : StreamStage → Queue.Stage
  | .segment => .mcapIngest
  | .window => .qaCoarsePlan
  | .qaCoarse => .qwenQaCoarse
  | .qaDense => .qwenQaDense
  | .eventProposal => .qwenEventProposal
  | .actionDense => .qwenActionEvidence
  | .boundaryRefinement => .qwenBoundary
  | .windowReduction => .qaAggregate
  | .finalization => .actionPublish

/-- `_internal_execution_projection`, less the dependencies. -/
def internalExecutionProjection (names : ExecutionNames) (plan : StreamWorkItemPlan) :
    WorkItemPlan where
  workItemId := plan.workItemId
  workLogicalKey := plan.workLogicalKey
  runId := plan.streamRunId
  mcapId := names.sourceSurrogate plan.captureScopeDigest
  stage := plan.stage.executionProjection
  subjectType := .window
  subjectId := names.subjectSurrogate (plan.subject.subjectType ++ ":" ++ plan.subject.subjectKey)
  inputDigest := plan.inputSemanticSha256
  configDigest := names.configDigest plan.configSemanticSha256
  priority := plan.priority
  slaDeadlineAt := plan.slaDeadlineAt
  executionExpiryAt := plan.executionExpiryAt
  maxAttempts := plan.maxAttempts
  traceId := plan.traceId
  createdAt := plan.createdAt
  maxAttempts_pos := plan.maxAttempts_pos

/-- A scheduler process on its database: `projected` names the rows whose items it has
planned and may mark as published. -/
structure StreamNode where
  db : StreamDb
  projected : List OpaqueUuid

/-- The transactions of a run.  `_publish_work_rows` is the two transactions `project` and
`publish`; `stop` ends the process and starts another. -/
inductive NodeOp
  | project (rows : List (StreamWorkRow × List WorkDependency))
  | publish (workItemIds : List OpaqueUuid)
  | transaction (op : StreamOp)
  | stop

section Node

variable (codec policy) (names : ExecutionNames)

def NodeOp.run : NodeOp → StreamNode → Except StreamError StreamNode
  | .project rows, node => do
      let plans := rows.map fun p => (internalExecutionProjection names p.1.plan, p.2)
      let db ← runStreamOp codec policy (.work (.planMany plans)) node.db
      .ok ⟨db, node.projected ++ rows.map fun p => p.1.plan.workItemId⟩
  | .publish workItemIds, node => do
      let db ← runStreamOp codec policy (.markPublishedMany workItemIds) node.db
      .ok { node with db := db }
  | .transaction op, node => do
      let db ← runStreamOp codec policy op node.db
      .ok { node with db := db }
  | .stop, node => .ok { node with projected := [] }

/-- What the scheduler appends: rows to be published at once, or the gated finalization,
created at an instant of its clock. -/
def StreamOp.Issued : StreamOp → Prop
  | .work op => op.plans = []
  | .markPublishedMany _ => False
  | .appendWindows _ windows _ => ∀ w ∈ windows, ∀ work ∈ w.workPlans,
      work.publicationState = .pending ∧ work.plan.createdAt.utcOffset = 0
  | .storeSealAndFinalization _ _ _ finalization =>
    finalization.publicationState = .gated ∧ finalization.plan.createdAt.utcOffset = 0
  | _ => True

/-- What the scheduler issues: it projects rows it has read as released, and publishes what
it has projected. -/
def NodeOp.Issued : NodeOp → StreamNode → Prop
  | .project rows, node => ∀ p ∈ rows, ∃ r ∈ node.db.rows.rows,
      r.plan = p.1.plan ∧ r.publicationState ≠ .gated
  | .publish workItemIds, node => ∀ i ∈ workItemIds, i ∈ node.projected
  | .transaction op, _ => op.Issued
  | .stop, _ => True

/-- The states of a run on a fresh database, whatever fails or stops in it. -/
def NodeReachable (node : StreamNode) : Prop :=
  Reach (NodeOp.run codec policy names) NodeOp.Issued ⟨.empty, []⟩ node

end Node

/-! ## What every run keeps -/

/-- What ties the stream rows to the execution items. -/
structure RowsTied (node : StreamNode) : Prop where
  work : WorkKept node.db.work
  canonical : ∀ r ∈ node.db.rows.rows, r.plan.createdAt.utcOffset = 0
  /-- Only released rows have items, created when the row was. -/
  row : ∀ i item, node.db.work.item? i = some item → ∃ r ∈ node.db.rows.rows,
    r.plan.workItemId = i ∧ r.publicationState ≠ .gated ∧ item.createdAt = r.plan.createdAt
  /-- A published row has its item. -/
  published : ∀ r ∈ node.db.rows.rows, r.publicationState = .published →
    (node.db.work.item? r.plan.workItemId).isSome = true
  projected : ∀ i ∈ node.projected, (node.db.work.item? i).isSome = true

theorem normalizeTimestamp_of_utc {t : Rfc3339Timestamp} (h : t.utcOffset = 0) :
    Queue.normalizeTimestamp t = t := by
  cases t
  subst h
  simp [Queue.normalizeTimestamp, formatTimestamp, parseTimestamp]

theorem isSome_of_evolves {s s' : WorkLedger} (h : Evolves s s') {i : OpaqueUuid}
    (hi : (s.item? i).isSome = true) : (s'.item? i).isSome = true := by
  obtain ⟨item, hitem⟩ := Option.isSome_iff_exists.mp hi
  obtain ⟨item', hitem', _⟩ := h.persists.rows i item hitem
  rw [hitem']
  rfl

/-- After a transaction whose plans are those of released rows, and which publishes rows
with items only, rows and items are tied as before. -/
theorem RowsTied.transaction {node : StreamNode} {db' : StreamDb} {op : StreamOp}
    {projected : List OpaqueUuid} (h : RowsTied node)
    (hrun : runStreamOp codec policy op node.db = .ok db')
    (hnew : ∀ work ∈ op.newRows,
      work.publicationState ≠ .published ∧ work.plan.createdAt.utcOffset = 0)
    (hplans : ∀ p ∈ op.plans, ∃ r ∈ node.db.rows.rows, r.plan.workItemId = p.1.workItemId ∧
      r.publicationState ≠ .gated ∧ p.1.createdAt = r.plan.createdAt)
    (hmarks : ∀ i, op.marks i → (db'.work.item? i).isSome = true)
    (hprojected : ∀ i ∈ projected, (db'.work.item? i).isSome = true) :
    RowsTied ⟨db', projected⟩ := by
  have hrows := (runStreamOp_spec hrun).1
  have hevolves := runStreamOp_evolvesBy h.work hrun
  -- a released row is still there and still released
  have hreleased : ∀ r ∈ node.db.rows.rows, r.publicationState ≠ .gated →
      ∃ r' ∈ db'.rows.rows, r'.plan = r.plan ∧ r'.publicationState ≠ .gated := by
    intro r hr hstate
    obtain ⟨r', hr', hkept⟩ := hrows.kept r hr
    exact ⟨r', hr', hkept.plan, hkept.released hstate⟩
  refine ⟨h.work.evolves hevolves.evolves, ?_, ?_, ?_, hprojected⟩
  · intro r' hr'
    rcases hrows.origin r' hr' with ⟨r, hr, hkept⟩ | ⟨work, hwork, planKey, rfl, _⟩
    · rw [hkept.plan]
      exact h.canonical r hr
    · exact (hnew work hwork).2
  · intro i item' hitem'
    rcases hevolves.item_origin hitem' with ⟨item, hitem, hplan⟩ | ⟨_, p, hp, rfl, hplan⟩
    · obtain ⟨r, hr, hid, hstate, hcreated⟩ := h.row i item hitem
      obtain ⟨r', hr', hsame, hstate'⟩ := hreleased r hr hstate
      refine ⟨r', hr', by rw [hsame, hid], hstate', ?_⟩
      rw [congrArg WorkItemPlan.createdAt hplan, hcreated, hsame]
    · obtain ⟨r, hr, hid, hstate, hcreated⟩ := hplans p hp
      obtain ⟨r', hr', hsame, hstate'⟩ := hreleased r hr hstate
      refine ⟨r', hr', by rw [hsame, hid], hstate', ?_⟩
      -- the item stores the normalized text of the plan's creation
      have hstored : item'.createdAt = Queue.normalizeTimestamp p.1.createdAt :=
        congrArg WorkItemPlan.createdAt hplan
      rw [hstored, hcreated, normalizeTimestamp_of_utc (h.canonical r hr), hsame]
  · intro r' hr' hstate'
    rcases hrows.origin r' hr' with ⟨r, hr, hkept⟩ | ⟨work, hwork, planKey, rfl, _⟩
    · rw [hkept.plan]
      rcases hkept.published hstate' with hold | hmarked
      · exact isSome_of_evolves hevolves.evolves (h.published r hr hold)
      · exact hmarks _ hmarked
    · exact absurd hstate' (hnew work hwork).1

theorem isSome_of_planMany {s s' : WorkLedger} {plans : List (WorkItemPlan × List WorkDependency)}
    {items : List Queue.WorkItem} (h : s.planMany plans = .ok (items, s')) :
    ∀ p ∈ plans, (s'.item? p.1.workItemId).isSome = true := by
  intro p hp
  cases plans with
  | nil => cases hp
  | cons first rest =>
    obtain ⟨_, _, h⟩ := bind_eq_ok.mp h
    obtain ⟨s₁, _, h⟩ := bind_eq_ok.mp h
    obtain ⟨out, _, h⟩ := bind_eq_ok.mp h
    obtain ⟨loaded, hloaded, h⟩ := bind_eq_ok.mp h
    cases h
    obtain ⟨item, _, hitem⟩ := mem_results_of_mapM hloaded hp
    rw [WorkLedger.loadItem_eq_ok_iff.mp hitem]
    rfl

theorem RowsTied.step {names : ExecutionNames} {op : NodeOp} {node node' : StreamNode}
    (h : RowsTied node) (hissued : op.Issued node)
    (hrun : op.run codec policy names node = .ok node') : RowsTied node' := by
  cases op with
  | project rows =>
    obtain ⟨db', hplan, hrun⟩ := bind_eq_ok.mp hrun
    cases hrun
    have hitems : ∀ p ∈ rows, (db'.work.item? p.1.plan.workItemId).isSome = true := by
      simp only [runStreamOp] at hplan
      split at hplan <;> cases hplan
      rename_i work hwork
      obtain ⟨items, hmany⟩ := map_snd_eq_ok.mp hwork
      intro p hp
      exact isSome_of_planMany hmany _ (mem_map_of_mem hp)
    have hevolves := runStreamOp_evolves h.work hplan
    refine h.transaction hplan (fun _ hwork => (by cases hwork)) ?_ (fun _ hmark => hmark.elim) ?_
    · intro p hp
      obtain ⟨q, hq, rfl⟩ := mem_map.mp hp
      obtain ⟨r, hr, hsame, hstate⟩ := hissued q hq
      exact ⟨r, hr, congrArg StreamWorkItemPlan.workItemId hsame, hstate,
        (congrArg StreamWorkItemPlan.createdAt hsame).symm⟩
    · intro i hi
      rcases mem_append.mp hi with hold | hnew
      · exact isSome_of_evolves hevolves (h.projected i hold)
      · obtain ⟨p, hp, rfl⟩ := mem_map.mp hnew
        exact hitems p hp
  | publish workItemIds =>
    obtain ⟨db', hmark, hrun⟩ := bind_eq_ok.mp hrun
    cases hrun
    have hevolves := runStreamOp_evolves h.work hmark
    refine h.transaction hmark (fun _ hwork => (by cases hwork)) (fun _ hp => (by cases hp)) ?_ ?_
    · intro i hi
      exact isSome_of_evolves hevolves (h.projected i (hissued i hi))
    · intro i hi
      exact isSome_of_evolves hevolves (h.projected i hi)
  | transaction op =>
    obtain ⟨db', hop, hrun⟩ := bind_eq_ok.mp hrun
    cases hrun
    have hevolves := runStreamOp_evolves h.work hop
    refine h.transaction hop ?_ ?_ ?_ fun i hi => isSome_of_evolves hevolves (h.projected i hi)
    · -- appended rows are pending, and the finalization is gated
      intro work hwork
      cases op with
      | appendWindows planKey windows throttled =>
        obtain ⟨w, hw, hchild⟩ := mem_flatMap.mp hwork
        obtain ⟨hstate, hcreated⟩ := hissued w hw work hchild
        exact ⟨by rw [hstate]; decide, hcreated⟩
      | storeSealAndFinalization planKey planSeal declarations finalization =>
        obtain rfl := mem_singleton.mp hwork
        exact ⟨by rw [hissued.1]; decide, hissued.2⟩
      | _ => cases hwork
    · intro p hp
      cases op with
      | work op =>
        rw [show StreamOp.plans (.work op) = [] from hissued] at hp
        cases hp
      | _ => cases hp
    · intro i hi
      cases op with
      | markPublishedMany workItemIds => exact hissued.elim
      | _ => exact hi.elim
  | stop =>
    cases hrun
    exact ⟨h.work, h.canonical, h.row, h.published, fun _ hi => (by cases hi)⟩

theorem rowsTied_of_reachable {names : ExecutionNames} {node : StreamNode}
    (h : NodeReachable codec policy names node) : RowsTied node := by
  refine h.invariant RowsTied ?_ fun op node node' hnode hissued hrun => hnode.step hissued hrun
  refine ⟨⟨WorkLedger.empty_sound.1, fun j r hr => (by cases hr)⟩, ?_, ?_, ?_, ?_⟩
  · intro r hr
    cases hr
  · intro i item hitem
    cases hitem
  · intro r hr
    cases hr
  · intro i hi
    cases hi

/-! ## The backlog of a reachable state -/

/-- A row whose execution item is missing or not terminal. -/
def StreamDb.isUnfinished (db : StreamDb) (r : StreamWorkRow) : Bool :=
  !((db.work.item? r.plan.workItemId).any (·.state.isTerminal))

/-- The backlog that the rows and items of a plan make up. -/
structure BacklogExact (db : StreamDb) (planKey : String) (b : StoredStreamBacklog) : Prop where
  counts : (b.stateCounts.map Prod.snd).sum = (db.rowsOf planKey).length
  active : b.activeBacklog = (db.rowsOf planKey).countP db.isUnfinished
  oldest : b.oldestActiveCreatedAt.map parseTimestamp =
    (((db.rowsOf planKey).filter db.isUnfinished).map fun r => parseTimestamp r.plan.createdAt).min?

section Exact

variable {node : StreamNode} {planKey : String}

/-- The join of a row shows its own creation, and is active when the row is unfinished. -/
theorem RowsTied.joined (h : RowsTied node) {r : StreamWorkRow} (hr : r ∈ node.db.rows.rows) :
    (node.db.joinExecution r).createdAt = r.plan.createdAt ∧
      isActiveBacklog terminalWorkStates (node.db.joinExecution r).states =
        node.db.isUnfinished r := by
  unfold StreamDb.joinExecution StreamDb.isUnfinished isActiveBacklog BacklogRow.states
  cases hitem : node.db.work.item? r.plan.workItemId with
  | none => simp
  | some item =>
    obtain ⟨q, hq, hid, hstate, hcreated⟩ := h.row _ item hitem
    have hsame : q = r := node.db.rows.eq_of_key_eq hq hr hid
    subst hsame
    have hgated : (q.publicationState == PublicationState.gated) = false := by simpa using hstate
    simp only [Option.map_some, Option.any_some, hgated, Bool.false_or, contains_terminalWorkStates]
    exact ⟨hcreated, trivial⟩

theorem min?_of_leastBy {ts : List Rfc3339Timestamp} {o : Option Rfc3339Timestamp}
    (h : LeastBy textKey ts o) (hutc : ∀ t ∈ ts, t.utcOffset = 0) :
    o.map parseTimestamp = (ts.map parseTimestamp).min? := by
  cases o with
  | none =>
    subst h
    rfl
  | some t =>
    obtain ⟨ht, hleast⟩ := h
    symm
    rw [Option.map_some, min?_eq_some_iff]
    refine ⟨mem_map_of_mem ht, ?_⟩
    intro x hx
    obtain ⟨u, hu, rfl⟩ := mem_map.mp hx
    exact (textKey_le_iff (hutc t ht) (hutc u hu)).mp (hleast u hu)

theorem rowsOf_subset {db : StreamDb} {r : StreamWorkRow} (hr : r ∈ db.rowsOf planKey) :
    r ∈ db.rows.rows := (mem_filter.mp hr).1

theorem RowsTied.backlogExact (h : RowsTied node) {stage : StreamStage} {b : StoredStreamBacklog}
    (hb : node.db.backlogProjection .sqlite planKey terminalWorkStates stage = .ok b) :
    BacklogExact node.db planKey b := by
  obtain ⟨_, _, _, _, hcounts, hactive, holdest⟩ := backlogProjection_spec hb
  have hstates : ∀ r ∈ node.db.rowsOf planKey,
      isActiveBacklog terminalWorkStates (node.db.joinExecution r).states =
        node.db.isUnfinished r := fun r hr => (h.joined (rowsOf_subset hr)).2
  refine ⟨?_, ?_, ?_⟩
  · rw [hcounts, StreamDb.backlogRows, length_map]
  · rw [hactive, StreamDb.backlogRows, countP_map]
    exact List.countP_congr fun r hr => by rw [Function.comp, hstates r hr]
  · have hrows : ((node.db.backlogRows planKey).filter fun row =>
        isActiveBacklog terminalWorkStates row.states).map (·.createdAt) =
        ((node.db.rowsOf planKey).filter node.db.isUnfinished).map fun r => r.plan.createdAt := by
      have hfilter : (node.db.rowsOf planKey).filter
          ((fun row => isActiveBacklog terminalWorkStates row.states) ∘ node.db.joinExecution) =
          (node.db.rowsOf planKey).filter node.db.isUnfinished := filter_congr hstates
      rw [StreamDb.backlogRows, filter_map, List.map_map, hfilter]
      apply map_congr_left
      intro r hr
      exact (h.joined (rowsOf_subset (mem_filter.mp hr).1)).1
    rw [hrows] at holdest
    have hutc : ∀ t ∈ ((node.db.rowsOf planKey).filter node.db.isUnfinished).map
        (·.plan.createdAt), t.utcOffset = 0 := by
      intro t ht
      obtain ⟨r, hr, rfl⟩ := mem_map.mp ht
      exact h.canonical r (rowsOf_subset (mem_filter.mp hr).1)
    rw [min?_of_leastBy holdest hutc, List.map_map]
    rfl

theorem RowsTied.plannedRows_iff (h : RowsTied node) :
    node.db.PlannedRows planKey ↔ ∀ r ∈ node.db.rowsOf planKey,
      r.publicationState = .pending → (node.db.work.item? r.plan.workItemId).isSome = true := by
  constructor
  · intro hplanned r hr hpending
    exact hplanned r hr (by rw [hpending]; decide)
  · intro hpending r hr hstate
    cases hr' : r.publicationState with
    | gated => exact absurd hr' hstate
    | pending => exact hpending r hr hr'
    | published => exact h.published r (rowsOf_subset hr) hr'

end Exact

/-! ## When the backlog is accounted for -/

/-- The projection is returned and exact, the two snapshots are returned, and the controller
decides on further windows, by the number of unfinished rows there are. -/
structure BacklogAccounted (ldb : LedgerDb) (session : BackpressureSession)
    (signals : BackpressureRuntimeSignals) (now : Int) : Prop where
  projection : ∃ b, ldb.backlogProjection .sqlite session.planKey terminalWorkStates .finalization =
    .ok b ∧ BacklogExact ldb.toStreamDb session.planKey b
  backlog : ∃ b, ldb.backlog session.planKey now = .ok b
  snapshot : ∃ out, session.backpressureSnapshot ldb signals now = .ok out
  admission : ∃ metrics decision session' ldb',
    metrics.depth = (ldb.rowsOf session.planKey).countP ldb.isUnfinished ∧
    decision = Backpressure.decision session.config session.state
      ⟨windowStageText, metrics, observedMs now⟩ ∧
    session.admitWindowBatch ldb signals now 1 =
      .ok (if decision.admitted then .admitted else .throttled decision, session', ldb')
  batches : ∀ remaining, ∃ out, session.admitWindowBatch ldb signals now (remaining + 1) = .ok out

instance (op : StreamOp) : Decidable op.Issued := by
  cases op <;> unfold StreamOp.Issued <;> infer_instance

instance (op : NodeOp) (node : StreamNode) : Decidable (op.Issued node) := by
  cases op <;> unfold NodeOp.Issued <;> infer_instance

namespace SampleBacklog

open SampleCommit

def sampleNames : ExecutionNames := ⟨id, fun _ => 0, id⟩

/-- `DEFAULT_STREAM_BACKPRESSURE_CONFIG`. -/
def sampleConfig : BackpressureConfig :=
  .withDefaults ⟨"local-stream-backpressure-v1", by decide⟩ 256 30000 128

def sampleState : BackpressureControllerState :=
  Backpressure.initialState sampleConfig sampleConfig.controllerKey

def sampleController : StoredStreamBackpressureController :=
  ⟨"plan", sampleConfig.controllerKey.val, sampleConfig.version.val, "owner", 1, sampleState⟩

def sampleSession : BackpressureSession :=
  ⟨"plan", sampleConfig, sampleController, sampleState, ⟨rfl, rfl, by decide, by decide⟩⟩

/-- The database of a node with the one controller. -/
def withController (db : StreamDb) : LedgerDb := ⟨db, ⟨[sampleController], nodup_singleton _⟩⟩

/-- A window is appended, and the process stops before it has planned the items. -/
def stoppedOps : List NodeOp :=
  [.transaction (.registerPlan "plan" ""), .transaction (.appendWindows "plan" [sampleWindow] false),
    .stop]

/-- Its successor plans them and publishes the row. -/
def recoveredOps : List NodeOp :=
  stoppedOps ++ [.project [(NewStreamWorkPlan.stored ⟨some 0, 0, samplePlan, .pending⟩ "plan", [])],
    .publish [1]]

def nodeAfter (ops : List NodeOp) : StreamNode :=
  replay (NodeOp.run sampleCodec samplePolicy sampleNames) ops ⟨.empty, []⟩

theorem stopped_reachable :
    NodeReachable sampleCodec samplePolicy sampleNames (nodeAfter stoppedOps) :=
  reach_of_admitted stoppedOps (by decide +kernel) .start

theorem recovered_reachable :
    NodeReachable sampleCodec samplePolicy sampleNames (nodeAfter recoveredOps) :=
  reach_of_admitted recoveredOps (by decide +kernel) .start

end SampleBacklog

end Robata.Stream
