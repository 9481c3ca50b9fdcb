import Robata.Queue.WorkEvolution
import Robata.Stream.StreamDelivery

/-!
# Transactions on the stream database

`StreamOp` lists the write transactions of the three components that share the database:
the scheduler's, which see the work tables only, those of the stream work ledger, and those
of the delivery authority.  What each of them can change is said once, table by table.
-/

namespace Robata.Stream

open Lib List
open Queue (OpaqueUuid Sha256Digest WorkRow WorkLease SchedulerOp)
open Outbox (OutboxDeliveryClaim OutboxError OutboxFact OutboxRetryPolicy StreamContent streamStore)

/-- The write transactions with their arguments. -/
inductive StreamOp
  | work (op : SchedulerOp)
  | registerPlan (planKey pins : String)
  | appendWindows (planKey : String) (windows : List NewStreamWindow) (throttled : Bool)
  | setPlannerEos (planKey : String) (finishSha256 : Sha256Digest)
  | storeSealAndFinalization (planKey : String) (planSeal : ExpectedWindowPlanSeal)
      (declarations : List ExpectedWindowDeclaration) (finalization : NewStreamWorkPlan)
  | markExportBarrier (planKey : String) (manifestSha256 : Sha256Digest) (memberCount : Nat)
  | storeClosureAndOpenFinalization (planKey : String) (closure : WindowTerminalClosure)
  | markPublishedMany (workItemIds : List OpaqueUuid)
  | storePendingTerminal (lease : WorkLease) (payload : StreamTerminalEvidence) (now : Int)
  | acceptPendingTerminal (workItemId : OpaqueUuid) (expected : StreamTerminalEvidence)
      (member : Option WindowTerminalMember) (expectedOrdinal : Option Nat)
  | commitWindowReduction (r : WindowReduction) (now : Int)
  | publishRecordingFinalization (r : FinalizationRequest) (now : Int)
  | claim (workerId : String) (leaseDuration now : Int)
  | acknowledge (claim : OutboxDeliveryClaim) (now : Int)
  | recordFailure (claim : OutboxDeliveryClaim) (error : String) (now : Int)
  | reconcile (now : Int)

/-- An exception of the outbox protocol, as the delivery authority raises it. -/
def StreamError.ofOutbox : OutboxError → StreamError
  | .value message => .value message
  | .delivery message => .delivery message
  | .fence message => .outboxFence message

section Operations

variable (codec : Codec) (policy : OutboxRetryPolicy)

/-- The tables a transaction commits. -/
def runStreamOp : StreamOp → StreamDb → Except StreamError StreamDb
  | .work op, db =>
    match op.run db.work with
    | .ok work => .ok { db with work := work }
    | .error e => .error (.work e)
  | .registerPlan planKey pins, db => db.registerPlan planKey pins
  | .appendWindows planKey windows throttled, db =>
    (db.appendWindows planKey windows throttled).map Prod.snd
  | .setPlannerEos planKey finishSha256, db => db.setPlannerEos planKey finishSha256
  | .storeSealAndFinalization planKey planSeal declarations finalization, db =>
    (db.storeSealAndFinalization planKey planSeal declarations finalization).map Prod.snd
  | .markExportBarrier planKey manifestSha256 memberCount, db =>
    db.markExportBarrier planKey manifestSha256 memberCount
  | .storeClosureAndOpenFinalization planKey closure, db =>
    db.storeClosureAndOpenFinalization planKey closure
  | .markPublishedMany workItemIds, db => db.markPublishedMany workItemIds
  | .storePendingTerminal lease payload now, db =>
    (db.storePendingTerminal lease payload now).map Prod.snd
  | .acceptPendingTerminal workItemId expected member expectedOrdinal, db =>
    db.acceptPendingTerminal workItemId expected member expectedOrdinal
  | .commitWindowReduction r now, db => (commitWindowReduction codec policy db r now).map Prod.snd
  | .publishRecordingFinalization r now, db =>
    (publishRecordingFinalization codec policy db r now).map Prod.snd
  | .claim workerId leaseDuration now, db =>
    match db.outbox.claim (streamStore codec.outbox) policy workerId leaseDuration now with
    | .ok out => .ok { db with outbox := out.2 }
    | .error e => .error (.ofOutbox e)
  | .acknowledge claim now, db =>
    match db.outbox.acknowledge (streamStore codec.outbox) claim now with
    | .ok out => .ok { db with outbox := out.2 }
    | .error e => .error (.ofOutbox e)
  | .recordFailure claim error now, db =>
    match db.outbox.recordFailure (streamStore codec.outbox) claim error now with
    | .ok out => .ok { db with outbox := out.2 }
    | .error e => .error (.ofOutbox e)
  | .reconcile now, db => .ok { db with outbox := db.outbox.reconcile policy now }

/-- The states of an unrestricted run on a fresh database. -/
def StreamReachable (db : StreamDb) : Prop :=
  Reach (runStreamOp codec policy) (fun _ _ => True) StreamDb.empty db

end Operations

/-! ## What a transaction did -/

section Ledger

variable {db db' : StreamDb} {planKey : String}

theorem getPlan_eq_ok {plan : StreamPlanRow} :
    db.getPlan planKey = .ok plan ↔ db.plans.find? planKey = some plan := by
  unfold StreamDb.getPlan
  cases db.plans.find? planKey <;> simp

theorem refuse_bind_eq_ok {α : Type} {found : Bool} {e : StreamError}
    {rest : Unit → Except StreamError α} {a : α} :
    (refuse found e >>= rest) = .ok a ↔ found = false ∧ rest () = .ok a := by
  cases found <;> simp [refuse]

theorem registerPlan_spec {pins : String} (h : db.registerPlan planKey pins = .ok db') :
    db' = db ∨ ∃ plans, db.plans.insert? ⟨planKey, pins, none, none, none, none⟩ = some plans ∧
      db' = { db with plans := plans } := by
  unfold StreamDb.registerPlan at h
  split at h
  · rw [refuse_bind_eq_ok] at h
    cases h.2
    exact .inl rfl
  · split at h
    · rename_i plans hinsert
      cases h
      exact .inr ⟨plans, hinsert, rfl⟩
    · cases h

theorem insertWork_spec {work : NewStreamWorkPlan} (h : db.insertWork planKey work = .ok db') :
    (∀ r ∈ db.rows.rows, r.plan.workLogicalKey ≠ work.plan.workLogicalKey) ∧
      ∃ rows, db.rows.insert? (work.stored planKey) = some rows ∧ db' = { db with rows := rows } := by
  obtain ⟨hfresh, h⟩ := refuse_bind_eq_ok.mp h
  split at h
  · rename_i rows hinsert
    cases h
    exact ⟨by simpa using hfresh, rows, hinsert, rfl⟩
  · cases h

/-- The windows appended to a plan, and their companion rows. -/
structure Appends (planKey : String) (new : List NewStreamWindow) (db db' : StreamDb) : Prop where
  windows : db'.windows.rows = db.windows.rows ++ new.map (·.stored planKey)
  rows : db'.rows.rows = db.rows.rows ++ new.flatMap fun w => w.workPlans.map (·.stored planKey)
  rest : db' = { db with windows := db'.windows, rows := db'.rows }

theorem insertWorks_spec {works : List NewStreamWorkPlan} :
    ∀ {db : StreamDb}, works.foldlM (fun db work => db.insertWork planKey work) db = .ok db' →
      db'.rows.rows = db.rows.rows ++ works.map (·.stored planKey) ∧
        db' = { db with rows := db'.rows } := by
  induction works with
  | nil =>
    intro db h
    cases h
    simp
  | cons work rest ih =>
    intro db h
    rw [foldlM_cons, bind_eq_ok] at h
    obtain ⟨mid, hfirst, hrest⟩ := h
    obtain ⟨_, rows, hinsert, rfl⟩ := insertWork_spec hfirst
    obtain ⟨hrows, hsame⟩ := ih hrest
    refine ⟨?_, hsame⟩
    rw [hrows, (KeyedTable.insert?_eq_some hinsert).2, append_assoc]
    rfl

theorem insertWindows_spec {new : List NewStreamWindow} :
    ∀ {db : StreamDb}, new.foldlM (StreamDb.insertWindow planKey) db = .ok db' →
      Appends planKey new db db' := by
  induction new with
  | nil =>
    intro db h
    cases h
    exact ⟨by simp, by simp, rfl⟩
  | cons window rest ih =>
    intro db h
    rw [foldlM_cons, bind_eq_ok] at h
    obtain ⟨mid, hfirst, hrest⟩ := h
    unfold StreamDb.insertWindow at hfirst
    split at hfirst
    · cases hfirst
    · rename_i windows hinsert
      obtain ⟨hrows, hsame⟩ := insertWorks_spec hfirst
      have htail := ih hrest
      have hwindows := (KeyedTable.insert?_eq_some hinsert).2
      refine ⟨?_, ?_, ?_⟩
      · rw [htail.windows, hsame]
        rw [hwindows, append_assoc]
        rfl
      · rw [htail.rows, hrows, append_assoc]
        rfl
      · rw [htail.rest, hsame]

/-- The windows a batch adds follow the last one without a gap, and only a plan that is
neither finished nor sealed takes any. -/
theorem admitWindows_spec {plan : StreamPlanRow} {windows : List NewStreamWindow} :
    ∀ {next : Nat} {new : List NewStreamWindow}, db.admitWindows plan next windows = .ok new →
      new.Sublist windows ∧ new.map (·.ordinal) = range' next new.length ∧
        (new ≠ [] → plan.plannerEosSha256 = none ∧ plan.sealJson = none) := by
  induction windows with
  | nil =>
    intro next new h
    cases h
    simp
  | cons window rest ih =>
    intro next new h
    obtain ⟨admitted, hfirst, h⟩ := bind_eq_ok.mp h
    obtain ⟨others, hrest, h⟩ := bind_eq_ok.mp h
    cases h
    obtain ⟨hsub, hordinals, hopen⟩ := ih hrest
    unfold StreamDb.admitWindow at hfirst
    split at hfirst
    · obtain ⟨_, hfirst⟩ := refuse_bind_eq_ok.mp hfirst
      obtain ⟨_, _, hfirst⟩ := bind_eq_ok.mp hfirst
      cases hfirst
      exact ⟨hsub.cons _, hordinals, hopen⟩
    · rw [refuse_bind_eq_ok, refuse_bind_eq_ok] at hfirst
      obtain ⟨hended, hnext, hfirst⟩ := hfirst
      cases hfirst
      have hordinal : next = window.ordinal := by simpa using hnext
      refine ⟨hsub.cons₂ _, ?_, fun _ => ?_⟩
      · simp only [if_true, map_cons, length_cons]
        rw [range'_succ, hordinals, hordinal]
      · simpa using hended

theorem appendWindows_spec {windows : List NewStreamWindow} {throttled : Bool} {ordinals : List Nat}
    (h : db.appendWindows planKey windows throttled = .ok (ordinals, db')) :
    ∃ plan new, db.plans.find? planKey = some plan ∧ new.Sublist windows ∧
      new.map (·.ordinal) = range' (db.nextWindowOrdinal planKey) new.length ∧
      (new ≠ [] → plan.plannerEosSha256 = none ∧ plan.sealJson = none) ∧
      (∀ w ∈ new, ∀ work ∈ w.workPlans, work.expectedOrdinal = some w.ordinal) ∧
      Appends planKey new db db' := by
  unfold StreamDb.appendWindows at h
  rw [refuse_bind_eq_ok, refuse_bind_eq_ok, bind_eq_ok] at h
  obtain ⟨hchildren, _, plan, hplan, h⟩ := h
  obtain ⟨new, hadmit, h⟩ := bind_eq_ok.mp h
  rw [refuse_bind_eq_ok, bind_eq_ok] at h
  obtain ⟨_, db₁, hinsert, h⟩ := h
  cases h
  obtain ⟨hsub, hordinals, hopen⟩ := admitWindows_spec hadmit
  refine ⟨plan, new, getPlan_eq_ok.mp hplan, hsub, hordinals, hopen, ?_, insertWindows_spec hinsert⟩
  intro w hw work hwork
  simp only [any_eq_false, bne_iff_ne, not_exists, not_and, any_eq_true] at hchildren
  exact not_not.mp (hchildren w (hsub.subset hw) work hwork)

theorem setPlannerEos_spec {finishSha256 : Sha256Digest}
    (h : db.setPlannerEos planKey finishSha256 = .ok db') :
    ∃ plan, db.plans.find? planKey = some plan ∧
      (∀ current, plan.plannerEosSha256 = some current → current = finishSha256) ∧
      db' = db.setPlan planKey (fun r => { r with plannerEosSha256 := some finishSha256 })
        fun _ => rfl := by
  obtain ⟨plan, hplan, h⟩ := bind_eq_ok.mp h
  obtain ⟨hsame, h⟩ := refuse_bind_eq_ok.mp h
  cases h
  refine ⟨plan, getPlan_eq_ok.mp hplan, ?_, rfl⟩
  intro current hcurrent
  simpa [hcurrent] using hsame

theorem storeSealAndFinalization_spec {planSeal : ExpectedWindowPlanSeal} {stored : Bool}
    {declarations : List ExpectedWindowDeclaration} {finalization : NewStreamWorkPlan}
    (h : db.storeSealAndFinalization planKey planSeal declarations finalization =
      .ok (stored, db')) :
    ∃ plan, db.plans.find? planKey = some plan ∧ plan.plannerEosSha256.isSome = true ∧
      (db.windowsOf planKey).map (·.ordinal) = List.range declarations.length ∧
      (db.windowsOf planKey).map (·.declaration) = declarations ∧
      ((plan.sealJson = some planSeal ∧ db' = db) ∨
        (plan.sealJson = none ∧
          (db.setPlan planKey (fun r => { r with sealJson := some planSeal })
            fun _ => rfl).insertWork planKey finalization = .ok db')) := by
  obtain ⟨plan, hplan, h⟩ := bind_eq_ok.mp h
  obtain ⟨heos, h⟩ := refuse_bind_eq_ok.mp h
  obtain ⟨hmatch, h⟩ := refuse_bind_eq_ok.mp h
  rw [Bool.or_eq_false_iff, bne_eq_false_iff_eq, bne_eq_false_iff_eq] at hmatch
  refine ⟨plan, getPlan_eq_ok.mp hplan, by simpa using heos, hmatch.1, hmatch.2, ?_⟩
  split at h
  · rename_i existing hseal
    rw [refuse_bind_eq_ok, bind_eq_ok] at h
    obtain ⟨hsame, _, _, h⟩ := h
    cases h
    rw [bne_eq_false_iff_eq] at hsame
    exact .inl ⟨hsame ▸ hseal, rfl⟩
  · rename_i hseal
    obtain ⟨db₁, hinsert, h⟩ := bind_eq_ok.mp h
    cases h
    exact .inr ⟨hseal, hinsert⟩

theorem markExportBarrier_spec {manifestSha256 : Sha256Digest} {memberCount : Nat}
    (h : db.markExportBarrier planKey manifestSha256 memberCount = .ok db') :
    ∃ plan, db.plans.find? planKey = some plan ∧
      (∀ existing, plan.exportManifest = some existing → existing = (manifestSha256, memberCount)) ∧
      db' = db.setPlan planKey
        (fun r => { r with exportManifest := some (manifestSha256, memberCount) })
        fun _ => rfl := by
  obtain ⟨plan, hplan, h⟩ := bind_eq_ok.mp h
  obtain ⟨hsame, h⟩ := refuse_bind_eq_ok.mp h
  cases h
  refine ⟨plan, getPlan_eq_ok.mp hplan, ?_, rfl⟩
  intro existing hexisting
  simpa [hexisting] using hsame

/-- The one finalization row of a plan leaves `GATED` when its closure is stored. -/
theorem storeClosureAndOpenFinalization_spec {closure : WindowTerminalClosure}
    (h : db.storeClosureAndOpenFinalization planKey closure = .ok db') :
    ∃ plan finalization, db.plans.find? planKey = some plan ∧
      (db.rows.rows.filter fun r => r.planKey == planKey && r.plan.stage == .finalization) =
        [finalization] ∧
      (∀ existing, plan.terminalClosureJson = some existing → existing = closure) ∧
      (plan.terminalClosureJson = none ↔ finalization.publicationState = .gated) ∧
      db' = { db.setPlan planKey (fun r => { r with terminalClosureJson := some closure })
          (fun _ => rfl) with
        rows := db.rows.updateWhere
          (fun r => r.planKey == planKey && r.plan.stage == .finalization &&
            r.publicationState == .gated)
          (fun r => { r with publicationState := .pending }) fun _ => rfl } := by
  obtain ⟨plan, hplan, h⟩ := bind_eq_ok.mp h
  obtain ⟨hsame, h⟩ := refuse_bind_eq_ok.mp h
  split at h
  · rename_i finalization hone
    rw [refuse_bind_eq_ok, refuse_bind_eq_ok] at h
    obtain ⟨hunclosed, hclosed, h⟩ := h
    cases h
    refine ⟨plan, finalization, getPlan_eq_ok.mp hplan, hone, ?_, ?_, rfl⟩
    · intro existing hexisting
      simpa [hexisting] using hsame
    · cases hclosure : plan.terminalClosureJson with
      | none => simpa [hclosure] using hunclosed
      | some existing => simpa [hclosure] using hclosed
  · cases h

theorem markPublishedMany_spec {workItemIds : List OpaqueUuid}
    (h : db.markPublishedMany workItemIds = .ok db') :
    (∀ i ∈ workItemIds, ∃ r, db.rows.find? i = some r ∧ r.publicationState ≠ .gated) ∧
      db' = { db with
        rows := db.rows.updateWhere
          (fun r => workItemIds.contains r.plan.workItemId && r.publicationState == .pending)
          (fun r => { r with publicationState := .published }) fun _ => rfl } := by
  unfold StreamDb.markPublishedMany at h
  rw [refuse_bind_eq_ok, refuse_bind_eq_ok, refuse_bind_eq_ok] at h
  obtain ⟨_, hpresent, hgated, h⟩ := h
  cases h
  refine ⟨?_, rfl⟩
  intro i hi
  rw [any_eq_false] at hpresent hgated
  have hfound := hpresent i hi
  cases hrow : db.rows.find? i with
  | none => simp [hrow] at hfound
  | some r => exact ⟨r, rfl, by simpa [hrow] using hgated i hi⟩

theorem storePendingTerminal_spec {lease : WorkLease} {payload : StreamTerminalEvidence} {now : Int}
    {stored : Bool} (h : db.storePendingTerminal lease payload now = .ok (stored, db')) :
    ∃ row, db.rows.find? lease.workItemId = some row ∧
      ((stored = false ∧ row.terminalEvidence = some payload ∧ db' = db) ∨
        (stored = true ∧ row.terminalEvidence = none ∧ db.holdsTerminalFence lease now = true ∧
          ((row.pending = some ⟨payload, lease.leaseEpoch, lease.fencingToken⟩ ∧ db' = db) ∨
            ((∀ old, row.pending = some old → old.leaseEpoch < lease.leaseEpoch) ∧
              db' = db.setRow lease.workItemId (fun r =>
                { r with pending := some ⟨payload, lease.leaseEpoch, lease.fencingToken⟩ })
                fun _ => rfl)))) := by
  unfold StreamDb.storePendingTerminal at h
  split at h
  · cases h
  rename_i row hrow
  refine ⟨row, hrow, ?_⟩
  split at h
  · rename_i accepted haccepted
    obtain ⟨hsame, h⟩ := refuse_bind_eq_ok.mp h
    cases h
    rw [bne_eq_false_iff_eq] at hsame
    exact .inl ⟨rfl, hsame ▸ haccepted, rfl⟩
  · rename_i haccepted
    obtain ⟨hfence, h⟩ := refuse_bind_eq_ok.mp h
    rw [Bool.not_eq_false'] at hfence
    simp only at h
    split at h
    · rename_i hpending
      cases h
      exact .inr ⟨rfl, haccepted, hfence, .inl ⟨hpending, rfl⟩⟩
    · obtain ⟨hnewer, h⟩ := refuse_bind_eq_ok.mp h
      cases h
      refine .inr ⟨rfl, haccepted, hfence, .inr ⟨?_, rfl⟩⟩
      intro old hold
      simpa [hold] using hnewer

theorem acceptPendingTerminal_spec {workItemId : OpaqueUuid} {expected : StreamTerminalEvidence}
    {member : Option WindowTerminalMember} {expectedOrdinal : Option Nat}
    (h : db.acceptPendingTerminal workItemId expected member expectedOrdinal = .ok db') :
    ∃ row, db.rows.find? workItemId = some row ∧
      ((row.terminalEvidence = some expected ∧ db' = db) ∨
        (row.terminalEvidence = none ∧
          (∃ stored, row.pending = some stored ∧ stored.evidence = expected) ∧
          ((member = none ∧ db' = db.setRow workItemId
              (fun r => { r with terminalEvidence := some expected, pending := none })
              fun _ => rfl) ∨
            ∃ value ordinal window, member = some value ∧ expectedOrdinal = some ordinal ∧
              db.windows.find? (row.planKey, ordinal) = some window ∧
              (∀ existing, window.terminalMember = some existing → existing = value) ∧
              db' = (db.setRow workItemId
                (fun r => { r with terminalEvidence := some expected, pending := none })
                fun _ => rfl).setMember row.planKey ordinal value))) := by
  unfold StreamDb.acceptPendingTerminal at h
  split at h
  · cases h
  rename_i row hrow
  refine ⟨row, hrow, ?_⟩
  split at h
  · rename_i accepted haccepted
    obtain ⟨hsame, h⟩ := refuse_bind_eq_ok.mp h
    cases h
    rw [bne_eq_false_iff_eq] at hsame
    exact .inl ⟨hsame ▸ haccepted, rfl⟩
  · rename_i haccepted
    rw [refuse_bind_eq_ok] at h
    obtain ⟨hpending, h⟩ := h
    rw [bne_eq_false_iff_eq, Option.map_eq_some_iff] at hpending
    refine .inr ⟨haccepted, hpending, ?_⟩
    split at h
    · cases h
      exact .inl ⟨rfl, rfl⟩
    · cases h
    · rename_i value ordinal
      split at h
      · cases h
      · rename_i window hwindow
        obtain ⟨hsame, h⟩ := refuse_bind_eq_ok.mp h
        cases h
        refine .inr ⟨value, ordinal, window, rfl, rfl, hwindow, ?_, rfl⟩
        intro existing hexisting
        simpa [hexisting] using hsame

end Ledger

section Delivery

variable {codec : Codec} {policy : OutboxRetryPolicy} {db db' : StreamDb} {now : Int}
  {commit : StreamPublicationCommit}

/-- An outbox row is stored under a free identity and a free ordinal of its plan. -/
theorem insertOutbox_spec {operationName : String} {fact : OutboxFact StreamContent}
    {createdAt : Int}
    (h : insertOutbox codec db operationName fact policy createdAt = .ok db') :
    ∃ outbox, db.outbox.append (streamStore codec.outbox) fact policy createdAt = .ok outbox ∧
      db' = { db with outbox := outbox } := by
  unfold insertOutbox at h
  split at h
  · rename_i outbox happend
    cases h
    exact ⟨outbox, happend, rfl⟩
  · cases h

theorem insertResult_spec {row : WindowResultRow}
    {causal : Option PreparedWindowReductionEvidence} (h : insertResult db row causal = .ok db') :
    ∃ results, db.results.insert? row = some results ∧
      ((causal = none ∧ db' = { db with results := results }) ∨
        ∃ evidence commits, causal = some evidence ∧
          db.evidence.insert?
            ⟨row.planKey, row.expectedOrdinal, row.result.windowResultId, evidence⟩ = some commits ∧
          db' = { db with results := results, evidence := commits }) := by
  unfold insertResult at h
  split at h
  · cases h
  rename_i results hresults
  refine ⟨results, hresults, ?_⟩
  split at h
  · cases h
    exact .inl ⟨rfl, rfl⟩
  · rename_i evidence
    split at h
    · cases h
    split at h
    · cases h
    · rename_i commits hcommits
      cases h
      exact .inr ⟨evidence, commits, rfl, hcommits, rfl⟩

variable (codec policy) in
/-- What a commit of a new result did to the tables. -/
structure Commits (r : WindowReduction) (row : StreamWorkRow) (item : WorkRow)
    (window : ExpectedWindowRow) (ordinal : Nat) (now : Int) (db db' : StreamDb) : Prop where
  live : liveRunningLease item r.lease now = true
  pending : ∀ stored, row.pending = some stored → stored.evidence = r.terminalEvidence
  member : ∀ existing, window.terminalMember = some existing → existing = r.terminalMember
  work : commitWork db.work item r.lease (terminalResultReference r.terminalEvidence)
    r.terminalEvidence.evidenceRef.exactSha256 now = .ok db'.work
  plans : db'.plans = db.plans
  windows : db'.windows = db.windows.updateWhere
    (fun w => w.planKey == row.planKey && w.ordinal == ordinal)
    (fun w => { w with terminalMember := some r.terminalMember }) fun _ => rfl
  rows : db'.rows = db.rows.updateWhere (·.plan.workItemId == r.lease.workItemId)
    (fun w => { w with terminalEvidence := some r.terminalEvidence, pending := none }) fun _ => rfl
  results : db.results.insert? ⟨row.planKey, ordinal, r.lease.workItemId, r.result⟩ =
    some db'.results
  evidence : (r.causalEvidence = none ∧ db'.evidence = db.evidence) ∨
    ∃ causal, r.causalEvidence = some causal ∧
      db.evidence.insert? ⟨row.planKey, ordinal, r.result.windowResultId, causal⟩ =
        some db'.evidence
  finalizations : db'.finalizations = db.finalizations
  outbox : db.outbox.append (streamStore codec.outbox) (r.fact codec row.planKey ordinal now)
    policy now = .ok db'.outbox

variable {r : WindowReduction}

theorem WindowReduction.insert_spec {row : StreamWorkRow} {item : WorkRow}
    {window : ExpectedWindowRow} {ordinal : Nat}
    (h : r.insert codec policy db row item window ordinal now = .ok (commit, db')) :
    commit = r.answer codec true ∧ Commits codec policy r row item window ordinal now db db' := by
  unfold WindowReduction.insert at h
  rw [refuse_bind_eq_ok, refuse_bind_eq_ok, refuse_bind_eq_ok, bind_eq_ok] at h
  obtain ⟨hlive, hpending, hmember, work, hwork, h⟩ := h
  obtain ⟨stored, hstored, h⟩ := bind_eq_ok.mp h
  obtain ⟨published, hpublished, h⟩ := bind_eq_ok.mp h
  cases h
  obtain ⟨outbox, happend, rfl⟩ := insertOutbox_spec hpublished
  obtain ⟨results, hresults, hcausal⟩ := insertResult_spec hstored
  have hpending' : ∀ old, row.pending = some old → old.evidence = r.terminalEvidence := by
    intro old hold
    simpa [hold] using hpending
  have hmember' : ∀ old, window.terminalMember = some old → old = r.terminalMember := by
    intro old hold
    simpa [hold] using hmember
  rw [Bool.not_eq_false'] at hlive
  refine ⟨rfl, ?_⟩
  rcases hcausal with ⟨hnone, rfl⟩ | ⟨evidence, commits, hsome, hcommits, rfl⟩
  · exact ⟨hlive, hpending', hmember', hwork, rfl, rfl, rfl, hresults, .inl ⟨hnone, rfl⟩, rfl,
      happend⟩
  · exact ⟨hlive, hpending', hmember', hwork, rfl, rfl, rfl, hresults,
      .inr ⟨evidence, hsome, hcommits⟩, rfl, happend⟩

variable (codec r) in
/-- The documents and rows a commit has found to fit together. -/
structure CommitChecked (row : StreamWorkRow) (item : WorkRow) (window : ExpectedWindowRow)
    (ordinal : Nat) (now : Int) (db : StreamDb) : Prop where
  valid : r.validate codec now = .ok ()
  rowFound : db.rows.find? r.lease.workItemId = some row
  itemFound : db.work.item? r.lease.workItemId = some item
  ordinal_eq : row.expectedOrdinal = some ordinal
  stage_eq : row.plan.stage = .windowReduction
  windowFound : db.windows.find? (row.planKey, ordinal) = some window
  declared : r.matchesDeclaration row ordinal window.declaration = true

theorem commitWindowReduction_spec
    (h : commitWindowReduction codec policy db r now = .ok (commit, db')) :
    ∃ row item window ordinal, CommitChecked codec r row item window ordinal now db ∧
      ((resultRows db row.planKey ordinal r.lease.workItemId r.result = [] ∧
          r.insert codec policy db row item window ordinal now = .ok (commit, db')) ∨
        ∃ existing, resultRows db row.planKey ordinal r.lease.workItemId r.result = [existing] ∧
          r.replay codec db existing row item window ordinal now = .ok (commit, db')) := by
  obtain ⟨_, hvalid, h⟩ := bind_eq_ok.mp h
  split at h
  case h_2 => cases h
  rename_i row item hrow hitem
  split at h
  · cases h
  rename_i ordinal hordinal
  obtain ⟨hstage, h⟩ := refuse_bind_eq_ok.mp h
  rw [bne_eq_false_iff_eq] at hstage
  split at h
  · cases h
  rename_i window hwindow
  obtain ⟨hdeclared, h⟩ := refuse_bind_eq_ok.mp h
  rw [Bool.not_eq_false'] at hdeclared
  refine ⟨row, item, window, ordinal,
    ⟨hvalid, hrow, hitem, hordinal, hstage, hwindow, hdeclared⟩, ?_⟩
  split at h
  · rename_i hnone
    exact .inl ⟨hnone, h⟩
  · rename_i existing hone
    exact .inr ⟨existing, hone, h⟩
  · cases h

theorem WindowReduction.replay_spec {existing : WindowResultRow}
    {row : StreamWorkRow} {item : WorkRow} {window : ExpectedWindowRow} {ordinal : Nat}
    (h : r.replay codec db existing row item window ordinal now = .ok (commit, db')) :
    commit = r.answer codec false ∧ db' = db := by
  obtain ⟨_, _, h⟩ := bind_eq_ok.mp h
  obtain ⟨_, _, h⟩ := bind_eq_ok.mp h
  obtain ⟨_, _, h⟩ := bind_eq_ok.mp h
  obtain ⟨_, _, h⟩ := bind_eq_ok.mp h
  cases h
  exact ⟨rfl, rfl⟩

theorem publishRecordingFinalization_spec {r : FinalizationRequest}
    (h : publishRecordingFinalization codec policy db r now = .ok (commit, db')) :
    ∃ plan, db.plans.find? r.planKey = some plan ∧ r.requireGates db plan = .ok () ∧
      ((r.existing db = [] ∧ commit = r.answer codec true ∧
          ∃ finalizations outbox,
            db.finalizations.insert? ⟨r.planKey, r.finalization, r.outboxId codec⟩ =
              some finalizations ∧
            db.outbox.append (streamStore codec.outbox)
              (r.fact codec (db.windowsOf r.planKey).length now) policy now = .ok outbox ∧
            db' = { db with finalizations := finalizations, outbox := outbox }) ∨
        (r.existing db = [⟨r.planKey, r.finalization, r.outboxId codec⟩] ∧
          commit = r.answer codec false ∧ db' = db)) := by
  unfold publishRecordingFinalization at h
  rw [refuse_bind_eq_ok, refuse_bind_eq_ok, refuse_bind_eq_ok] at h
  obtain ⟨_, _, _, h⟩ := h
  split at h
  · cases h
  rename_i plan hplan
  obtain ⟨_, hgates, h⟩ := bind_eq_ok.mp h
  refine ⟨plan, hplan, hgates, ?_⟩
  split at h
  · rename_i hnone
    split at h
    · cases h
    · rename_i finalizations hinsert
      obtain ⟨published, hpublished, h⟩ := bind_eq_ok.mp h
      cases h
      obtain ⟨outbox, happend, rfl⟩ := insertOutbox_spec hpublished
      exact .inl ⟨hnone, rfl, finalizations, outbox, hinsert, happend, rfl⟩
  · rename_i stored hone
    rw [refuse_bind_eq_ok, bind_eq_ok] at h
    obtain ⟨hsame, _, _, h⟩ := h
    cases h
    simp only [Bool.or_eq_false_iff, bne_eq_false_iff_eq] at hsame
    obtain ⟨planKey, finalization, outboxId⟩ := stored
    obtain ⟨⟨rfl, rfl⟩, rfl⟩ := hsame
    exact .inr ⟨hone, rfl, rfl⟩
  · cases h

end Delivery

/-! ## What a transaction makes of the rows -/

/-- A row after a transaction that publishes the rows `marked`. -/
structure RowKept (marked : OpaqueUuid → Prop) (r r' : StreamWorkRow) : Prop where
  plan : r'.plan = r.plan
  planKey : r'.planKey = r.planKey
  released : r.publicationState ≠ .gated → r'.publicationState ≠ .gated
  published : r'.publicationState = .published →
    r.publicationState = .published ∨ marked r.plan.workItemId

theorem RowKept.refl {marked : OpaqueUuid → Prop} (r : StreamWorkRow) : RowKept marked r r :=
  ⟨rfl, rfl, id, .inl⟩

/-- The stream rows a transaction may insert. -/
def StreamOp.newRows : StreamOp → List NewStreamWorkPlan
  | .appendWindows _ windows _ => windows.flatMap fun w => w.workPlans
  | .storeSealAndFinalization _ _ _ finalization => [finalization]
  | _ => []

/-- The stream rows a transaction may publish. -/
def StreamOp.marks : StreamOp → OpaqueUuid → Prop
  | .markPublishedMany workItemIds, i => i ∈ workItemIds
  | _, _ => False

/-- The rows are kept, and new ones are as they were given. -/
structure RowsEvolve (new : List NewStreamWorkPlan) (marked : OpaqueUuid → Prop)
    (db db' : StreamDb) : Prop where
  kept : ∀ r ∈ db.rows.rows, ∃ r' ∈ db'.rows.rows, RowKept marked r r'
  origin : ∀ r' ∈ db'.rows.rows, (∃ r ∈ db.rows.rows, RowKept marked r r') ∨
    ∃ work ∈ new, ∃ planKey, r' = work.stored planKey ∧
      ∀ r ∈ db.rows.rows, r.plan.workItemId ≠ work.plan.workItemId

section RowsEvolve

variable {new : List NewStreamWorkPlan} {marked : OpaqueUuid → Prop} {db db' : StreamDb}

theorem RowsEvolve.of_eq (h : db'.rows = db.rows) : RowsEvolve new marked db db' := by
  refine ⟨fun r hr => ⟨r, by rw [h]; exact hr, .refl r⟩, fun r' hr' => .inl ⟨r', ?_, .refl r'⟩⟩
  rw [← h]
  exact hr'

theorem RowsEvolve.of_updateWhere {sel : StreamWorkRow → Bool} {set : StreamWorkRow → StreamWorkRow}
    (h : db'.rows.rows = db.rows.rows.map fun r => if sel r then set r else r)
    (hkept : ∀ r ∈ db.rows.rows, sel r = true → RowKept marked r (set r)) :
    RowsEvolve new marked db db' := by
  have hone : ∀ r ∈ db.rows.rows, RowKept marked r (if sel r then set r else r) := by
    intro r hr
    by_cases hsel : sel r = true
    · rw [if_pos hsel]
      exact hkept r hr hsel
    · rw [if_neg hsel]
      exact .refl r
  refine ⟨fun r hr => ⟨_, ?_, hone r hr⟩, fun r' hr' => .inl ?_⟩
  · rw [h]
    exact mem_map_of_mem hr
  · rw [h] at hr'
    obtain ⟨r, hr, rfl⟩ := mem_map.mp hr'
    exact ⟨r, hr, hone r hr⟩

theorem RowsEvolve.of_append {added : List StreamWorkRow}
    (hadded : ∀ r ∈ added, ∃ work ∈ new, ∃ planKey, r = work.stored planKey)
    (h : db'.rows.rows = db.rows.rows ++ added) : RowsEvolve new marked db db' := by
  have hnodup := db'.rows.nodup
  rw [h, map_append, nodup_append] at hnodup
  refine ⟨fun r hr => ⟨r, ?_, .refl r⟩, fun r' hr' => ?_⟩
  · rw [h]
    exact mem_append_left _ hr
  · rw [h] at hr'
    rcases mem_append.mp hr' with hold | hnew
    · exact .inl ⟨r', hold, .refl r'⟩
    · obtain ⟨work, hwork, planKey, rfl⟩ := hadded r' hnew
      refine .inr ⟨work, hwork, planKey, rfl, fun r hr => ?_⟩
      exact hnodup.2.2 _ (mem_map_of_mem hr) _ (mem_map_of_mem hnew)

end RowsEvolve

/-- What a transaction makes of the rows and of the work tables. -/
theorem runStreamOp_spec {codec : Codec} {policy : OutboxRetryPolicy} {op : StreamOp}
    {db db' : StreamDb} (h : runStreamOp codec policy op db = .ok db') :
    RowsEvolve op.newRows op.marks db db' ∧ (db'.work = db.work ∨
      (∃ value : SchedulerOp, op = .work value ∧ value.run db.work = .ok db'.work) ∨
      ∃ r now row item window ordinal, CommitChecked codec r row item window ordinal now db ∧
        Commits codec policy r row item window ordinal now db db') := by
  cases op with
  | work value =>
    simp only [runStreamOp] at h
    cases hrun : value.run db.work with
    | ok work =>
      rw [hrun] at h
      cases h
      exact ⟨.of_eq rfl, .inr (.inl ⟨value, rfl, hrun⟩)⟩
    | error e =>
      rw [hrun] at h
      cases h
  | registerPlan planKey pins =>
    rcases registerPlan_spec h with rfl | ⟨plans, _, rfl⟩ <;> exact ⟨.of_eq rfl, .inl rfl⟩
  | appendWindows planKey windows throttled =>
    obtain ⟨ordinals, happend⟩ := map_snd_eq_ok.mp h
    obtain ⟨_, new, _, hsub, _, _, _, happends⟩ := appendWindows_spec happend
    refine ⟨.of_append (fun r hr => ?_) happends.rows, .inl (by rw [happends.rest])⟩
    obtain ⟨w, hw, hr⟩ := mem_flatMap.mp hr
    obtain ⟨work, hwork, rfl⟩ := mem_map.mp hr
    exact ⟨work, mem_flatMap.mpr ⟨w, hsub.subset hw, hwork⟩, planKey, rfl⟩
  | setPlannerEos planKey finishSha256 =>
    obtain ⟨_, _, _, rfl⟩ := setPlannerEos_spec h
    exact ⟨.of_eq rfl, .inl rfl⟩
  | storeSealAndFinalization planKey planSeal declarations finalization =>
    obtain ⟨stored, hstore⟩ := map_snd_eq_ok.mp h
    obtain ⟨_, _, _, _, _, hcases⟩ := storeSealAndFinalization_spec hstore
    rcases hcases with ⟨_, rfl⟩ | ⟨_, hinsert⟩
    · exact ⟨.of_eq rfl, .inl rfl⟩
    · obtain ⟨_, rows, hrows, rfl⟩ := insertWork_spec hinsert
      refine ⟨.of_append (fun r hr => ?_) (KeyedTable.insert?_eq_some hrows).2, .inl rfl⟩
      exact ⟨finalization, mem_singleton_self _, planKey, mem_singleton.mp hr⟩
  | markExportBarrier planKey manifestSha256 memberCount =>
    obtain ⟨_, _, _, rfl⟩ := markExportBarrier_spec h
    exact ⟨.of_eq rfl, .inl rfl⟩
  | storeClosureAndOpenFinalization planKey closure =>
    obtain ⟨_, _, _, _, _, _, rfl⟩ := storeClosureAndOpenFinalization_spec h
    refine ⟨.of_updateWhere rfl fun r _ _ => ⟨rfl, rfl, fun _ => ?_, fun hmarked => ?_⟩, .inl rfl⟩
    · simp
    · cases hmarked
  | markPublishedMany workItemIds =>
    obtain ⟨_, rfl⟩ := markPublishedMany_spec h
    refine ⟨.of_updateWhere rfl fun r _ hsel => ⟨rfl, rfl, fun _ => ?_, fun _ => .inr ?_⟩, .inl rfl⟩
    · simp
    · simp only [Bool.and_eq_true, contains_iff_mem] at hsel
      exact hsel.1
  | storePendingTerminal lease payload now =>
    obtain ⟨stored, hstore⟩ := map_snd_eq_ok.mp h
    obtain ⟨_, _, hcases⟩ := storePendingTerminal_spec hstore
    rcases hcases with ⟨_, _, rfl⟩ | ⟨_, _, _, ⟨_, rfl⟩ | ⟨_, rfl⟩⟩
    · exact ⟨.of_eq rfl, .inl rfl⟩
    · exact ⟨.of_eq rfl, .inl rfl⟩
    · exact ⟨.of_updateWhere rfl fun r _ _ => ⟨rfl, rfl, id, .inl⟩, .inl rfl⟩
  | acceptPendingTerminal workItemId expected member expectedOrdinal =>
    obtain ⟨_, _, hcases⟩ := acceptPendingTerminal_spec h
    rcases hcases with ⟨_, rfl⟩ | ⟨_, _, ⟨_, rfl⟩ | ⟨_, _, _, _, _, _, _, rfl⟩⟩
    · exact ⟨.of_eq rfl, .inl rfl⟩
    · exact ⟨.of_updateWhere rfl fun r _ _ => ⟨rfl, rfl, id, .inl⟩, .inl rfl⟩
    · exact ⟨.of_updateWhere rfl fun r _ _ => ⟨rfl, rfl, id, .inl⟩, .inl rfl⟩
  | commitWindowReduction r now =>
    obtain ⟨commit, hcommit⟩ := map_snd_eq_ok.mp h
    obtain ⟨row, item, window, ordinal, hchecked, hcases⟩ := commitWindowReduction_spec hcommit
    rcases hcases with ⟨_, hinsert⟩ | ⟨existing, _, hreplay⟩
    · have hcommits := (WindowReduction.insert_spec hinsert).2
      exact ⟨.of_updateWhere (congrArg KeyedTable.rows hcommits.rows) fun r _ _ =>
        ⟨rfl, rfl, id, .inl⟩, .inr (.inr ⟨r, now, row, item, window, ordinal, hchecked, hcommits⟩)⟩
    · rw [(WindowReduction.replay_spec hreplay).2]
      exact ⟨.of_eq rfl, .inl rfl⟩
  | publishRecordingFinalization r now =>
    obtain ⟨commit, hpublish⟩ := map_snd_eq_ok.mp h
    obtain ⟨_, _, _, hcases⟩ := publishRecordingFinalization_spec hpublish
    rcases hcases with ⟨_, _, _, _, _, _, rfl⟩ | ⟨_, _, rfl⟩ <;> exact ⟨.of_eq rfl, .inl rfl⟩
  | claim workerId leaseDuration now | acknowledge claim now | recordFailure claim error now =>
    simp only [runStreamOp] at h
    split at h <;> cases h
    exact ⟨.of_eq rfl, .inl rfl⟩
  | reconcile now =>
    cases h
    exact ⟨.of_eq rfl, .inl rfl⟩

end Robata.Stream
