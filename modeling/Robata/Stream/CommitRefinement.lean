import Robata.Queue.Maintenance
import Robata.Stream.StreamOperations

/-!
# A window commit against the scheduler's own success

`commit_window_reduction` ends its work item with two statements of its own.  Its fence is
weaker than that of `succeed`: it compares neither the expiry of the lease nor the hard
deadline of the item.  And it neither releases the dependants of the item nor runs the
maintenance that follows every success.
-/

namespace Robata.Stream

open Lib Relation
open Queue (OpaqueUuid Sha256Digest NonEmptyString WorkLedger WorkRow WorkAttempt WorkLease
  LedgerInv parseTimestamp itemFromRow_readable_iff)
open Queue.WorkLedger (Evolves ItemChange LedgerStep only successFacts)
open Outbox (OutboxRetryPolicy)

variable {codec : Codec} {policy : OutboxRetryPolicy} {now : Int}

/-! ## A commit as a step of the work ledger -/

section CommitWork

variable {s s' : WorkLedger} {item : WorkRow} {lease : WorkLease} {reference : NonEmptyString}
  {sha : Sha256Digest}

theorem liveRunningLease_iff :
    liveRunningLease item lease now = true ↔ item.state = .running ∧
      item.leaseEpoch = lease.leaseEpoch ∧ item.fencingToken = some lease.fencingToken ∧
      item.leasedBy = some lease.workerId ∧
      ∃ expires, item.leaseExpiresAt = some expires ∧ now < parseTimestamp expires := by
  simp [liveRunningLease, and_assoc, Option.any_eq_true]

/-- The columns a commit writes are those of a success, the cancellation flag apart. -/
theorem withResult_eq (h : item.cancelRequested = false) :
    withResult item reference sha now =
      item.withTerminal (successFacts (some reference) (some sha)) now := by
  unfold withResult WorkRow.withTerminal successFacts
  rw [h]

theorem commitWork_spec (hinv : LedgerInv s) (hflag : s.Uncancelled)
    (hitem : s.item? lease.workItemId = some item) (hlive : liveRunningLease item lease now = true)
    (h : commitWork s item lease reference sha now = .ok s') :
    ∃ s₁, s.finishAttempt item .succeeded none none now = .ok s₁ ∧
      s₁.setTerminal item.workItemId (successFacts (some reference) (some sha)) now = .ok s' := by
  obtain ⟨hrunning, hepoch, htoken, _, _⟩ := liveRunningLease_iff.mp hlive
  have hid := WorkLedger.workItemId_of_item? hitem
  have hopen : item.completedAt = none := by
    have hiff := (hinv.items _ item hitem).shape.completed_iff
    rw [hrunning] at hiff
    simpa [Queue.WorkItemState.isTerminal] using hiff
  have hcancel := hflag _ item hitem (by rw [hrunning]; rfl)
  unfold commitWork at h
  rw [refuse_bind_eq_ok, refuse_bind_eq_ok] at h
  obtain ⟨hattempts, hitems, h⟩ := h
  rw [bne_eq_false_iff_eq] at hattempts hitems
  cases h
  -- under the fence the two `WHERE` clauses on the attempts select the same row
  have hsel : commitsAttempt item lease = fun a : WorkAttempt =>
      (a.workItemId, a.attemptNumber) == (item.workItemId, item.attempt) &&
        a.leaseEpoch == item.leaseEpoch && some a.fencingToken == item.fencingToken &&
        a.outcome == .active := by
    rw [hid, hepoch, htoken]
    rfl
  have hfinish : s.finishAttempt item .succeeded none none now = .ok { s with
      attempts := s.attempts.updateWhere (commitsAttempt item lease)
        (·.withOutcome .succeeded none none now) fun _ => rfl } := by
    unfold WorkLedger.finishAttempt
    rw [← hsel, if_pos hattempts]
  refine ⟨_, hfinish, ?_⟩
  have hcount : s.items.rowcount (fun r => r.workItemId == item.workItemId && r.completedAt.isNone)
      = 1 := by
    refine (s.items.rowcount_eq_one_iff ?_).mpr ⟨item, hitem, by simp [hopen]⟩
    intro r hr
    simp only [Bool.and_eq_true, beq_iff_eq] at hr
    exact hr.1.trans hid
  have hrows : s.items.updateWhere (fun r => r.workItemId == item.workItemId && r.completedAt.isNone)
        (·.withTerminal (successFacts (some reference) (some sha)) now) (fun _ => rfl) =
      s.items.updateWhere (commitsItem lease) (fun r => withResult r reference sha now)
        (fun _ => rfl) := by
    apply KeyedTable.updateWhere_congr
    intro r hr
    by_cases hsame : r.workItemId = item.workItemId
    · have hrow : r = item := by
        have hfound := WorkLedger.mem_items_iff.mp hr
        rw [hsame, hid, hitem] at hfound
        exact (Option.some.inj hfound).symm
      subst hrow
      rw [if_pos (by simp [hopen]), if_pos (by simp [commitsItem, hid, hrunning, hepoch, htoken, hopen]),
        withResult_eq hcancel]
    · rw [if_neg (by simp [hsame]), if_neg (by simp [commitsItem, hid ▸ hsame])]
  unfold WorkLedger.setTerminal WorkLedger.updateOne
  rw [if_pos hcount, hrows]

theorem commitWork_step (hinv : LedgerInv s) (hflag : s.Uncancelled)
    (hitem : s.item? lease.workItemId = some item) (hlive : liveRunningLease item lease now = true)
    (h : commitWork s item lease reference sha now = .ok s') :
    ItemChange s s' lease.workItemId item
        (item.withTerminal (successFacts (some reference) (some sha)) now) ∧
      LedgerStep now (only lease.workItemId) s s' := by
  obtain ⟨s₁, hfinish, hset⟩ := commitWork_spec hinv hflag hitem hlive h
  obtain ⟨hrunning, _⟩ := liveRunningLease_iff.mp hlive
  have hid := WorkLedger.workItemId_of_item? hitem
  have hactive : item.state.isActive = true := by
    rw [hrunning]
    rfl
  rw [← WorkLedger.closeAttempt_of_active hactive] at hfinish
  obtain ⟨hchange, hstep, _⟩ := WorkLedger.end_ledgerStep (only lease.workItemId) (hid ▸ hitem) rfl
    rfl hfinish hset (by decide) rfl fun _ => Queue.RowStep.succeed hid hrunning rfl
  rw [hid] at hchange
  exact ⟨hchange, hstep⟩

end CommitWork

/-- What every run keeps of the work tables, commits included. -/
structure WorkKept (s : WorkLedger) : Prop where
  inv : LedgerInv s
  uncancelled : s.Uncancelled

theorem WorkKept.evolves {s s' : WorkLedger} (h : WorkKept s) (hevolves : Evolves s s') :
    WorkKept s' :=
  ⟨hevolves.inv h.inv, hevolves.uncancelled h.inv h.uncancelled⟩

/-- The plans a transaction may insert into the work tables. -/
def StreamOp.plans : StreamOp → List (Queue.WorkItemPlan × List Queue.WorkDependency)
  | .work op => op.plans
  | _ => []

/-- Every transaction makes steps in the work tables, and inserts its own plans. -/
theorem runStreamOp_evolvesBy {op : StreamOp} {db db' : StreamDb} (hkept : WorkKept db.work)
    (h : runStreamOp codec policy op db = .ok db') :
    WorkLedger.EvolvesBy op.plans db.work db'.work := by
  rcases (runStreamOp_spec h).2 with hsame | ⟨value, rfl, hrun⟩ |
    ⟨r, now, row, item, window, ordinal, hchecked, hcommits⟩
  · rw [hsame]
    exact .refl
  · exact WorkLedger.run_evolvesBy hrun
  · exact .single (.inl ⟨_, _, (commitWork_step hkept.inv hkept.uncancelled hchecked.itemFound
      hcommits.live hcommits.work).2⟩)

theorem runStreamOp_evolves {op : StreamOp} {db db' : StreamDb} (hkept : WorkKept db.work)
    (h : runStreamOp codec policy op db = .ok db') : Evolves db.work db'.work :=
  (runStreamOp_evolvesBy hkept h).evolves

theorem workKept_of_reachable {db : StreamDb} (h : StreamReachable codec policy db) :
    WorkKept db.work := by
  refine h.invariant (fun db => WorkKept db.work) ⟨WorkLedger.empty_sound.1, ?_⟩ ?_
  · intro j r hr
    cases hr
  · intro op db db' hkept _ hrun
    exact hkept.evolves (runStreamOp_evolves hkept hrun)

/-! ## When the two agree -/

/-- What a commit would have to be, to refine a success of the scheduler: the scheduler
accepts the same lease at the same time, both leave the same work tables, and no dependant
stays `PLANNED` without an unfinished upstream. -/
def RefinesSuccess (s s' : WorkLedger) (r : WindowReduction) (now : Int) : Prop :=
  (∃ item, s.succeed r.lease (some (terminalResultReference r.terminalEvidence).val)
    (some r.terminalEvidence.evidenceRef.exactSha256) now = .ok (item, s')) ∧
  ∀ d ∈ s'.deps.rows, d.upstreamWorkItemId = r.lease.workItemId → ¬ s'.Stuck d.downstreamWorkItemId

/-- What `succeed` checks or does and a commit does not, absent before the commit. -/
structure SuccessAgrees (s : WorkLedger) (lease : WorkLease) (now : Int) : Prop where
  /-- The hard deadline of the item has not passed. -/
  deadline : ∀ item, s.item? lease.workItemId = some item →
    ∀ e, item.executionExpiryAt = some e → now < parseTimestamp e
  /-- The lease names the expiry that is stored. -/
  expiry : ∀ item, s.item? lease.workItemId = some item →
    ∀ e, item.leaseExpiresAt = some e → parseTimestamp e = parseTimestamp lease.leaseExpiresAt
  /-- The row reads back, before the success and after it. -/
  readable : ∀ item, s.item? lease.workItemId = some item →
    item.ClockOrdered ∧ parseTimestamp item.createdAt ≤ now
  /-- Maintenance finds no other row due. -/
  quiet : ∀ r ∈ s.items.rows, r.workItemId ≠ lease.workItemId → r.Quiet now
  /-- Every dependant reads back, and one that is `PLANNED` still waits for somebody else. -/
  dependants : ∀ d ∈ s.deps.rows, d.upstreamWorkItemId = lease.workItemId →
    ∀ r, s.item? d.downstreamWorkItemId = some r → r.ClockOrdered ∧
      (r.state = .planned → ∃ e ∈ s.deps.rows, e.downstreamWorkItemId = d.downstreamWorkItemId ∧
        e.upstreamWorkItemId ≠ lease.workItemId ∧
        ∃ u, s.item? e.upstreamWorkItemId = some u ∧ u.state.isTerminal = false)

theorem terminalResultReference_visible (evidence : StreamTerminalEvidence) :
    (terminalResultReference evidence).val.toList.all Queue.isPythonSpace = false := by
  have hhead : "stream-terminal-evidence:".toList.all Queue.isPythonSpace = false := by decide
  show ("stream-terminal-evidence:" ++ _).toList.all _ = false
  rw [String.toList_append, List.all_append, hhead, Bool.false_and]

theorem checkResult_terminalResultReference (evidence : StreamTerminalEvidence)
    (sha : Sha256Digest) :
    WorkLedger.checkResult (some (terminalResultReference evidence).val) (some sha) =
      .ok (some (terminalResultReference evidence)) := by
  have hvisible := terminalResultReference_visible evidence
  unfold WorkLedger.checkResult Queue.nonemptyOption Queue.nonempty
  simp only [hvisible, true_and]
  rfl

section Agreement

variable {s s' : WorkLedger} {item : WorkRow} {lease : WorkLease} {reference : NonEmptyString}
  {sha : Sha256Digest}

theorem requireLease_iff (hinv : LedgerInv s) (hitem : s.item? lease.workItemId = some item)
    (hlive : liveRunningLease item lease now = true) :
    (∃ held, s.requireLease lease now = .ok held) ↔ item.ClockOrdered ∧
      (∀ e, item.executionExpiryAt = some e → now < parseTimestamp e) ∧
      ∀ e, item.leaseExpiresAt = some e → parseTimestamp e = parseTimestamp lease.leaseExpiresAt := by
  obtain ⟨hrunning, hepoch, htoken, hworker, expires, hexpires, hlater⟩ :=
    liveRunningLease_iff.mp hlive
  have hholds : item.holdsLease lease now = true ↔
      (∀ e, item.executionExpiryAt = some e → now < parseTimestamp e) ∧
        ∀ e, item.leaseExpiresAt = some e →
          parseTimestamp e = parseTimestamp lease.leaseExpiresAt := by
    simp only [WorkRow.holdsLease, hrunning, hepoch, htoken, hworker, hexpires]
    cases item.executionExpiryAt <;> simp [Queue.WorkItemState.isActive, hlater, and_comm]
  rw [← hholds]
  constructor
  · rintro ⟨held, h⟩
    obtain ⟨hheld, hclock, hlease⟩ := WorkLedger.requireLease_spec h
    rw [hitem] at hheld
    rw [Option.some.inj hheld]
    exact ⟨hclock, hlease⟩
  · rintro ⟨hclock, hlease⟩
    obtain ⟨held, hload, hread⟩ :=
      WorkLedger.loadItem_completes hitem (hinv.items _ item hitem).shape hclock
    refine ⟨held, ?_⟩
    unfold WorkLedger.requireLease
    rw [hload, ok_bind, hread, if_pos hlease]

/-- `succeed` accepts and leaves what the commit leaves exactly when its fence accepts and
what follows the end of the item has nothing to do. -/
theorem succeed_iff (hinv : LedgerInv s) (hflag : s.Uncancelled) {r : WindowReduction}
    (hitem : s.item? r.lease.workItemId = some item)
    (hlive : liveRunningLease item r.lease now = true)
    (h : commitWork s item r.lease (terminalResultReference r.terminalEvidence)
      r.terminalEvidence.evidenceRef.exactSha256 now = .ok s') :
    (∃ out, s.succeed r.lease (some (terminalResultReference r.terminalEvidence).val)
        (some r.terminalEvidence.evidenceRef.exactSha256) now = .ok (out, s')) ↔
      (∃ held, s.requireLease r.lease now = .ok held) ∧
        ∃ out, s'.settle r.lease.workItemId now = .ok (out, s') := by
  obtain ⟨s₁, hfinish, hset⟩ := commitWork_spec hinv hflag hitem hlive h
  obtain ⟨hrunning, _⟩ := liveRunningLease_iff.mp hlive
  have hid := WorkLedger.workItemId_of_item? hitem
  have hrow : ∀ held, s.requireLease r.lease now = .ok held → held.row = item := by
    intro held hheld
    have hfound := (WorkLedger.requireLease_spec hheld).1
    rw [hitem] at hfound
    exact (Option.some.inj hfound).symm
  have hsucceed : ∀ held, s.requireLease r.lease now = .ok held →
      s.succeed r.lease (some (terminalResultReference r.terminalEvidence).val)
        (some r.terminalEvidence.evidenceRef.exactSha256) now =
        s'.settle r.lease.workItemId now := by
    intro held hheld
    unfold WorkLedger.succeed
    rw [checkResult_terminalResultReference, ok_bind, hheld, ok_bind, hrow held hheld,
      if_neg (by rw [hrunning]; simp), hfinish, ok_bind, hset, ok_bind, hid]
  constructor
  · rintro ⟨out, hout⟩
    have hheld : ∃ held, s.requireLease r.lease now = .ok held := by
      unfold WorkLedger.succeed at hout
      rw [checkResult_terminalResultReference, ok_bind, bind_eq_ok] at hout
      obtain ⟨held, hheld, _⟩ := hout
      exact ⟨held, hheld⟩
    obtain ⟨held, hlease⟩ := hheld
    exact ⟨⟨held, hlease⟩, out, hsucceed held hlease ▸ hout⟩
  · rintro ⟨⟨held, hlease⟩, out, hout⟩
    exact ⟨out, (hsucceed held hlease).trans hout⟩

/-- A dependant of the item that ended is free exactly when it is `PLANNED` and nobody else
holds it back. -/
theorem stuck_after_commit {facts : Queue.TerminalFacts}
    (change : ItemChange s s' lease.workItemId item (item.withTerminal facts now))
    (hfacts : facts.state.isTerminal = true) {k : OpaqueUuid} (hk : k ≠ lease.workItemId)
    {r : WorkRow} (hr : s.item? k = some r) :
    ¬ s'.Stuck k ↔ (r.state = .planned → ∃ e ∈ s.deps.rows, e.downstreamWorkItemId = k ∧
      e.upstreamWorkItemId ≠ lease.workItemId ∧
      ∃ u, s.item? e.upstreamWorkItemId = some u ∧ u.state.isTerminal = false) := by
  have hr' : s'.item? k = some r := by
    rw [change.after, if_neg hk]
    exact hr
  constructor
  · intro hfree hplanned
    by_contra hnone
    push Not at hnone
    refine hfree ⟨r, hr', hplanned, WorkLedger.upstreamEnded_def.mpr ?_⟩
    rw [change.deps_eq]
    intro e he hdown u hu
    by_cases hup : e.upstreamWorkItemId = lease.workItemId
    · rw [hup, change.after_self] at hu
      rw [← Option.some.inj hu]
      exact hfacts
    · rw [change.after, if_neg hup] at hu
      simpa using hnone e he hdown hup u hu
  · rintro hheld ⟨q, hq, hplanned, hended⟩
    rw [hr'] at hq
    rw [← Option.some.inj hq] at hplanned
    obtain ⟨e, he, hdown, hup, u, hu, hopen⟩ := hheld hplanned
    have hterminal := WorkLedger.upstreamEnded_def.mp hended e (change.deps_eq ▸ he) hdown u
      (by rw [change.after, if_neg hup]; exact hu)
    rw [hopen] at hterminal
    cases hterminal

end Agreement

/-- A commit that inserts a result refines a success of the scheduler exactly when the
scheduler's further checks would have passed and its further work was empty. -/
theorem commit_refines_success_iff {db db' : StreamDb} {r : WindowReduction}
    {commit : StreamPublicationCommit} (hreach : StreamReachable codec policy db)
    (h : commitWindowReduction codec policy db r now = .ok (commit, db'))
    (hinserted : commit.inserted = true) :
    RefinesSuccess db.work db'.work r now ↔ SuccessAgrees db.work r.lease now := by
  have hkept := workKept_of_reachable hreach
  have hinv := hkept.inv
  obtain ⟨row, item, window, ordinal, hchecked, hcases⟩ := commitWindowReduction_spec h
  rcases hcases with ⟨_, hinsert⟩ | ⟨existing, _, hreplay⟩
  case inr =>
    rw [(WindowReduction.replay_spec hreplay).1] at hinserted
    cases hinserted
  have hcommits := (WindowReduction.insert_spec hinsert).2
  have hitem := hchecked.itemFound
  obtain ⟨hchange, hstep⟩ :=
    commitWork_step hinv hkept.uncancelled hitem hcommits.live hcommits.work
  have hinv' := hstep.inv hinv
  rw [RefinesSuccess, succeed_iff hinv hkept.uncancelled hitem hcommits.live hcommits.work,
    requireLease_iff hinv hitem hcommits.live, WorkLedger.settle_idle_iff hinv']
  have hdown : ∀ d ∈ db.work.deps.rows, d.upstreamWorkItemId = r.lease.workItemId →
      d.downstreamWorkItemId ≠ r.lease.workItemId ∧
        ∃ q, db.work.item? d.downstreamWorkItemId = some q := by
    intro d hd hup
    refine ⟨fun hsame => d.distinctNodes (hsame.trans hup.symm), ?_⟩
    exact Option.isSome_iff_exists.mp (hinv.deps_closed d hd).1
  constructor
  · rintro ⟨⟨⟨hclock, hdeadline, hexpiry⟩, hidle, hquiet, q, hq, hafter⟩, _⟩
    rw [hchange.after_self] at hq
    rw [← Option.some.inj hq] at hafter
    refine ⟨?_, ?_, ?_, ?_, ?_⟩
    · intro item' hitem'
      rw [hitem] at hitem'
      exact Option.some.inj hitem' ▸ hdeadline
    · intro item' hitem'
      rw [hitem] at hitem'
      exact Option.some.inj hitem' ▸ hexpiry
    · intro item' hitem'
      rw [hitem] at hitem'
      rw [← Option.some.inj hitem']
      refine ⟨hclock, ?_⟩
      have hle : parseTimestamp item.createdAt ≤ parseTimestamp (Queue.formatTimestamp now) := hafter
      rwa [Queue.parseTimestamp_formatTimestamp] at hle
    · intro other hother hne
      refine hquiet other (WorkLedger.mem_items_iff.mpr ?_)
      rw [hchange.after, if_neg hne]
      exact WorkLedger.mem_items_iff.mp hother
    · intro d hd hup dependant hdependant
      have hne := (hdown d hd hup).1
      obtain ⟨⟨q, hq, hreads⟩, hheld⟩ := hidle d.downstreamWorkItemId
        (WorkLedger.mem_downstreamIds.mpr ⟨d, hchange.deps_eq ▸ hd, hup, rfl⟩)
      rw [hchange.after, if_neg hne, hdependant] at hq
      rw [Option.some.inj hq]
      refine ⟨hreads, ?_⟩
      exact (stuck_after_commit hchange rfl hne (hdependant.trans hq)).mp hheld
  · intro hagrees
    obtain ⟨hclock, hcreated⟩ := hagrees.readable item hitem
    have hheld : ∀ d ∈ db.work.deps.rows, d.upstreamWorkItemId = r.lease.workItemId →
        (∃ q, db'.work.item? d.downstreamWorkItemId = some q ∧ q.ClockOrdered) ∧
          ¬ db'.work.Stuck d.downstreamWorkItemId := by
      intro d hd hup
      obtain ⟨hne, q, hq⟩ := hdown d hd hup
      obtain ⟨hreads, hwaits⟩ := hagrees.dependants d hd hup q hq
      refine ⟨⟨q, ?_, hreads⟩, (stuck_after_commit hchange rfl hne hq).mpr hwaits⟩
      rw [hchange.after, if_neg hne]
      exact hq
    refine ⟨⟨⟨hclock, hagrees.deadline item hitem, hagrees.expiry item hitem⟩, ?_, ?_,
      _, hchange.after_self, ?_⟩, ?_⟩
    · intro k hk
      obtain ⟨d, hd, hup, rfl⟩ := WorkLedger.mem_downstreamIds.mp hk
      exact hheld d (hchange.deps_eq ▸ hd) hup
    · intro other hother
      have hfound := WorkLedger.mem_items_iff.mp hother
      by_cases hne : other.workItemId = r.lease.workItemId
      · rw [hne, hchange.after_self] at hfound
        refine WorkRow.quiet_of_terminal now
          (hinv'.items _ other (WorkLedger.mem_items_iff.mp hother)).shape ?_
        rw [← Option.some.inj hfound]
        rfl
      · rw [hchange.after, if_neg hne] at hfound
        exact hagrees.quiet other (WorkLedger.mem_items_iff.mpr hfound) hne
    · show parseTimestamp item.createdAt ≤ parseTimestamp (Queue.formatTimestamp now)
      rwa [Queue.parseTimestamp_formatTimestamp]
    · intro d hd hup
      exact (hheld d (hchange.deps_eq ▸ hd) hup).2

/-! ## A commit under the lease of the claim -/

namespace SampleCommit

/-- One byte stands for every document. -/
def sampleCodec : Codec where
  canonicalJsonBytes := fun _ => [0]
  exactBytesSha256 := (·.length)
  outbox := ⟨fun _ => "digest", id, fun _ => none, fun _ => []⟩

theorem sample_versioned : "1.0" ≠ "" := by decide

theorem sample_attempts : 0 < 3 := by decide

theorem sample_nonnegative : (0 : Rat) ≤ 1 := by decide

theorem sample_ordered : (1 : Rat) ≤ 60 := by decide

def samplePolicy : OutboxRetryPolicy :=
  ⟨"1.0", 3, 1, 60, sample_versioned, sample_attempts, sample_nonnegative, sample_ordered⟩

def sampleKey : NonEmptyString := ⟨"reduction", by decide⟩

/-- The stream plan of the reduction of window 0, work item 1. -/
def samplePlan : StreamWorkItemPlan where
  workItemId := 1
  workLogicalKey := sampleKey
  streamRunId := 7
  captureScopeDigest := 0
  stage := .windowReduction
  subject := ⟨"window", "w0", 5⟩
  orderedDependencies := []
  inputSemanticSha256 := 0
  configSemanticSha256 := 0
  priority := 0
  slaDeadlineAt := none
  executionExpiryAt := none
  maxAttempts := 1
  traceId := none
  createdAt := Queue.formatTimestamp 10
  maxAttempts_pos := Nat.one_pos

theorem sample_lower : Contracts.int64Min ≤ 0 := by decide

def sampleInterval : Contracts.NanosecondInterval := ⟨0, 1, sample_lower, by decide, by decide⟩

def sampleWindow : NewStreamWindow where
  ordinal := 0
  declaration := ⟨"plan", 0, "w0", 5, sampleInterval, 6, none, 7, ""⟩
  window := ""
  workPlans := [⟨some 0, 0, samplePlan, .pending⟩]

def sampleRef : ArtifactEvidenceRef := ⟨"artifact", 1, 1, "result", "application/json"⟩

def sampleEvidence : StreamTerminalEvidence :=
  ⟨.succeeded, sampleRef, "1.0", Queue.formatTimestamp 20, none, none, by decide⟩

/-- A commit of window 0 under a lease. -/
def sampleReduction (lease : WorkLease) : WindowReduction where
  lease := lease
  terminalEvidence := sampleEvidence
  terminalMember :=
    ⟨"member", "plan", 0, "w0", 5, .succeeded, 1, "reduction", sampleRef, "1.0", 8⟩
  result := ⟨"result", 3, "window-result", 4, ⟨"window", "w0", 5⟩, "qa", .succeeded, [], 9,
    sampleRef, Queue.formatTimestamp 20, ""⟩
  causalEvidence := none
  topic := "events"
  messageKey := "w0"

/-- The window is declared, its reduction projected and claimed, and the lease renewed. -/
def sampleOps : List StreamOp :=
  [.registerPlan "plan" "", .appendWindows "plan" [sampleWindow] false,
    .work (.plan (Queue.samplePlan 1 sampleKey 10 none) []), .markPublishedMany [1],
    .work (.claim "worker" 1 (some 1) 10 true Queue.sampleToken),
    .work (.heartbeat Queue.sampleLease 1 20)]

def sampleDb : StreamDb := replay (runStreamOp sampleCodec samplePolicy) sampleOps StreamDb.empty

def renewedLease : WorkLease :=
  { Queue.sampleLease with leaseExpiresAt := Queue.formatTimestamp 1000020 }

theorem sampleDb_reachable : StreamReachable sampleCodec samplePolicy sampleDb :=
  reach_replay sampleOps .start

theorem sample_commits {lease : WorkLease} (h : lease = Queue.sampleLease ∨ lease = renewedLease) :
    ∃ commit db', commitWindowReduction sampleCodec samplePolicy sampleDb (sampleReduction lease) 30 =
      .ok (commit, db') ∧ commit.inserted = true := by
  have hinserted : (commitWindowReduction sampleCodec samplePolicy sampleDb
      (sampleReduction lease) 30).map (fun out => out.1.inserted) = .ok true := by
    rcases h with rfl | rfl <;> decide +kernel
  cases hcommit : commitWindowReduction sampleCodec samplePolicy sampleDb (sampleReduction lease) 30 with
  | error e =>
    rw [hcommit] at hinserted
    cases hinserted
  | ok out =>
    rw [hcommit] at hinserted
    exact ⟨out.1, out.2, rfl, Except.ok.inj hinserted⟩

end SampleCommit

open SampleCommit in
/-- A worker commits under the lease its claim returned, after it has renewed it: the commit
goes through, and the scheduler would have refused the lease. -/
theorem commit_refines_success_fails :
    ¬ ∀ (codec : Codec) (policy : OutboxRetryPolicy) (db db' : StreamDb) (r : WindowReduction)
      (now : Int) (commit : StreamPublicationCommit), StreamReachable codec policy db →
      commitWindowReduction codec policy db r now = .ok (commit, db') → commit.inserted = true →
      RefinesSuccess db.work db'.work r now := by
  intro h
  obtain ⟨commit, db', hcommit, hinserted⟩ := sample_commits (.inl rfl)
  obtain ⟨⟨item, hsucceed⟩, _⟩ :=
    h sampleCodec samplePolicy sampleDb db' _ 30 commit sampleDb_reachable hcommit hinserted
  have hrefused : (sampleDb.work.succeed Queue.sampleLease
      (some (terminalResultReference sampleEvidence).val) (some 1) 30).isOk = false := by
    decide +kernel
  have hsame : sampleDb.work.succeed Queue.sampleLease
      (some (terminalResultReference sampleEvidence).val) (some 1) 30 = .ok (item, db'.work) :=
    hsucceed
  rw [hsame] at hrefused
  cases hrefused

open SampleCommit in
/-- The same commit under the renewed lease. -/
theorem commit_refines_success_renewed :
    ∃ commit db', commitWindowReduction sampleCodec samplePolicy sampleDb
        (sampleReduction renewedLease) 30 = .ok (commit, db') ∧
      RefinesSuccess sampleDb.work db'.work (sampleReduction renewedLease) 30 := by
  obtain ⟨commit, db', hcommit, hinserted⟩ := sample_commits (.inr rfl)
  refine ⟨commit, db', hcommit,
    (commit_refines_success_iff sampleDb_reachable hcommit hinserted).mpr ⟨?_, ?_, ?_, ?_, ?_⟩⟩
  · have hall : ∀ item ∈ sampleDb.work.item? 1, ∀ e ∈ item.executionExpiryAt,
        30 < parseTimestamp e := by decide +kernel
    exact hall
  · have hall : ∀ item ∈ sampleDb.work.item? 1, ∀ e ∈ item.leaseExpiresAt,
        parseTimestamp e = parseTimestamp renewedLease.leaseExpiresAt := by decide +kernel
    exact hall
  · have hall : ∀ item ∈ sampleDb.work.item? 1,
        item.ClockOrdered ∧ parseTimestamp item.createdAt ≤ 30 := by decide +kernel
    exact hall
  · have hall : ∀ r ∈ sampleDb.work.items.rows, r.workItemId = 1 := by decide +kernel
    exact fun r hr hne => absurd (hall r hr) hne
  · have hall : sampleDb.work.deps.rows = [] := by decide +kernel
    intro d hd
    rw [hall] at hd
    exact absurd hd List.not_mem_nil

end Robata.Stream
