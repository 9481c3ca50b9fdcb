import Robata.Queue.Progress

/-!
# Fencing

An item is leased exactly while it has one open attempt, and that attempt is the
one its lease columns name.  A call under any other lease is refused.  The
refusal is `WorkFenceError` when the rows it reads are in order; a row stamped
before its own creation makes the read itself fail.
-/

namespace Robata.Queue

open Lib Relation
open SchedulerOp (ClockOk)

/-- The lease columns of a row agree with the attempts of its item. -/
structure WorkLedger.Fenced (s : WorkLedger) (r : WorkRow) : Prop where
  active_iff : r.state.isActive = true ↔
    ∃! a, a ∈ s.attempts.rows ∧ a.workItemId = r.workItemId ∧ a.outcome = .active
  lease : ∀ a ∈ s.attempts.rows, a.workItemId = r.workItemId → a.outcome = .active →
    a.attemptNumber = r.attempt ∧ a.leaseEpoch = r.leaseEpoch ∧
      some a.fencingToken = r.fencingToken ∧ some a.workerId = r.leasedBy
  numbered : ∀ n, (1 ≤ n ∧ n ≤ r.attempt) ↔
    ∃! a, a ∈ s.attempts.rows ∧ a.workItemId = r.workItemId ∧ a.attemptNumber = n
  bounded : r.attempt = r.leaseEpoch ∧ r.leaseEpoch ≤ r.maxAttempts

/-- The lease is not the current one of the row, or has run out. -/
def WorkRow.StaleLease (r : WorkRow) (lease : WorkLease) (now : Int) : Prop :=
  r.leaseEpoch ≠ lease.leaseEpoch ∨ r.fencingToken ≠ some lease.fencingToken ∨
    r.leasedBy ≠ some lease.workerId ∨
    r.leaseExpiresAt.map parseTimestamp ≠ some (parseTimestamp lease.leaseExpiresAt) ∨
    parseTimestamp lease.leaseExpiresAt ≤ now

/-- The calls that need a lease, with their other arguments. -/
inductive FencedCall
  | start
  | heartbeat (leaseDurationSeconds : Int)
  | succeed (resultReference : Option String) (resultSha256 : Option Sha256Digest)
  | fail (errorCode : String) (retryable : Bool) (errorDetail : Option String)
      (retryDelaySeconds : Int)

namespace FencedCall

/-- The operation a call issues first. -/
def op (call : FencedCall) (lease : WorkLease) (now : Int) : SchedulerOp :=
  match call with
  | .start => .start lease now
  | .heartbeat duration => .heartbeat lease duration now
  | .succeed resultReference resultSha256 => .succeed lease resultReference resultSha256 now
  | .fail errorCode retryable errorDetail delay =>
    .fail lease errorCode retryable errorDetail delay now

/-- The arguments other than the lease pass the checks made before the
transaction. -/
def ArgumentsOk : FencedCall → Prop
  | .start => True
  | .heartbeat duration => 0 < duration
  | .succeed resultReference resultSha256 =>
    ∃ reference, WorkLedger.checkResult resultReference resultSha256 = .ok reference
  | .fail errorCode _ errorDetail delay =>
    (∃ code, nonempty errorCode "error_code" = .ok code) ∧
      (∃ detail, nonemptyOption errorDetail "error_detail" = .ok detail) ∧ 0 ≤ delay

/-- The exception a fenced call ends with: a `WorkFenceError` of the first
transaction is raised again unless the second transaction raises. -/
def raised {α β : Type} : Except WorkError α → Except WorkError β → Option WorkError
  | .ok _, _ => none
  | .error (.fence message), .ok _ => some (.fence message)
  | .error (.fence _), .error e => some e
  | .error e, _ => some e

end FencedCall

def staleLeaseError : WorkError := .fence "work lease is stale, expired, or inactive"

namespace WorkLedger

variable {now : Int} {s : WorkLedger}

variable {r : WorkRow}

theorem Sound.fenced (hs : s.Sound) (hr : r ∈ s.items.rows) : s.Fenced r := by
  have hinv := hs.1.items _ r (mem_items_iff.mp hr)
  -- attempts of the item, found by their number
  have hfind : ∀ a, a ∈ s.attempts.rows → a.workItemId = r.workItemId →
      s.attemptsOf r.workItemId a.attemptNumber = some a := by
    intro a ha hid
    have hkey := KeyedTable.mem_rows_iff.mp ha
    rw [hid] at hkey
    exact hkey
  have hmem : ∀ n a, s.attemptsOf r.workItemId n = some a →
      a ∈ s.attempts.rows ∧ a.workItemId = r.workItemId ∧ a.attemptNumber = n := by
    intro n a ha
    have hkey := KeyedTable.key_of_find? ha
    simp only [Prod.mk.injEq] at hkey
    exact ⟨KeyedTable.mem_of_find? ha, hkey.1, hkey.2⟩
  have hexists : ∀ n, 1 ≤ n → n ≤ r.attempt → ∃ a, s.attemptsOf r.workItemId n = some a := by
    intro n hlow hhigh
    exact Option.isSome_iff_exists.mp ((hinv.numbered n).mpr ⟨hlow, hhigh⟩)
  have hcurrent : ∀ a ∈ s.attempts.rows, a.workItemId = r.workItemId → a.outcome = .active →
      r.state.isActive = true ∧ a.attemptNumber = r.attempt := by
    intro a ha hid hactive
    exact (hinv.active_iff _ a (hfind a ha hid)).mp hactive
  refine ⟨⟨?_, ?_⟩, ?_, ?_, ⟨hinv.epoch_eq.symm, ?_⟩⟩
  · intro hactive
    have hpos := (hinv.shape.lease_positive hactive).2
    obtain ⟨a, ha⟩ := hexists r.attempt hpos (le_refl _)
    obtain ⟨hrow, hid, _⟩ := hmem _ a ha
    refine ⟨a, ⟨hrow, hid, (hinv.active_iff _ a ha).mpr ⟨hactive, rfl⟩⟩, ?_⟩
    rintro b ⟨hb, hbid, hbactive⟩
    have hnumber := (hcurrent b hb hbid hbactive).2
    have hfound := hfind b hb hbid
    rw [hnumber, ha] at hfound
    exact (Option.some.inj hfound).symm
  · rintro ⟨a, ⟨ha, hid, hactive⟩, _⟩
    exact (hcurrent a ha hid hactive).1
  · intro a ha hid hactive
    obtain ⟨hleased, hnumber⟩ := hcurrent a ha hid hactive
    have hfound := hfind a ha hid
    have hepoch := hinv.epochs _ a hfound
    rw [hnumber] at hfound hepoch
    rw [hinv.epoch_eq]
    exact ⟨hnumber, hepoch, hinv.lease hleased a hfound⟩
  · intro n
    constructor
    · rintro ⟨hlow, hhigh⟩
      obtain ⟨a, ha⟩ := hexists n hlow hhigh
      refine ⟨a, hmem n a ha, ?_⟩
      rintro b ⟨hb, hbid, hbn⟩
      have hfound := hfind b hb hbid
      rw [hbn, ha] at hfound
      exact (Option.some.inj hfound).symm
    · rintro ⟨a, ⟨ha, hid, hn⟩, _⟩
      have hfound := hfind a ha hid
      rw [hn] at hfound
      exact (hinv.numbered n).mp (by rw [hfound]; rfl)
  · rw [hinv.epoch_eq]
    exact hinv.bound

variable {lease : WorkLease}

theorem holdsLease_of_stale (h : r.StaleLease lease now) : r.holdsLease lease now = false := by
  cases hholds : r.holdsLease lease now with
  | false => rfl
  | true =>
    exfalso
    simp only [WorkRow.holdsLease, Bool.and_eq_true, beq_iff_eq] at hholds
    obtain ⟨⟨⟨⟨⟨_, hepoch⟩, htoken⟩, hworker⟩, hexpiry⟩, _⟩ := hholds
    obtain ⟨e, he, hsame⟩ := (Option.any_eq_true _ _).mp hexpiry
    rw [Bool.and_eq_true, beq_iff_eq, decide_eq_true_eq] at hsame
    rcases h with h | h | h | h | h
    · exact h hepoch
    · exact h htoken
    · exact h hworker
    · apply h
      rw [he, Option.map_some, hsame.1]
    · omega

/-- A fenced call that commits holds the lease of its item. -/
theorem FencedCall.held {call : FencedCall} (hrun : (call.op lease now).run s = .ok s') :
    ∃ q, s.item? lease.workItemId = some q ∧ q.holdsLease lease now = true := by
  cases call with
  | start =>
    obtain ⟨item, h⟩ := map_snd_eq_ok.mp hrun
    obtain ⟨q, hq, hholds, _⟩ := start_spec h
    exact ⟨q, hq, hholds⟩
  | heartbeat duration =>
    obtain ⟨item, h⟩ := map_snd_eq_ok.mp hrun
    obtain ⟨q, _, hq, hholds, _⟩ := heartbeat_spec h
    exact ⟨q, hq, hholds⟩
  | succeed resultReference resultSha256 =>
    obtain ⟨item, h⟩ := map_snd_eq_ok.mp hrun
    obtain ⟨q, _, hq, hholds, _⟩ := succeed_spec h
    exact ⟨q, hq, hholds⟩
  | fail errorCode retryable errorDetail delay =>
    obtain ⟨item, h⟩ := map_snd_eq_ok.mp hrun
    obtain ⟨q, _, _, _, _, hq, hholds, _⟩ := fail_spec h
    exact ⟨q, hq, hholds⟩

theorem stale_call_refused (call : FencedCall) (hr : s.item? lease.workItemId = some r)
    (hstale : r.StaleLease lease now) :
    ∃ e, (call.op lease now).run s = .error e := by
  cases hrun : (call.op lease now).run s with
  | error e => exact ⟨e, rfl⟩
  | ok s' =>
    have hnot := holdsLease_of_stale hstale
    obtain ⟨q, hq, hholds⟩ := FencedCall.held hrun
    rw [hr] at hq
    cases hq
    rw [hnot] at hholds
    cases hholds

theorem requireLease_of_stale (hr : s.item? lease.workItemId = some r) (hshape : r.Shape)
    (hclock : r.ClockOrdered) (hstale : r.StaleLease lease now) :
    s.requireLease lease now = .error staleLeaseError := by
  obtain ⟨item, hload, hrow⟩ := loadItem_completes hr hshape hclock
  unfold requireLease
  rw [hload, ok_bind, hrow, holdsLease_of_stale hstale]
  rfl

/-- A call with sound arguments under a stale lease is fenced off when its row
can be read. -/
theorem stale_call_fenced {call : FencedCall} (hargs : call.ArgumentsOk)
    (hr : s.item? lease.workItemId = some r) (hshape : r.Shape) (hclock : r.ClockOrdered)
    (hstale : r.StaleLease lease now) :
    (call.op lease now).run s = .error staleLeaseError := by
  have hlease := requireLease_of_stale hr hshape hclock hstale
  cases call with
  | start =>
    show (s.start lease now).map Prod.snd = _
    unfold start
    rw [hlease]
    rfl
  | heartbeat duration =>
    show (s.heartbeat lease duration now).map Prod.snd = _
    have hduration : positiveInt duration "lease_duration_seconds" = .ok duration.toNat :=
      if_pos hargs
    unfold heartbeat
    rw [hduration, hlease]
    rfl
  | succeed resultReference resultSha256 =>
    obtain ⟨reference, hreference⟩ := hargs
    show (s.succeed lease resultReference resultSha256 now).map Prod.snd = _
    unfold succeed
    rw [hreference, hlease]
    rfl
  | fail errorCode retryable errorDetail delay =>
    obtain ⟨⟨code, hcode⟩, ⟨detail, hdetail⟩, hdelay⟩ := hargs
    have hseconds : nonnegativeInt delay "retry_delay_seconds" = .ok delay.toNat :=
      if_pos hdelay
    show (s.fail lease errorCode retryable errorDetail delay now).map Prod.snd = _
    unfold fail
    rw [hcode, hdetail, hseconds, hlease]
    rfl

theorem reach_clocked {s₀ : WorkLedger} (h₀ : s₀.Sound ∧ s₀.Clocked)
    (h : Reach SchedulerOp.run ClockOk s₀ s) : s.Sound ∧ s.Clocked := by
  refine h.invariant (fun s => s.Sound ∧ s.Clocked) h₀ ?_
  intro op s s' hs hok hrun
  exact ⟨run_sound hrun hs.1, run_clocked hrun hs.1 hs.2 hok⟩

theorem empty_clocked : WorkLedger.empty.Clocked := by
  intro j r hr
  cases hr

/-- Fencing: in every reachable ledger the lease columns agree with the
attempts, and no call commits under a stale lease.  In a run whose calls meet
`ClockOk`, with any calls of other workers between the two transactions of a
fenced call, the exception such a call ends with is `WorkFenceError`. -/
theorem work_ledger_fencing {s : WorkLedger} (hs : Reachable s) : (∀ r ∈ s.items.rows, s.Fenced r) ∧
    (∀ (call : FencedCall) (lease : WorkLease) (now : Int) (r : WorkRow),
      s.item? lease.workItemId = some r → r.StaleLease lease now →
      ∃ e, (call.op lease now).run s = .error e) ∧
    (Reach SchedulerOp.run ClockOk WorkLedger.empty s → ∀ s', Reach SchedulerOp.run ClockOk s s' →
      ∀ (call : FencedCall) (lease : WorkLease) (now : Int) (r : WorkRow), call.ArgumentsOk →
        s.item? lease.workItemId = some r → r.StaleLease lease now →
        (SchedulerOp.reconcileExactDueState lease.workItemId now).ClockOk s' →
        FencedCall.raised ((call.op lease now).run s)
          (s'.reconcileExactDueState lease.workItemId now) = some staleLeaseError) := by
  refine ⟨?_, ?_, ?_⟩
  · have hsound : s.Sound := reach_sound hs
    exact fun r hr => hsound.fenced hr
  · intro call lease now r hr hstale
    exact stale_call_refused call hr hstale
  · intro h s' h' call lease now r hargs hr hstale hok
    obtain ⟨hsound, hclocked⟩ := reach_clocked ⟨empty_sound, empty_clocked⟩ h
    obtain ⟨hsound', hclocked'⟩ := reach_clocked ⟨hsound, hclocked⟩ h'
    have hfirst := stale_call_fenced hargs hr (hsound.1.items _ r hr).shape
      (hclocked _ r hr).ordered hstale
    have hsome : (s'.item? lease.workItemId).isSome = true := by
      obtain ⟨r', hr', _⟩ := (reach_persists hsound h').2.persists.rows _ r hr
      rw [hr']
      rfl
    obtain ⟨out, hsecond⟩ :=
      (SweepOk.onTime hok hsound'.1 hclocked').reconcileExactDueState_completes hsome
    rw [hfirst, hsecond]
    rfl

/-! ## Histories -/

/-- An item that has ended keeps its row. Every attempt stays with its lease, and one that has ended
is not written again. -/
structure HistoryKept (s s' : WorkLedger) : Prop where
  ended : ∀ j r, s.item? j = some r → r.state.isTerminal = true → s'.item? j = some r
  attempts : ∀ j n a, s.attemptsOf j n = some a → ∃ a', s'.attemptsOf j n = some a' ∧
    a.SameLease a' ∧ (a.outcome ≠ .active → a' = a)

theorem HistoryKept.of_rows (hrows : ∀ j r, s.item? j = some r → s'.item? j = some r)
    (hattempts : s'.attempts = s.attempts) : HistoryKept s s' :=
  ⟨fun j r hr _ => hrows j r hr, fun j n a ha =>
    ⟨a, by rw [attemptsOf_congr hattempts, ha], ⟨rfl, rfl, rfl⟩, fun _ => rfl⟩⟩

theorem HistoryKept.trans {t : WorkLedger} (h₁ : HistoryKept s t) (h₂ : HistoryKept t s') :
    HistoryKept s s' := by
  refine ⟨fun j r hr hended => h₂.ended j r (h₁.ended j r hr hended) hended, ?_⟩
  intro j n a ha
  obtain ⟨a₁, ha₁, hlease₁, hsame₁⟩ := h₁.attempts j n a ha
  obtain ⟨a₂, ha₂, hlease₂, hsame₂⟩ := h₂.attempts j n a₁ ha₁
  refine ⟨a₂, ha₂, ⟨hlease₂.1.trans hlease₁.1, hlease₂.2.trans hlease₁.2,
    hlease₂.3.trans hlease₁.3⟩, fun hended => ?_⟩
  cases hsame₁ hended
  exact hsame₂ hended

theorem ItemStep.attempts_kept {j : OpaqueUuid} {called : Prop} {r' : WorkRow}
    (h : ItemStep now called s s' j r r') (hinv : ItemInv r (s.attemptsOf j)) {n : Nat}
    {a : WorkAttempt} (ha : s.attemptsOf j n = some a) : ∃ a', s'.attemptsOf j n = some a' ∧
      a.SameLease a' ∧ (a.outcome ≠ .active → a' = a) := by
  have hle := ((hinv.numbered n).mp (by rw [ha]; rfl)).2
  cases h.attempts with
  | kept _ hafter => exact ⟨a, by rw [hafter, ha], ⟨rfl, rfl, rfl⟩, fun _ => rfl⟩
  | touched active _ found lease _ hafter | closed active _ found lease _ hafter =>
    rw [hafter]
    by_cases hn : n = r.attempt
    · subst hn
      cases ha.symm.trans found
      exact ⟨_, Function.update_self .., lease,
        fun hended => absurd ((hinv.active_iff _ a ha).mpr ⟨active, rfl⟩) hended⟩
    · exact ⟨a, by rw [Function.update_of_ne hn, ha], ⟨rfl, rfl, rfl⟩, fun _ => rfl⟩
  | opened inactive active' _ _ _ _ hafter =>
    -- the new attempt has the next number
    have hnext := (h.row.claimed inactive active').2.1
    rw [hafter, Function.update_of_ne (by omega)]
    exact ⟨a, ha, ⟨rfl, rfl, rfl⟩, fun _ => rfl⟩

theorem LedgerStep.historyKept {called : OpaqueUuid → Prop} (h : LedgerStep now called s s')
    (hinv : LedgerInv s) : HistoryKept s s' := by
  refine ⟨fun j r => h.terminal_frozen hinv, fun j n a ha => ?_⟩
  rcases h.items j with hsame | ⟨q, q', hitem⟩
  · exact ⟨a, by rw [hsame.2, ha], ⟨rfl, rfl, rfl⟩, fun _ => rfl⟩
  · exact hitem.attempts_kept (hinv.items j q hitem.before) ha

theorem Evolves.historyKept (h : Evolves s s') (hinv : LedgerInv s) : HistoryKept s s' := by
  induction h with
  | refl => exact .of_rows (fun _ _ hr => hr) rfl
  | tail hfirst hlast ih =>
    refine ih.trans ?_
    rcases hlast with ⟨_, _, hstep⟩ | ⟨_, _, hinsert⟩
    · exact hstep.historyKept (Evolves.inv hfirst hinv)
    · exact .of_rows (fun _ _ hr => hinsert.item?_mono hr) hinsert.attempts_eq

/-- The history of the work is append-only, and a lease whose attempt has ended is dead for
good: whatever calls come in between, no call under it commits. -/
theorem ended_lease_refused {admits : SchedulerOp → WorkLedger → Prop} (h : Reachable s)
    (h' : Reach SchedulerOp.run admits s s') : HistoryKept s s' ∧
      ∀ (lease : WorkLease) (a : WorkAttempt),
        s.attemptsOf lease.workItemId lease.leaseEpoch = some a → a.outcome ≠ .active →
        ∀ (call : FencedCall) (now : Int), ∃ e, (call.op lease now).run s' = .error e := by
  have hs := reach_sound h
  obtain ⟨hs', hevolves⟩ := reach_persists hs h'
  have hkept := hevolves.historyKept hs.1
  refine ⟨hkept, fun lease a ha hended call now => ?_⟩
  obtain ⟨a', ha', _, hsame⟩ := hkept.attempts _ _ a ha
  cases hsame hended
  cases hrun : (call.op lease now).run s' with
  | error e => exact ⟨e, rfl⟩
  | ok t =>
    obtain ⟨r, hr, hholds⟩ := FencedCall.held hrun
    have hitem := hs'.1.items _ r hr
    have hactive := isActive_of_holdsLease hholds
    have hepoch : r.leaseEpoch = lease.leaseEpoch := by
      simp only [WorkRow.holdsLease, Bool.and_eq_true, beq_iff_eq] at hholds
      exact hholds.1.1.1.1.2
    -- the attempt of a live lease is open
    exact absurd ((hitem.active_iff _ a ha').mpr
      ⟨hactive, hepoch.symm.trans hitem.epoch_eq⟩) hended

end WorkLedger

/-- A lease of item 1 with an epoch that was never handed out. -/
def sampleForgedLease : WorkLease := { sampleLease with leaseEpoch := 2, leaseEpoch_pos := Nat.two_pos }

/-- After a heartbeat with a lagging clock the row of item 1 cannot be read, and
a call under a forged lease raises `ValueError`. -/
theorem work_ledger_fencing_fails :
    ¬ ∀ s, Reachable s → ∀ (call : FencedCall) (lease : WorkLease) (now : Int) (r : WorkRow),
      call.ArgumentsOk → s.item? lease.workItemId = some r → r.StaleLease lease now →
      ∃ message, (call.op lease now).run s = .error (.fence message) := by
  intro h
  have hrun : (SchedulerOp.start sampleForgedLease 7).run
      (replay SchedulerOp.run (sampleClaim ++ [.heartbeat sampleLease 1 5]) WorkLedger.empty) =
      .error (.value "updated_at cannot precede created_at") := by decide +kernel
  have hepoch : ((replay SchedulerOp.run (sampleClaim ++ [.heartbeat sampleLease 1 5])
      WorkLedger.empty).item? 1).map (·.leaseEpoch) = some 1 := by decide +kernel
  obtain ⟨r, hr, hone⟩ := Option.map_eq_some_iff.mp hepoch
  have hstale : r.StaleLease sampleForgedLease 7 := by
    left
    rw [hone]
    decide
  obtain ⟨message, hfence⟩ := h _ (reach_replay _ .start) .start sampleForgedLease 7 r trivial hr
    hstale
  have hsame := hrun.symm.trans hfence
  cases hsame

/-- Before the heartbeat the same call is fenced off. -/
theorem work_ledger_fencing_of_forged_lease :
    FencedCall.raised
      ((FencedCall.start.op sampleForgedLease 20).run
        (replay SchedulerOp.run sampleClaim WorkLedger.empty))
      ((replay SchedulerOp.run sampleClaim WorkLedger.empty).reconcileExactDueState 1 20) =
      some staleLeaseError := by
  have hadmitted : Admitted SchedulerOp.run ClockOk sampleClaim WorkLedger.empty :=
    ⟨trivial, WorkLedger.sweepOk_of_createdBy (by decide +kernel), trivial⟩
  have hepoch : ((replay SchedulerOp.run sampleClaim WorkLedger.empty).item? 1).map
      (·.leaseEpoch) = some 1 := by decide +kernel
  obtain ⟨r, hr, hone⟩ := Option.map_eq_some_iff.mp hepoch
  have hstale : r.StaleLease sampleForgedLease 20 := by
    left
    rw [hone]
    decide
  exact (WorkLedger.work_ledger_fencing (reach_replay _ .start)).2.2
    (reach_of_admitted _ hadmitted .start) _ .start .start sampleForgedLease 20 r trivial hr hstale
    (WorkLedger.sweepOk_of_createdBy (by decide +kernel))

/-- A worker claims item 1 and fails, with one more attempt left. -/
def sampleFailure : List SchedulerOp :=
  [.plan { sampleUpstream 10 none with maxAttempts := 2, maxAttempts_pos := Nat.two_pos } [],
    .claim "worker" 1 (some 1) 10 true sampleToken, .fail sampleLease "busy" true none 0 20]

/-- Once another worker has the item, the first one is refused. -/
theorem ended_lease_refused_after_failure : ∃ e, (SchedulerOp.heartbeat sampleLease 1 50).run
    (replay SchedulerOp.run [.reconcile 30, .claim "other" 1 (some 1) 40 true ⟨"other", by decide⟩]
      (replay SchedulerOp.run sampleFailure WorkLedger.empty)) = .error e := by
  have hended : ((replay SchedulerOp.run sampleFailure WorkLedger.empty).attemptsOf 1 1).map
      (·.outcome) = some .failedRetryable := by decide +kernel
  obtain ⟨a, ha, houtcome⟩ := Option.map_eq_some_iff.mp hended
  exact (WorkLedger.ended_lease_refused (reach_replay _ .start) (reach_replay _ .start)).2
    sampleLease a ha (by rw [houtcome]; decide) (.heartbeat 1) 50

end Robata.Queue
