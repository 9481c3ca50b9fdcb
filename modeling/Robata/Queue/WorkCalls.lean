import Robata.Queue.WorkSweeps

/-!
# What each call does

One inversion lemma for every public operation of the scheduler.  It names the
guard the call has passed, the step it makes on the item it is called for, and
the maintenance that runs around that step.
-/

namespace Robata.Queue

open Lib Relation

variable {fieldName : String} {n : Nat}

theorem positiveInt_pos {value : Int} (h : positiveInt value fieldName = .ok n) : 0 < n := by
  unfold positiveInt at h
  split at h
  · cases h
    omega
  · cases h

theorem toNat_of_positiveInt {value : Int} (h : positiveInt value fieldName = .ok n) :
    n = value.toNat := by
  unfold positiveInt at h
  split at h
  · cases h
    rfl
  · cases h

theorem val_of_nonempty {value : String} {text : NonEmptyString}
    (h : nonempty value fieldName = .ok text) : text.val = value := by
  unfold nonempty at h
  split at h
  · cases h
    rfl
  · cases h

theorem lt_of_addSeconds {now later : Int} {seconds : Nat} (hpos : 0 < seconds)
    (h : addSeconds now seconds = .ok later) : now < later := by
  unfold addSeconds at h
  split at h
  · cases h
    omega
  · cases h

namespace WorkLedger

variable {now : Int} {s s' : WorkLedger}

/-- The item an operation is called for. -/
def only (i : OpaqueUuid) : OpaqueUuid → Prop := fun j => j = i

variable {item : WorkItem} {i : OpaqueUuid}

theorem clockOrdered_of_loadItem (h : s.loadItem i = .ok item) :
    s.item? i = some item.row ∧ item.row.ClockOrdered :=
  ⟨loadItem_eq_ok_iff.mp h, (item.row.validateStateShape_eq_ok_iff.mp item.valid).2⟩

variable {lease : WorkLease}

theorem requireLease_spec (h : s.requireLease lease now = .ok item) :
    s.item? lease.workItemId = some item.row ∧ item.row.ClockOrdered ∧
      item.row.holdsLease lease now = true := by
  obtain ⟨item', hload, h⟩ := bind_eq_ok.mp h
  split at h
  · rename_i hholds
    cases h
    obtain ⟨hitem, hclock⟩ := clockOrdered_of_loadItem hload
    exact ⟨hitem, hclock, hholds⟩
  · cases h

variable {r : WorkRow}

theorem isActive_of_holdsLease (h : r.holdsLease lease now = true) : r.state.isActive = true := by
  simp only [WorkRow.holdsLease, Bool.and_eq_true] at h
  exact h.1.1.1.1.1

theorem start_spec (h : s.start lease now = .ok (item, s')) :
    ∃ r, s.item? lease.workItemId = some r ∧ r.holdsLease lease now = true ∧
      (s' = s ∨ (r.state = .leased ∧ ItemChange s s' lease.workItemId r (r.withRunning now) ∧
        LedgerStep now (only lease.workItemId) s s' ∧ (r.withRunning now).ClockOrdered)) := by
  obtain ⟨held, hlease, h⟩ := bind_eq_ok.mp h
  obtain ⟨hitem, _, hholds⟩ := requireLease_spec hlease
  have hid := workItemId_of_item? hitem
  refine ⟨held.row, hitem, hholds, ?_⟩
  split at h
  · cases h
    exact .inl rfl
  split at h
  · cases h
  rename_i hleased
  rw [not_not] at hleased
  right
  obtain ⟨s₁, hupdate, h⟩ := bind_eq_ok.mp h
  obtain ⟨s₂, hattempt, h⟩ := bind_eq_ok.mp h
  obtain ⟨started, hload, h⟩ := bind_eq_ok.mp h
  cases h
  rw [hid] at hupdate hload
  obtain ⟨r, hchange, _, hattempts⟩ := updateOne_spec hupdate
  have hrow : r = held.row := Option.some.inj (hchange.before.symm.trans hitem)
  subst hrow
  unfold startAttempt at hattempt
  simp only at hattempt
  split at hattempt
  · rename_i hcount
    cases hattempt
    have hsel : ∀ a : WorkAttempt,
        ((a.workItemId, a.attemptNumber) == (held.row.workItemId, held.row.attempt) &&
          a.outcome == .active) = true →
        (a.workItemId, a.attemptNumber) = (held.row.workItemId, held.row.attempt) := by
      intro a ha
      simp only [Bool.and_eq_true, beq_iff_eq] at ha
      exact ha.1
    obtain ⟨a, hfind, ha⟩ := (s₁.attempts.rowcount_eq_one_iff hsel).mp hcount
    have hafter := s₁.attempts.find?_updateWhere_of_key (·.withStarted now)
      (fun _ => rfl) hsel hfind ha
    refine ⟨hleased, ⟨hchange.before, hchange.after, hchange.deps_eq⟩, ?_, ?_⟩
    · have hlast : a.SameLease (a.withStarted now) := ⟨rfl, rfl, rfl⟩
      rw [hattempts, hid] at hfind
      refine ItemChange.ledgerStep_written ⟨hchange.before, hchange.after, hchange.deps_eq⟩
        (.start rfl hleased) ?_ (.touched (isActive_of_holdsLease hholds) rfl hfind hlast rfl)
      rw [← hattempts, ← hid]
      exact hafter
    · obtain ⟨hloaded, hclock⟩ := clockOrdered_of_loadItem hload
      have hnow := hchange.after lease.workItemId
      rw [if_pos rfl] at hnow
      have hsame := Option.some.inj (hnow.symm.trans hloaded)
      rw [hsame]
      exact hclock
  · cases hattempt

theorem heartbeat_spec {renewed : WorkLease} {duration : Int}
    (h : s.heartbeat lease duration now = .ok (renewed, s')) :
    ∃ r leaseExpiresAt, s.item? lease.workItemId = some r ∧ r.holdsLease lease now = true ∧
      (now < leaseExpiresAt ∧ addSeconds now duration.toNat = .ok leaseExpiresAt) ∧
      ItemChange s s' lease.workItemId r (r.withRenewal leaseExpiresAt now) ∧
      LedgerStep now (only lease.workItemId) s s' := by
  obtain ⟨seconds, hseconds, h⟩ := bind_eq_ok.mp h
  obtain ⟨held, hlease, h⟩ := bind_eq_ok.mp h
  obtain ⟨expiresAt, hexpires, h⟩ := bind_eq_ok.mp h
  obtain ⟨s₁, hupdate, h⟩ := bind_eq_ok.mp h
  cases h
  obtain ⟨hitem, _, hholds⟩ := requireLease_spec hlease
  have hid := workItemId_of_item? hitem
  have hlater := lt_of_addSeconds (positiveInt_pos hseconds) hexpires
  rw [toNat_of_positiveInt hseconds] at hexpires
  rw [hid] at hupdate
  obtain ⟨r, hchange, _, hattempts⟩ := updateOne_spec hupdate
  have hrow : r = held.row := Option.some.inj (hchange.before.symm.trans hitem)
  subst hrow
  refine ⟨held.row, expiresAt, hitem, hholds, ⟨hlater, hexpires⟩, hchange, ?_⟩
  exact hchange.ledgerStep_kept (.renew rfl (isActive_of_holdsLease hholds) hlater) rfl hattempts

/-! ## Calls that end their item -/

variable (now s s' i) in
/-- The item ends, its downstream is refreshed, maintenance runs and the item
is read back. -/
def Settlement (r r' : WorkRow) : Prop :=
  ∃ s₁ n q, EndsItem now (only i) s s₁ i r r' ∧ s₁.maintain now false = .ok (n, s') ∧
    s'.item? i = some q ∧ q.ClockOrdered

theorem settle_spec {r' : WorkRow} {s₁ : WorkLedger} (hchange : ItemChange s s₁ i r r')
    (hstep : LedgerStep now (only i) s s₁) (h : s₁.settle i now = .ok (item, s')) :
    Settlement now s s' i r r' := by
  obtain ⟨refreshed, hrefresh, h⟩ := bind_eq_ok.mp h
  obtain ⟨maintained, hmaintain, h⟩ := bind_eq_ok.mp h
  obtain ⟨loaded, hload, h⟩ := bind_eq_ok.mp h
  cases h
  obtain ⟨hitem, hclock⟩ := clockOrdered_of_loadItem hload
  exact ⟨refreshed.2, maintained.1, item.row, ⟨s₁, refreshed.1, hchange, hstep, hrefresh⟩,
    hmaintain, hitem, hclock⟩

theorem Settlement.steps {r' : WorkRow} (h : Settlement now s s' i r r') (hs : s.Settled) :
    Steps now (only i) s s' ∧ s'.Settled := by
  obtain ⟨s₁, n, q, hends, hmaintain, _, _⟩ := h
  obtain ⟨hsteps, hsettled⟩ := maintain_steps (hends.settled hs) hmaintain
  exact ⟨hends.steps.trans (Steps.of_nobody hsteps), hsettled⟩

theorem checkResult_paired {resultReference : Option String} {resultSha256 : Option Sha256Digest}
    {reference : Option NonEmptyString}
    (h : checkResult resultReference resultSha256 = .ok reference) :
    reference.isSome = resultSha256.isSome := by
  obtain ⟨hpaired, h⟩ := reject_bind_eq_ok_iff.mp h
  have hsome : reference.isSome = resultReference.isSome := by
    cases resultReference with
    | none =>
      cases h
      rfl
    | some text =>
      unfold nonemptyOption at h
      cases hchecked : nonempty text "result_reference" with
      | error e =>
        simp only [hchecked] at h
        cases h
      | ok value =>
        simp only [hchecked] at h
        cases h
        rfl
  cases resultReference <;> cases resultSha256 <;> simp_all

theorem closeAttempt_of_active {item : WorkRow} {outcome : WorkAttemptOutcome}
    {code detail : Option NonEmptyString} (hactive : item.state.isActive = true) :
    s.closeAttempt item outcome code detail now = s.finishAttempt item outcome code detail now := by
  rw [closeAttempt, if_pos hactive]

theorem succeed_spec {resultReference : Option String} {resultSha256 : Option Sha256Digest}
    (h : s.succeed lease resultReference resultSha256 now = .ok (item, s')) :
    ∃ r reference, s.item? lease.workItemId = some r ∧ r.holdsLease lease now = true ∧
      r.state = .running ∧ checkResult resultReference resultSha256 = .ok reference ∧
      Settlement now s s' lease.workItemId r
        (r.withTerminal (successFacts reference resultSha256) now) := by
  obtain ⟨reference, hresult, h⟩ := bind_eq_ok.mp h
  obtain ⟨held, hlease, h⟩ := bind_eq_ok.mp h
  obtain ⟨hitem, _, hholds⟩ := requireLease_spec hlease
  have hid := workItemId_of_item? hitem
  have hactive := isActive_of_holdsLease hholds
  split at h
  · cases h
  rename_i hrunning
  rw [not_not] at hrunning
  obtain ⟨s₁, hclose, h⟩ := bind_eq_ok.mp h
  obtain ⟨s₂, hset, h⟩ := bind_eq_ok.mp h
  rw [← closeAttempt_of_active hactive] at hclose
  rw [hid] at h
  obtain ⟨hchange, hstep, _⟩ := end_ledgerStep (only lease.workItemId) (hid ▸ hitem) rfl rfl
    hclose hset (by decide) rfl
    fun _ => RowStep.succeed hid hrunning (checkResult_paired hresult)
  rw [hid] at hchange
  exact ⟨held.row, reference, hitem, hholds, hrunning, hresult, settle_spec hchange hstep h⟩

/-- Whether `fail` gives the item another attempt. -/
def willRetry (r : WorkRow) (retryable : Bool) (retryAt : Int) : Bool :=
  retryable && decide (r.attempt < r.maxAttempts) &&
    r.executionExpiryAt.all fun e => decide (retryAt < parseTimestamp e)

theorem fail_spec {errorCode : String} {retryable : Bool} {errorDetail : Option String}
    {delay : Int} (h : s.fail lease errorCode retryable errorDetail delay now = .ok (item, s')) :
    ∃ r code detail seconds retryAt, s.item? lease.workItemId = some r ∧
      r.holdsLease lease now = true ∧
      nonnegativeInt delay "retry_delay_seconds" = .ok seconds ∧
      addSeconds now seconds = .ok retryAt ∧
      ((willRetry r retryable retryAt = true ∧
          ItemChange s s' lease.workItemId r (r.withRetryWait retryAt now) ∧
          LedgerStep now (only lease.workItemId) s s' ∧
          (r.withRetryWait retryAt now).ClockOrdered) ∨
        (willRetry r retryable retryAt = false ∧
          Settlement now s s' lease.workItemId r
            (r.withTerminal (.ofReason .failedPermanent code detail) now))) := by
  obtain ⟨code, _, h⟩ := bind_eq_ok.mp h
  obtain ⟨detail, _, h⟩ := bind_eq_ok.mp h
  obtain ⟨seconds, hseconds, h⟩ := bind_eq_ok.mp h
  obtain ⟨held, hlease, h⟩ := bind_eq_ok.mp h
  obtain ⟨retryAt, hretryAt, h⟩ := bind_eq_ok.mp h
  obtain ⟨hitem, _, hholds⟩ := requireLease_spec hlease
  have hid := workItemId_of_item? hitem
  have hactive := isActive_of_holdsLease hholds
  refine ⟨held.row, code, detail, seconds, retryAt, hitem, hholds, hseconds, hretryAt, ?_⟩
  simp only at h
  split at h
  · rename_i hretry
    left
    obtain ⟨s₁, hclose, h⟩ := bind_eq_ok.mp h
    obtain ⟨s₂, hupdate, h⟩ := bind_eq_ok.mp h
    obtain ⟨waiting, hload, h⟩ := bind_eq_ok.mp h
    cases h
    obtain ⟨r, hchange, _, hattempts⟩ := updateOne_spec hupdate
    have hrow : r = held.row := by
      have hbefore := hchange.before
      rw [item?_of_finishAttempt hclose, hid] at hbefore
      exact Option.some.inj (hbefore.symm.trans hitem)
    subst hrow
    have hleft : held.row.attempt < held.row.maxAttempts := by
      simp only [Bool.and_eq_true, decide_eq_true_eq] at hretry
      exact hretry.1.2
    obtain ⟨hchange', hstep⟩ := release_ledgerStep (only lease.workItemId) hclose hchange hattempts
      hactive rfl (by decide) (RowStep.wait hid hactive hleft (le_of_addSeconds hretryAt))
    obtain ⟨hloaded, hclock⟩ := clockOrdered_of_loadItem hload
    rw [hchange'.after, if_pos rfl] at hloaded
    rw [← Option.some.inj hloaded] at hclock
    rw [hid] at hchange'
    exact ⟨hretry, hchange', hstep, hclock⟩
  · rename_i hretry
    right
    rw [Bool.not_eq_true] at hretry
    obtain ⟨s₁, hclose, h⟩ := bind_eq_ok.mp h
    obtain ⟨s₂, hset, h⟩ := bind_eq_ok.mp h
    rw [← closeAttempt_of_active hactive] at hclose
    rw [hid] at h
    obtain ⟨hchange, hstep, _⟩ := end_ledgerStep (only lease.workItemId) (hid ▸ hitem) rfl rfl
      hclose hset (by decide) rfl fun _ => RowStep.fail hid hactive code detail
    rw [hid] at hchange
    exact ⟨hretry, settle_spec hchange hstep h⟩

/-- What `cancel`, `skip` and `invalidate` do: bring the item up to date, then
leave it as it is or end it. -/
theorem directTerminal_spec {state : WorkItemState} {outcome : WorkAttemptOutcome}
    {reasonCode : String} {reasonDetail : Option String} {flag : Bool}
    (hstate : state.isDirect = true) (houtcome : outcome ≠ .active)
    (h : s.directTerminal i state outcome reasonCode reasonDetail flag now = .ok (item, s')) :
    ∃ n₁ s₁ n₂ s₂, s.expireHardDeadlines now (some i) = .ok (n₁, s₁) ∧
      s₁.recoverExpiredLeases now (some i) = .ok (n₂, s₂) ∧
      ∃ r, s₂.item? i = some r ∧ (s' = s₂ ∨ ∃ code detail, r.state.isTerminal = false ∧
        Settlement now s₂ s' i r (r.withTerminal
          { TerminalFacts.ofReason state code detail with cancelRequested := flag } now)) := by
  obtain ⟨code, _, h⟩ := bind_eq_ok.mp h
  obtain ⟨detail, _, h⟩ := bind_eq_ok.mp h
  obtain ⟨expired, hexpire, h⟩ := bind_eq_ok.mp h
  obtain ⟨recovered, hrecover, h⟩ := bind_eq_ok.mp h
  obtain ⟨held, hload, h⟩ := bind_eq_ok.mp h
  have hitem := loadItem_eq_ok_iff.mp hload
  have hid := workItemId_of_item? hitem
  refine ⟨expired.1, expired.2, recovered.1, recovered.2, hexpire, hrecover, held.row, hitem, ?_⟩
  split at h
  · cases h
    exact .inl rfl
  split at h
  · cases h
  rename_i hopen
  rw [Bool.not_eq_true] at hopen
  right
  obtain ⟨s₁, hclose, h⟩ := bind_eq_ok.mp h
  obtain ⟨s₂, hset, h⟩ := bind_eq_ok.mp h
  rw [← hid] at hset
  have hinactive : state.isActive = false := by
    cases state <;> first | rfl | cases hstate
  obtain ⟨hchange, hstep, _⟩ := end_ledgerStep (only i) (hid ▸ hitem) rfl rfl hclose hset
    houtcome hinactive fun _ => RowStep.direct hid hopen hstate code detail flag
  rw [hid] at hchange
  exact ⟨code, detail, hopen, settle_spec hchange hstep h⟩

/-! ## Claims and exact reconciliation -/

theorem claimable_spec {target : Option OpaqueUuid} {row : WorkRow}
    (h : s.claimable target = some row) :
    s.item? row.workItemId = some row ∧ row.state = .ready := by
  cases target with
  | none =>
    have hmem := List.mem_of_mem_head? h
    rw [List.mem_insertionSort, List.mem_filter, beq_iff_eq] at hmem
    exact ⟨mem_items_iff.mp hmem.1, hmem.2⟩
  | some i =>
    obtain ⟨hrow, hready⟩ := Option.filter_eq_some_iff.mp h
    rw [beq_iff_eq] at hready
    rw [workItemId_of_item? hrow]
    exact ⟨hrow, hready⟩

theorem claimRow_spec {row : WorkRow} {fencingToken workerId : NonEmptyString}
    {leaseExpiresAt : Int} {startImmediately : Bool} {claimed : WorkLeaseClaim}
    (h : s.claimRow row fencingToken workerId leaseExpiresAt now startImmediately =
      .ok (claimed, s'))
    (hrow : s.item? row.workItemId = some row) (hready : row.state = .ready)
    (hlater : now < leaseExpiresAt) :
    ∃ next, next.isActive = true ∧ next = (if startImmediately then .running else .leased) ∧
      ItemChange s s' row.workItemId row
        (row.withClaim next fencingToken workerId leaseExpiresAt now) ∧
      LedgerStep now (only row.workItemId) s s' ∧
      (row.withClaim next fencingToken workerId leaseExpiresAt now).ClockOrdered := by
  obtain ⟨s₁, hupdate, h⟩ := bind_eq_ok.mp h
  obtain ⟨s₂, hinsert, h⟩ := bind_eq_ok.mp h
  obtain ⟨item, hload, h⟩ := bind_eq_ok.mp h
  obtain ⟨_, _, h⟩ := bind_eq_ok.mp h
  cases h
  obtain ⟨r, hchange, _, hattempts⟩ := updateOne_spec hupdate
  have hsame : r = row := Option.some.inj (hchange.before.symm.trans hrow)
  subst hsame
  have hnext : (if startImmediately then WorkItemState.running else .leased).isActive = true := by
    cases startImmediately <;> rfl
  unfold insertAttempt at hinsert
  split at hinsert
  · cases hinsert
  split at hinsert
  · cases hinsert
  rename_i attempts hattempt
  cases hinsert
  have hfind := KeyedTable.find?_of_insert? hattempt
  have hchange' : ItemChange s { s₁ with attempts := attempts } r.workItemId r
      (r.withClaim (if startImmediately then .running else .leased) fencingToken workerId
        leaseExpiresAt now) := ⟨hchange.before, hchange.after, hchange.deps_eq⟩
  let opened := openAttempt r fencingToken workerId now startImmediately
  have hopened : ∀ k, attempts.find? k =
      if k = (r.workItemId, r.attempt + 1) then some opened else s.attempts.find? k := by
    rw [← hattempts]
    exact hfind
  refine ⟨_, hnext, rfl, hchange', ?_, ?_⟩
  · have hinactive : r.state.isActive = false := by
      rw [hready]
      rfl
    have hepoch : opened.leaseEpoch = r.leaseEpoch + 1 := rfl
    exact hchange'.ledgerStep_written (.claim rfl hready hnext fencingToken workerId hlater)
      hopened fun hwritten => .opened hinactive hnext hepoch rfl rfl rfl hwritten
  · obtain ⟨hloaded, hclock⟩ := clockOrdered_of_loadItem hload
    rw [hchange'.after, if_pos rfl] at hloaded
    rw [← Option.some.inj hloaded] at hclock
    exact hclock

theorem claim_spec {workerId : String} {duration : Int} {target : Option OpaqueUuid}
    {startImmediately : Bool} {fencingToken : NonEmptyString} {out : Option WorkLeaseClaim}
    (h : s.claim workerId duration target now startImmediately fencingToken = .ok (out, s')) :
    ∃ n s₁, s.maintain now false = .ok (n, s₁) ∧ ((s' = s₁ ∧ out = none) ∨
      ∃ row next worker leaseExpiresAt, next.isActive = true ∧ row.state = .ready ∧
        ItemChange s₁ s' row.workItemId row
          (row.withClaim next fencingToken worker leaseExpiresAt now) ∧
        LedgerStep now (only row.workItemId) s₁ s' ∧
        (row.withClaim next fencingToken worker leaseExpiresAt now).ClockOrdered ∧
        next = (if startImmediately then .running else .leased) ∧ worker.val = workerId ∧
        now < leaseExpiresAt) := by
  obtain ⟨worker, hworker, h⟩ := bind_eq_ok.mp h
  obtain ⟨seconds, hseconds, h⟩ := bind_eq_ok.mp h
  obtain ⟨maintained, hmaintain, h⟩ := bind_eq_ok.mp h
  refine ⟨maintained.1, maintained.2, hmaintain, ?_⟩
  split at h
  · cases h
    exact .inl ⟨rfl, rfl⟩
  · rename_i row hclaimable
    right
    obtain ⟨expiresAt, hexpires, h⟩ := bind_eq_ok.mp h
    obtain ⟨claimed, hclaim, h⟩ := bind_eq_ok.mp h
    cases h
    obtain ⟨hrow, hready⟩ := claimable_spec hclaimable
    have hlater := lt_of_addSeconds (positiveInt_pos hseconds) hexpires
    obtain ⟨next, hnext, hstate, hchange, hstep, hclock⟩ :=
      claimRow_spec hclaim hrow hready hlater
    exact ⟨row, next, worker, expiresAt, hnext, hready, hchange, hstep, hclock, hstate,
      val_of_nonempty hworker, hlater⟩

/-- The second transaction of a fenced call: two sweeps over one item, and one
more refresh of its downstream. -/
theorem reconcileExactDueState_spec (h : s.reconcileExactDueState i now = .ok (n, s')) :
    ∃ n₁ s₁ n₂ s₂, s.expireHardDeadlines now (some i) = .ok (n₁, s₁) ∧
      s₁.recoverExpiredLeases now (some i) = .ok (n₂, s₂) ∧ Cascade now s₂ s' ∧
      (s₂.Settled → s' = s₂) := by
  obtain ⟨expired, hexpire, h⟩ := bind_eq_ok.mp h
  obtain ⟨recovered, hrecover, h⟩ := bind_eq_ok.mp h
  refine ⟨expired.1, expired.2, recovered.1, recovered.2, hexpire, hrecover, ?_⟩
  simp only at h
  split at h
  · cases h
    exact ⟨.refl, fun _ => rfl⟩
  · obtain ⟨item, hload, h⟩ := bind_eq_ok.mp h
    split at h
    · obtain ⟨out, hrefresh, h⟩ := bind_eq_ok.mp h
      cases h
      have hcascade := refreshPlannedForWorkIds_cascade hrefresh
      exact ⟨hcascade, hcascade.eq_of_settled⟩
    · cases h
      exact ⟨.refl, fun _ => rfl⟩

/-! ## Planning -/

/-- A plan is inserted: one `PLANNED` row and its upstream edges. -/
structure PlanInsert (plan : WorkItemPlan) (dependencies : List WorkDependency)
    (s s' : WorkLedger) : Prop where
  fresh : s.item? plan.workItemId = none
  freshKey : ∀ j r, s.item? j = some r → r.workLogicalKey ≠ plan.workLogicalKey
  item?_eq : ∀ j, s'.item? j = if j = plan.workItemId then some plan.toRow else s.item? j
  attempts_eq : s'.attempts = s.attempts
  deps_eq : s'.deps.rows = s.deps.rows ++ dependencies
  downstream : ∀ d ∈ dependencies, d.downstreamWorkItemId = plan.workItemId
  upstream : ∀ d ∈ dependencies, (s.item? d.upstreamWorkItemId).isSome = true

variable {plan : WorkItemPlan} {dependencies : List WorkDependency}

theorem validatePlanDependencies_downstream
    (h : validatePlanDependencies plan dependencies = .ok ()) :
    ∀ d ∈ dependencies, d.downstreamWorkItemId = plan.workItemId := by
  unfold validatePlanDependencies at h
  split at h
  · cases h
  · rename_i hany
    intro d hd
    by_contra hne
    apply hany
    rw [List.any_eq_true]
    exact ⟨d, hd, by simpa using hne⟩

theorem insertDependencies_spec (h : dependencies.foldlM insertDependency s = .ok s') :
    s'.items = s.items ∧ s'.attempts = s.attempts ∧ s'.deps.rows = s.deps.rows ++ dependencies := by
  induction dependencies generalizing s with
  | nil =>
    cases h
    simp
  | cons d rest ih =>
    rw [List.foldlM_cons, bind_eq_ok] at h
    obtain ⟨s₁, hfirst, hrest⟩ := h
    obtain ⟨hitems, hattempts, hdeps⟩ := ih hrest
    unfold insertDependency at hfirst
    split at hfirst
    · cases hfirst
    split at hfirst
    · cases hfirst
    rename_i deps hinsert
    cases hfirst
    refine ⟨hitems, hattempts, ?_⟩
    rw [hdeps, (KeyedTable.insert?_eq_some hinsert).2, List.append_assoc]
    rfl

theorem checkUpstreams_spec (h : dependencies.forM (s.checkUpstream plan) = .ok ()) :
    ∀ d ∈ dependencies, (s.item? d.upstreamWorkItemId).isSome = true := by
  intro d hd
  have hcheck := forM_eq_ok_iff.mp h d hd
  unfold checkUpstream at hcheck
  split at hcheck
  · cases hcheck
  · rename_i upstream hupstream
    rw [hupstream]
    rfl

theorem mem_planRows :
    r ∈ s.planRows plan ↔ s.item? r.workItemId = some r ∧
      (r.workItemId = plan.workItemId ∨ r.workLogicalKey = plan.workLogicalKey) := by
  simp [planRows, ← mem_items_iff]

theorem planInTransaction_spec {refresh : Bool}
    (hvalid : validatePlanDependencies plan dependencies = .ok ())
    (h : s.planInTransaction plan dependencies refresh = .ok (item, s')) :
    (s' = s ∧ s.item? plan.workItemId = some item.row ∧ planMatches item.row plan = true ∧
        s.dependencies plan.workItemId =
          dependencies.insertionSort (fun a b => a.dependencyId ≤ b.dependencyId)) ∨
      ∃ s₁, PlanInsert plan dependencies s s₁ ∧ s₁.deriveReadiness plan refresh = .ok s' ∧
        s'.item? plan.workItemId = some item.row := by
  unfold planInTransaction at h
  split at h
  · rename_i row hrows
    left
    obtain ⟨existing, hexisting, h⟩ := bind_eq_ok.mp h
    rw [itemFromRow_eq_ok_iff] at hexisting
    split at h
    · cases h
    · rename_i hmatch
      cases h
      push Not at hmatch
      obtain ⟨hid, _, hplan, hdeps⟩ := hmatch
      have hmem : item.row ∈ s.planRows plan := by
        rw [hrows, hexisting]
        exact List.mem_singleton_self row
      have hitem := (mem_planRows.mp hmem).1
      rw [hid] at hitem hdeps
      exact ⟨rfl, hitem, eq_true_of_ne_false hplan, hdeps⟩
  · cases h
  · rename_i hrows
    right
    obtain ⟨_, hupstream, h⟩ := bind_eq_ok.mp h
    obtain ⟨s₁, hinsert, h⟩ := bind_eq_ok.mp h
    obtain ⟨s₂, hdeps, h⟩ := bind_eq_ok.mp h
    obtain ⟨s₃, hready, h⟩ := bind_eq_ok.mp h
    obtain ⟨loaded, hload, h⟩ := bind_eq_ok.mp h
    cases h
    unfold insertItem at hinsert
    split at hinsert
    · cases hinsert
    split at hinsert
    · cases hinsert
    rename_i items hitems
    cases hinsert
    obtain ⟨hitems', hattempts, hrows'⟩ := insertDependencies_spec hdeps
    refine ⟨s₂, ⟨(KeyedTable.insert?_eq_some hitems).1, ?_, ?_, hattempts, hrows',
      validatePlanDependencies_downstream hvalid, checkUpstreams_spec hupstream⟩, hready,
      loadItem_eq_ok_iff.mp hload⟩
    · intro j r hr hkey
      have hmem : r ∈ s.planRows plan :=
        mem_planRows.mpr ⟨by rw [workItemId_of_item? hr]; exact hr, .inr hkey⟩
      rw [hrows] at hmem
      cases hmem
    · intro j
      unfold item?
      rw [hitems']
      exact KeyedTable.find?_of_insert? hitems j

end WorkLedger
end Robata.Queue
