import Robata.Queue.Maintenance

/-!
# Calls under a live lease

`start`, `heartbeat` and `succeed` complete for the holder of a lease that has not run out, on every
ledger whose rows can be read.
-/

namespace Robata.Queue

open Lib Relation

namespace WorkLedger

variable {now : Int} {s s' : WorkLedger} {r : WorkRow} {lease : WorkLease}

variable (h : InOrder now anyItem s)
include h

theorem InOrder.loads {i : OpaqueUuid} (hr : s.item? i = some r) :
    ∃ item, s.loadItem i = .ok item ∧ item.row = r :=
  loadItem_completes hr (h.inv.items i r hr).shape (h.ordered i r trivial hr)

theorem InOrder.requireLease_completes
    (hr : s.item? lease.workItemId = some r) (hholds : r.holdsLease lease now = true) :
    ∃ item, s.requireLease lease now = .ok item ∧ item.row = r := by
  obtain ⟨item, hload, hrow⟩ := h.loads hr
  refine ⟨item, ?_, hrow⟩
  unfold requireLease
  rw [hload, ok_bind, hrow, if_pos hholds]

theorem InOrder.start_completes (hr : s.item? lease.workItemId = some r)
    (hholds : r.holdsLease lease now = true) (hleased : r.state = .leased) :
    ∃ item s', s.start lease now = .ok (item, s') ∧
      ItemChange s s' lease.workItemId r (r.withRunning now) := by
  obtain ⟨held, hheld, hrow⟩ := h.requireLease_completes hr hholds
  have hid := workItemId_of_item? hr
  have hactive := isActive_of_holdsLease hholds
  have hguard : (r.state == .leased && r.leaseEpoch == lease.leaseEpoch &&
      r.fencingToken == some lease.fencingToken) = true := by
    simp only [WorkRow.holdsLease, Bool.and_eq_true] at hholds
    simp [hleased, hholds.1.1.1.1.2, hholds.1.1.1.2]
  obtain ⟨s₁, hupdate⟩ := updateOne_completes (fun r => r.state == .leased &&
      r.leaseEpoch == lease.leaseEpoch && r.fencingToken == some lease.fencingToken)
    (·.withRunning now) (fun _ => rfl) (.fence "work lease changed while starting")
    hr hguard
  obtain ⟨r', hchange, -, hattempts⟩ := updateOne_spec hupdate
  have hsame : r' = r := Option.some.inj (hchange.before.symm.trans hr)
  subst hsame
  -- the attempt of the lease is still open
  have hitem := h.inv.items _ r' hr
  have hpos := (hitem.shape.lease_positive hactive).2
  obtain ⟨a, ha⟩ := Option.isSome_iff_exists.mp ((hitem.numbered r'.attempt).mpr ⟨hpos, le_refl _⟩)
  have hopen := (hitem.active_iff _ a ha).mpr ⟨hactive, rfl⟩
  have hfind : s₁.attempts.find? (r'.workItemId, r'.attempt) = some a := by
    rw [hattempts, hid]
    exact ha
  have hcount : s₁.attempts.rowcount (fun a : WorkAttempt =>
      (a.workItemId, a.attemptNumber) == (r'.workItemId, r'.attempt) && a.outcome == .active) = 1 := by
    apply (s₁.attempts.rowcount_eq_one_iff _).mpr
    · refine ⟨a, hfind, ?_⟩
      have hkey := KeyedTable.key_of_find? hfind
      simp only [hkey, hopen, beq_self_eq_true, Bool.and_self]
    · intro b hb
      simp only [Bool.and_eq_true, beq_iff_eq] at hb
      exact hb.1
  obtain ⟨s₂, hstart⟩ : ∃ s₂, s₁.startAttempt r' now = .ok s₂ := by
    unfold startAttempt
    simp only [hcount]
    exact ⟨_, rfl⟩
  have hitems : s₂.items = s₁.items ∧ s₂.deps = s₁.deps := by
    unfold startAttempt at hstart
    simp only [hcount, if_true, Except.ok.injEq] at hstart
    subst hstart
    exact ⟨rfl, rfl⟩
  have hafter : s₂.item? lease.workItemId = some (r'.withRunning now) := by
    unfold item?
    rw [hitems.1]
    exact hchange.after_self
  have hstep : RowStep now True True True r' (r'.withRunning now) := .start trivial hleased
  have hshape := hstep.shape hitem.shape
  have hordered : (r'.withRunning now).ClockOrdered := by
    have hcreated := h.created _ r' hr
    exact hcreated.trans_eq (parseTimestamp_formatTimestamp now).symm
  obtain ⟨started, hload, -⟩ := loadItem_completes hafter hshape hordered
  refine ⟨started, s₂, ?_, hchange.before, ?_, hitems.2.trans hchange.deps_eq⟩
  · unfold start
    rw [hheld, ok_bind, hrow, if_neg (by rw [hleased]; decide), if_neg (by rw [hleased]; decide)]
    rw [hid, hupdate, ok_bind, hstart, ok_bind, hload]
    rfl
  · intro j
    unfold item?
    rw [hitems.1]
    exact hchange.after j

theorem InOrder.heartbeat_completes (hr : s.item? lease.workItemId = some r)
    (hholds : r.holdsLease lease now = true) {duration : Nat} (hpos : 0 < duration)
    {leaseExpiresAt : Int} (hexpires : addSeconds now duration = .ok leaseExpiresAt) :
    ∃ s', s.heartbeat lease duration now =
        .ok ({ lease with leaseExpiresAt := formatTimestamp leaseExpiresAt }, s') ∧
      ItemChange s s' lease.workItemId r (r.withRenewal leaseExpiresAt now) := by
  obtain ⟨held, hheld, hrow⟩ := h.requireLease_completes hr hholds
  have hid := workItemId_of_item? hr
  have hguard : (r.leaseEpoch == lease.leaseEpoch && r.fencingToken == some lease.fencingToken &&
      r.state.isActive) = true := by
    simp only [WorkRow.holdsLease, Bool.and_eq_true] at hholds
    simp [hholds.1.1.1.1.1, hholds.1.1.1.1.2, hholds.1.1.1.2]
  obtain ⟨s₁, hupdate⟩ := updateOne_completes (fun r => r.leaseEpoch == lease.leaseEpoch &&
      r.fencingToken == some lease.fencingToken && r.state.isActive)
    (·.withRenewal leaseExpiresAt now) (fun _ => rfl)
    (.fence "work lease changed while renewing") hr hguard
  obtain ⟨r', hchange, -, -⟩ := updateOne_spec hupdate
  have hsame : r' = r := Option.some.inj (hchange.before.symm.trans hr)
  subst hsame
  have hseconds : positiveInt (duration : Int) "lease_duration_seconds" = .ok duration := by
    unfold positiveInt
    rw [if_pos (by omega)]
    simp
  refine ⟨s₁, ?_, hchange⟩
  unfold heartbeat
  rw [hseconds, ok_bind, hheld, ok_bind, hexpires, ok_bind, hrow, hid, hupdate, ok_bind]

theorem InOrder.succeed_completes (hr : s.item? lease.workItemId = some r)
    (hholds : r.holdsLease lease now = true) (hrunning : r.state = .running)
    {resultReference : String} {resultSha256 : Sha256Digest} {reference : NonEmptyString}
    (hresult : checkResult (some resultReference) (some resultSha256) = .ok (some reference))
    (hmaintain : ∀ s₁, EndsItem now (only lease.workItemId) s s₁ lease.workItemId r
        (r.withTerminal (successFacts (some reference) (some resultSha256)) now) →
      s₁.maintain now false = .ok (0, s₁)) :
    ∃ item s', s.succeed lease (some resultReference) (some resultSha256) now = .ok (item, s') ∧
      s'.item? lease.workItemId =
        some (r.withTerminal (successFacts (some reference) (some resultSha256)) now) := by
  obtain ⟨held, hheld, hrow⟩ := h.requireLease_completes hr hholds
  have hid := workItemId_of_item? hr
  have hactive := isActive_of_holdsLease hholds
  have hopen := WorkItemState.not_isTerminal_of_isActive hactive
  obtain ⟨s₁, hclose⟩ := finishAttempt_completes_of_inv now h.inv (hid ▸ hr) hactive .succeeded
    none none
  have hitem := (item?_of_finishAttempt hclose r.workItemId).trans (hid ▸ hr)
  obtain ⟨s₂, hset⟩ := setTerminal_completes (successFacts (some reference) (some resultSha256)) now
    hitem (completedAt_of_open (h.inv.items _ r hr).shape hopen)
  have hclose' := hclose
  rw [← closeAttempt_of_active hactive] at hclose'
  obtain ⟨hchange, hstep, -⟩ := end_ledgerStep (only lease.workItemId) (hid ▸ hr) rfl rfl hclose' hset
    (by decide) rfl fun _ => RowStep.succeed hid hrunning rfl
  rw [hid] at hchange
  have hin : InOrder now anyItem s₂ := h.step hstep
  obtain ⟨refreshed, hrefresh⟩ := inOrder_sweepSafe.refreshDownstream_completes hin
    (i := lease.workItemId) trivial
  have hends : EndsItem now (only lease.workItemId) s refreshed.2 lease.workItemId r
      (r.withTerminal (successFacts (some reference) (some resultSha256)) now) :=
    ⟨s₂, refreshed.1, hchange, hstep, hrefresh⟩
  have hended := hends.row_self (fun hplanned => by cases hplanned)
  have hrefreshed : InOrder now anyItem refreshed.2 :=
    inOrder_sweepSafe.steps hin (refreshPlannedForWorkIds_cascade hrefresh).steps
  obtain ⟨item, hload, -⟩ := hrefreshed.loads hended
  refine ⟨item, refreshed.2, ?_, hended⟩
  unfold succeed
  rw [hresult, ok_bind, hheld, ok_bind, hrow, if_neg (by simp [hrunning]), hclose, ok_bind, hset,
    ok_bind, hid]
  unfold settle
  rw [hrefresh, ok_bind, hmaintain _ hends, ok_bind, hload]
  rfl

end WorkLedger
end Robata.Queue
