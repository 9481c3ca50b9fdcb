import Robata.Queue.Readable

/-!
# When the sweeps complete

Completion rules for the loops of the scheduler, the counterparts of the loop
rules for their results.  On a sound ledger a sweep can only fail where it reads
a row back, or where it meets a row that its own cascade has already ended.
-/

namespace Robata.Queue

open Lib Relation List

namespace WorkLedger

variable {now : Int} {called : OpaqueUuid → Prop} {seed : OpaqueUuid → Bool → Prop}
  {s s' : WorkLedger}

/-- The row of item `k` can be read. -/
def Legible (s : WorkLedger) (k : OpaqueUuid) : Prop :=
  ∃ r, s.item? k = some r ∧ r.ClockOrdered

/-- Completion rule of the readiness loop: an assertion about the queue and the
ledger that makes its head legible and that every round keeps. -/
theorem refreshPending_completes (G : List OpaqueUuid → WorkLedger → Prop)
    (hread : ∀ k rest s, G (k :: rest) s → LedgerInv s ∧ s.Legible k)
    (hidle : ∀ k rest s, G (k :: rest) s → G rest s)
    (hrelease : ∀ k rest s s' state, G (k :: rest) s → Advance now s k (some state) s' → G rest s')
    (hfail : ∀ k rest s s' state, G (k :: rest) s → Advance now s k (some state) s' →
      state.isTerminal = true → G (enqueue rest (s'.downstreamIds k)) s')
    {pending : List OpaqueUuid} (changed : Nat) (h : G pending s) :
    ∃ out, refreshPending now changed pending s = .ok out := by
  fun_induction refreshPending now changed pending s with
  | case1 changed s => exact ⟨_, rfl⟩
  | case2 changed s k rest e herror =>
    obtain ⟨hinv, r, hr, hclock⟩ := hread k rest s h
    obtain ⟨out, hout⟩ := advancePlannedItem_completes now hr (hinv.items k r hr).shape hclock
    rw [hout] at herror
    cases herror
  | case3 changed s k rest s₁ hadvance ih =>
    have hspec := advancePlannedItem_spec hadvance
    cases hspec
    exact ih (hidle k rest _ h)
  | case4 changed s k rest state s₁ hadvance hterminal ih =>
    exact ih (hfail k rest s s₁ state h (advancePlannedItem_spec hadvance) hterminal)
  | case5 changed s k rest state s₁ hadvance _ ih =>
    exact ih (hrelease k rest s s₁ state h (advancePlannedItem_spec hadvance))

/-- Items of which a sweep reads the dependants when it reads one. -/
def ClosedUnder (items : OpaqueUuid → Prop) (s : WorkLedger) : Prop :=
  ∀ d ∈ s.deps.rows, items d.upstreamWorkItemId → items d.downstreamWorkItemId

/-- Every item. -/
def anyItem (_ : OpaqueUuid) : Prop := True

/-- An assertion that keeps the rows of the given items legible while a sweep runs. -/
structure SweepSafe (now : Int) (items : OpaqueUuid → Prop) (P : WorkLedger → Prop) : Prop where
  inv : ∀ s, P s → LedgerInv s
  closed : ∀ s, P s → s.ClosedUnder items
  ordered : ∀ s j r, P s → items j → s.item? j = some r → r.ClockOrdered
  step : ∀ s s', P s → LedgerStep now nobody s s' → P s'

theorem onTime_sweepSafe : SweepSafe now anyItem (OnTime now seed) :=
  ⟨fun _ h => h.inv, fun _ _ _ _ _ => trivial, fun _ j r h _ hr => (h.clocked j r hr).ordered,
    fun _ _ h hstep => h.sweep (.single hstep)⟩

namespace SweepSafe

variable {items : OpaqueUuid → Prop} {P : WorkLedger → Prop}

variable (hsafe : SweepSafe now items P)
include hsafe

theorem steps (h : P s) (hsteps : Steps now nobody s s') : P s' := by
  induction hsteps with
  | refl => exact h
  | tail _ hlast ih => exact hsafe.step _ _ ih hlast

theorem refresh_completes {ids : List OpaqueUuid} (h : P s)
    (hids : ∀ k ∈ ids, items k ∧ (s.item? k).isSome = true) :
    ∃ out, s.refreshPlannedForWorkIds now ids = .ok out := by
  have hsome : ∀ {s s' : WorkLedger} {k i : OpaqueUuid} {state : WorkItemState},
      Advance now s i (some state) s' → (s.item? k).isSome = true →
      (s'.item? k).isSome = true := by
    intro s s' k i state hadvance hk
    rw [hadvance.ledgerStep.item?_isSome]
    exact hk
  refine refreshPending_completes
    (fun pending s => P s ∧ ∀ k ∈ pending, items k ∧ (s.item? k).isSome = true)
    ?_ ?_ ?_ ?_ 0 ⟨h, ?_⟩
  · rintro k rest s ⟨hP, hrows⟩
    obtain ⟨hitem, hsome⟩ := hrows k mem_cons_self
    obtain ⟨r, hr⟩ := Option.isSome_iff_exists.mp hsome
    exact ⟨hsafe.inv s hP, r, hr, hsafe.ordered s k r hP hitem hr⟩
  · rintro k rest s ⟨hP, hrows⟩
    exact ⟨hP, fun j hj => hrows j (mem_cons_of_mem _ hj)⟩
  · rintro k rest s s' state ⟨hP, hrows⟩ hadvance
    refine ⟨hsafe.step _ _ hP hadvance.ledgerStep, ?_⟩
    intro j hj
    obtain ⟨hitem, hrow⟩ := hrows j (mem_cons_of_mem _ hj)
    exact ⟨hitem, hsome hadvance hrow⟩
  · rintro k rest s s' state ⟨hP, hrows⟩ hadvance _
    refine ⟨hsafe.step _ _ hP hadvance.ledgerStep, ?_⟩
    intro j hj
    rcases mem_enqueue.mp hj with hrest | hdown
    · obtain ⟨hitem, hrow⟩ := hrows j (mem_cons_of_mem _ hrest)
      exact ⟨hitem, hsome hadvance hrow⟩
    · obtain ⟨d, hd, hup, rfl⟩ := mem_downstreamIds.mp hdown
      rw [hadvance.deps_eq] at hd
      have hitem := (hrows k mem_cons_self).1
      rw [← hup] at hitem
      exact ⟨hsafe.closed s hP d hd hitem, hsome hadvance ((hsafe.inv s hP).deps_closed d hd).1⟩
  · intro k hk
    rw [mem_eraseDups] at hk
    exact hids k hk

theorem refreshDownstream_completes (h : P s) {i : OpaqueUuid} (hi : items i) :
    ∃ out, s.refreshDownstreamForUpstreams now [i] = .ok out := by
  refine hsafe.refresh_completes h ?_
  intro k hk
  simp only [flatMap_cons, flatMap_nil, append_nil] at hk
  obtain ⟨d, hd, rfl, rfl⟩ := mem_downstreamIds.mp hk
  exact ⟨hsafe.closed s h d hd hi, ((hsafe.inv s h).deps_closed d hd).1⟩

end SweepSafe

variable {r : WorkRow}

theorem finishAttempt_completes_of_inv (now : Int) (hinv : LedgerInv s)
    (hr : s.item? r.workItemId = some r) (hactive : r.state.isActive = true)
    (outcome : WorkAttemptOutcome) (code detail : Option NonEmptyString) :
    ∃ s', s.finishAttempt r outcome code detail now = .ok s' := by
  have hitem := hinv.items _ r hr
  have hpos := (hitem.shape.lease_positive hactive).2
  obtain ⟨a, ha⟩ := Option.isSome_iff_exists.mp ((hitem.numbered r.attempt).mpr ⟨hpos, le_refl _⟩)
  refine WorkLedger.finishAttempt_completes outcome code detail now ha
    ((hitem.active_iff r.attempt a ha).mpr ⟨hactive, rfl⟩) ?_ (hitem.lease hactive a ha).1
  rw [hitem.epochs r.attempt a ha, hitem.epoch_eq]

theorem closeAttempt_completes_of_inv (now : Int) (hinv : LedgerInv s) {item : WorkRow}
    (hr : s.item? r.workItemId = some r) (hrow : item.state.isActive = true → item = r)
    (outcome : WorkAttemptOutcome) (code detail : Option NonEmptyString) :
    ∃ s', s.closeAttempt item outcome code detail now = .ok s' := by
  unfold closeAttempt
  split
  · rename_i hactive
    have hsame := hrow hactive
    subst hsame
    exact finishAttempt_completes_of_inv now hinv hr hactive outcome code detail
  · exact ⟨s, rfl⟩

theorem completedAt_of_open (hshape : r.Shape) (hopen : r.state.isTerminal = false) :
    r.completedAt = none := by
  have hiff := hshape.completed_iff
  rw [hopen] at hiff
  simpa using hiff

/-- A round of the hard-expiry sweep completes on a legible row that is still
open, if the refresh it triggers does. -/
theorem expireRow_completes {n : Nat} {row : WorkRow} (hinv : LedgerInv s)
    (hdue : row.hardDue now = true) (hshape : row.Shape) (hclock : row.ClockOrdered)
    (hr : s.item? row.workItemId = some r) (hcascaded : Cascaded now row r)
    (hopen : r.state.isTerminal = false)
    (hrefresh : ∀ s₁, ItemChange s s₁ row.workItemId r
        (r.withTerminal (.ofReason .expired executionExpired none) now) →
      LedgerStep now nobody s s₁ →
      ∃ out, s₁.refreshDownstreamForUpstreams now [row.workItemId] = .ok out) :
    ∃ out, expireRow now (n, s) row = .ok out := by
  obtain ⟨item, hitem⟩ := itemFromRow_readable_iff.mpr ⟨hshape, hclock⟩
  have hrow := itemFromRow_eq_ok_iff.mp hitem
  have hlease : row.state.isActive = true → row = r := fun hactive =>
    (hcascaded.eq_of_active hactive).symm
  have hid := workItemId_of_item? hr
  have hself : s.item? r.workItemId = some r := by
    rw [hid]
    exact hr
  obtain ⟨s₁, hclose⟩ := closeAttempt_completes_of_inv now hinv hself hlease .expired
    (some executionExpired) none
  have hitem? : s₁.item? row.workItemId = some r := by
    unfold closeAttempt at hclose
    split at hclose
    · exact (item?_of_finishAttempt hclose _).trans hr
    · cases hclose
      exact hr
  have hcompleted := completedAt_of_open (hinv.items _ r hr).shape hopen
  obtain ⟨s₂, hset⟩ := setTerminal_completes (.ofReason .expired executionExpired none) now hitem?
    hcompleted
  have hfields := hcascaded.lease_eq
  obtain ⟨hchange, hstep, _⟩ := end_ledgerStep nobody hr hfields.1 hfields.2.1 hclose hset
    (by decide) rfl fun hopen => RowStep.expire (by
      rw [WorkRow.hardDue, hopen, hfields.2.2]
      exact expiry_of_hardDue hdue)
  obtain ⟨out, hout⟩ := hrefresh s₂ hchange hstep
  refine ⟨(n + 1, out.2), ?_⟩
  unfold expireRow
  rw [hitem, ok_bind, hrow, if_pos (expiry_of_hardDue hdue)]
  rw [hclose, ok_bind, hset, ok_bind, hout, ok_bind]

/-- A round of the lease-recovery sweep completes on a legible row, if the
refresh it may trigger does. -/
theorem recoverRow_completes {n : Nat} {row : WorkRow} (hinv : LedgerInv s)
    (hdue : row.leaseDue now = true) (hclock : row.ClockOrdered)
    (hr : s.item? row.workItemId = some row)
    (hrefresh : ¬ row.attempt < row.maxAttempts → ∀ s₁, ItemChange s s₁ row.workItemId row
        (row.withTerminal (.ofReason .failedPermanent leaseAttemptsExhausted none) now) →
      LedgerStep now nobody s s₁ →
      ∃ out, s₁.refreshDownstreamForUpstreams now [row.workItemId] = .ok out) :
    ∃ out, recoverRow now (n, s) row = .ok out := by
  have hshape := (hinv.items _ row hr).shape
  obtain ⟨hactive, hexpiry⟩ := isActive_of_leaseDue hdue
  obtain ⟨item, hitem⟩ := itemFromRow_readable_iff.mpr ⟨hshape, hclock⟩
  have hrow := itemFromRow_eq_ok_iff.mp hitem
  obtain ⟨s₁, hclose⟩ := finishAttempt_completes_of_inv now hinv hr hactive .abandoned
    (some leaseExpired) none
  have hitem? := (item?_of_finishAttempt hclose row.workItemId).trans hr
  unfold recoverRow
  rw [hitem, ok_bind, hrow, if_pos hexpiry]
  rw [hclose, ok_bind]
  by_cases hleft : row.attempt < row.maxAttempts
  · have hguard : (row.leaseEpoch == row.leaseEpoch && row.fencingToken.isSome &&
        row.fencingToken == row.fencingToken) = true := by
      rw [(hshape.lease_complete hactive).1]
      simp
    obtain ⟨s₂, hupdate⟩ := updateOne_completes
      (fun r => r.leaseEpoch == row.leaseEpoch && r.fencingToken.isSome &&
        r.fencingToken == row.fencingToken)
      (·.withRecovered now) (fun _ => rfl)
      (.fence "expired lease changed during recovery") hitem? hguard
    rw [if_pos hleft, hupdate]
    exact ⟨_, rfl⟩
  · have hopen := completedAt_of_open hshape (WorkItemState.not_isTerminal_of_isActive hactive)
    obtain ⟨s₂, hset⟩ := setTerminal_completes
      (.ofReason .failedPermanent leaseAttemptsExhausted none) now hitem? hopen
    have hclose' : s.closeAttempt row .abandoned (some leaseExpired) none now = .ok s₁ := by
      rw [closeAttempt_of_active hactive]
      exact hclose
    obtain ⟨hchange, hstep, _⟩ := end_ledgerStep nobody hr rfl rfl hclose' hset (by decide) rfl
      fun _ => RowStep.exhaust hdue hleft
    obtain ⟨out, hout⟩ := hrefresh hleft s₂ hchange hstep
    rw [if_neg hleft, hset, ok_bind, hout]
    exact ⟨_, rfl⟩

/-! ## Sweeps over one item -/

theorem filter_id_cases (s : WorkLedger) (i : OpaqueUuid) (p : WorkRow → Bool) :
    (s.items.rows.filter fun r => r.workItemId == i && p r) = [] ∨
      ∃ r, s.item? i = some r ∧ p r = true ∧
        (s.items.rows.filter fun r => r.workItemId == i && p r) = [r] := by
  by_cases h : ∃ r, s.item? i = some r ∧ p r = true
  · obtain ⟨r, hr, hp⟩ := h
    have hrow := KeyedTable.mem_of_find? hr
    have hid := workItemId_of_item? hr
    refine .inr ⟨r, hr, hp, s.items.filter_eq_singleton hrow (by simp [hid, hp]) ?_⟩
    intro q hq hsel
    rw [Bool.and_eq_true, beq_iff_eq] at hsel
    exact s.items.eq_of_key_eq hq hrow (hsel.1.trans hid.symm)
  · left
    rw [filter_eq_nil_iff]
    intro r hr hsel
    rw [Bool.and_eq_true, beq_iff_eq] at hsel
    exact h ⟨r, hsel.1 ▸ mem_items_iff.mp hr, hsel.2⟩

theorem OnTime.expireOne_completes (h : OnTime now seed s) (i : OpaqueUuid) :
    ∃ out, s.expireHardDeadlines now (some i) = .ok out := by
  unfold expireHardDeadlines hardDueRows
  simp only
  rcases s.filter_id_cases i (WorkRow.hardDue now) with hnil | ⟨r, hr, hdue, hone⟩
  · rw [hnil]
    exact ⟨_, rfl⟩
  · have hid := workItemId_of_item? hr
    have hshape := (h.inv.items i r hr).shape
    obtain ⟨out, hout⟩ := expireRow_completes h.inv hdue hshape (h.clocked i r hr).ordered
      (by rw [hid]; exact hr) .same (open_of_hardDue hshape hdue)
      fun s₁ _ hstep =>
        onTime_sweepSafe.refreshDownstream_completes (h.sweep (.single hstep)) trivial
    rw [hone, foldlM_cons, hout]
    exact ⟨out, rfl⟩

theorem OnTime.recoverOne_completes (h : OnTime now seed s) (i : OpaqueUuid) :
    ∃ out, s.recoverExpiredLeases now (some i) = .ok out := by
  unfold recoverExpiredLeases leaseDueRows
  simp only
  rcases s.filter_id_cases i (WorkRow.leaseDue now) with hnil | ⟨r, hr, hdue, hone⟩
  · rw [hnil]
    exact ⟨_, rfl⟩
  · have hid := workItemId_of_item? hr
    obtain ⟨out, hout⟩ := recoverRow_completes h.inv hdue (h.clocked i r hr).ordered
      (by rw [hid]; exact hr)
      fun _ s₁ _ hstep =>
        onTime_sweepSafe.refreshDownstream_completes (h.sweep (.single hstep)) trivial
    rw [hone, foldlM_cons, hout]
    exact ⟨out, rfl⟩

theorem OnTime.reconcileExactDueState_completes (h : OnTime now seed s) {i : OpaqueUuid}
    (hi : (s.item? i).isSome = true) : ∃ out, s.reconcileExactDueState i now = .ok out := by
  obtain ⟨expired, hexpire⟩ := h.expireOne_completes i
  have h₁ := h.sweep (expireHardDeadlines_steps hexpire)
  obtain ⟨recovered, hrecover⟩ := h₁.recoverOne_completes i
  have hsteps := (expireHardDeadlines_steps hexpire).trans (recoverExpiredLeases_steps hrecover)
  have h₂ := h.sweep hsteps
  obtain ⟨r, hr⟩ := Option.isSome_iff_exists.mp hi
  obtain ⟨r', hr', _, _⟩ := Steps.row hsteps hr
  obtain ⟨item, hload, _⟩ :=
    loadItem_completes hr' (h₂.inv.items i r' hr').shape (h₂.clocked i r' hr').ordered
  unfold reconcileExactDueState
  rw [hexpire, ok_bind, hrecover, ok_bind]
  simp only
  split
  · exact ⟨_, rfl⟩
  rw [hload, ok_bind]
  split
  · obtain ⟨out, hout⟩ := onTime_sweepSafe.refreshDownstream_completes h₂ (i := i) trivial
    rw [hout]
    exact ⟨_, rfl⟩
  · exact ⟨_, rfl⟩

end WorkLedger
end Robata.Queue
