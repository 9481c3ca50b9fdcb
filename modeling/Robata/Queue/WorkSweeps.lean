import Robata.Queue.WorkTransitions

/-!
# Operations as sequences of steps

A sweep reads its rows once and writes them one after another, while its own
cascades may already have moved some of them.  `Worklist` is the loop invariant
that survives this: a row still to be visited has at most been cascaded.  With
it, every sweep and every call of the scheduler is a sequence of `LedgerStep`s,
and leaves no `PLANNED` item behind.
-/

namespace Robata.Queue

open Lib Relation List
open WorkRow (hardDue leaseDue retryDue)

namespace WorkLedger

variable {now : Int} {called : OpaqueUuid → Prop} {s s' : WorkLedger}

/-! ## The sweeps -/

/-- A row read before the sweep began, seen from a later state: the sweep
itself can only have cascaded it. -/
def Snapshot (now : Int) (s : WorkLedger) (row : WorkRow) : Prop :=
  ∃ r, s.item? row.workItemId = some r ∧ Cascaded now row r

/-- A list of rows a sweep still has to visit. -/
structure Worklist (now : Int) (due : WorkRow → Bool) (rows : List WorkRow) (s : WorkLedger) :
    Prop where
  nodup : (rows.map (·.workItemId)).Nodup
  due : ∀ row ∈ rows, due row = true
  snapshot : ∀ row ∈ rows, Snapshot now s row

variable {row : WorkRow} {target : Option OpaqueUuid}

theorem mem_hardDueRows :
    row ∈ s.hardDueRows now none ↔ s.item? row.workItemId = some row ∧ row.hardDue now = true := by
  simp [hardDueRows, ← mem_items_iff]

theorem mem_leaseDueRows :
    row ∈ s.leaseDueRows now none ↔ s.item? row.workItemId = some row ∧ row.leaseDue now = true := by
  simp [leaseDueRows, ← mem_items_iff]

theorem worklist_of_filter {due : WorkRow → Bool} {rows rows' : List WorkRow}
    (hperm : rows.Perm rows') (hsub : rows' <+ s.items.rows.filter due) :
    Worklist now due rows s := by
  have hmem : ∀ row ∈ rows, row ∈ s.items.rows.filter due := fun row hrow =>
    hsub.subset (hperm.mem_iff.mp hrow)
  refine ⟨(hperm.map _).nodup_iff.mpr ?_, fun row hrow => (mem_filter.mp (hmem row hrow)).2,
    fun row hrow => ⟨row, mem_items_iff.mp (mem_filter.mp (hmem row hrow)).1, .same⟩⟩
  exact s.items.nodup.sublist ((hsub.trans filter_sublist).map _)

theorem hardDueRows_worklist (s : WorkLedger) (now : Int) (target : Option OpaqueUuid) :
    Worklist now (hardDue now) (s.hardDueRows now target) s := by
  cases target with
  | none => exact worklist_of_filter (perm_insertionSort _ _) (.refl _)
  | some i => exact worklist_of_filter (.refl _) (monotone_filter_right _ fun r hr => by simp_all)

theorem leaseDueRows_worklist (s : WorkLedger) (now : Int) (target : Option OpaqueUuid) :
    Worklist now (leaseDue now) (s.leaseDueRows now target) s := by
  cases target with
  | none => exact worklist_of_filter (perm_insertionSort _ _) (.refl _)
  | some i => exact worklist_of_filter (.refl _) (monotone_filter_right _ fun r hr => by simp_all)

variable {r r' : WorkRow}

theorem Cascaded.eq_of_active (h : Cascaded now r r') (hr : r.state.isActive = true) : r' = r := by
  cases h with
  | same => rfl
  | released planned | failed planned =>
    rw [planned] at hr
    cases hr

/-- A cascade moves unleased rows only, and leaves their lease columns. -/
theorem Cascaded.lease_eq (h : Cascaded now r r') : r'.state.isActive = r.state.isActive ∧
    r'.attempt = r.attempt ∧ r'.executionExpiryAt = r.executionExpiryAt := by
  cases h with
  | same => exact ⟨rfl, rfl, rfl⟩
  | released planned | failed planned => exact ⟨by rw [planned]; rfl, rfl, rfl⟩

theorem Worklist.tail {due : WorkRow → Bool} {rest : List WorkRow}
    (h : Worklist now due (row :: rest) s)
    (hothers : ∀ j q, j ≠ row.workItemId → s.item? j = some q →
      ∃ q', s'.item? j = some q' ∧ Cascaded now q q') : Worklist now due rest s' := by
  have hnodup := h.nodup
  rw [map_cons, nodup_cons] at hnodup
  refine ⟨hnodup.2, fun r hr => h.due r (mem_cons_of_mem _ hr), ?_⟩
  intro r hr
  have hne : r.workItemId ≠ row.workItemId := by
    intro heq
    exact hnodup.1 (heq ▸ mem_map_of_mem hr)
  obtain ⟨q, hq, hcascaded⟩ := h.snapshot r (mem_cons_of_mem _ hr)
  obtain ⟨q', hq', hlater⟩ := hothers r.workItemId q hne hq
  exact ⟨q', hq', hcascaded.trans hlater⟩

theorem expiry_of_hardDue (h : r.hardDue now = true) :
    (r.executionExpiryAt.any fun e => decide (parseTimestamp e ≤ now)) = true := by
  rw [hardDue, Bool.and_eq_true] at h
  exact h.2

variable {n : Nat}

theorem expireRow_spec {n' : Nat} (h : expireRow now (n, s) row = .ok (n', s'))
    (hdue : row.hardDue now = true) (hsnapshot : Snapshot now s row) :
    ∃ r, s.item? row.workItemId = some r ∧ Cascaded now row r ∧ r.hardDue now = true ∧
      n' = n + 1 ∧
      EndsItem now nobody s s' row.workItemId r
        (r.withTerminal (.ofReason .expired executionExpired none) now) := by
  obtain ⟨item, hitem, h⟩ := bind_eq_ok.mp h
  rw [itemFromRow_eq_ok_iff] at hitem
  rw [hitem, if_pos (expiry_of_hardDue hdue), bind_eq_ok] at h
  obtain ⟨s₁, hclose, h⟩ := h
  obtain ⟨s₂, hset, h⟩ := bind_eq_ok.mp h
  obtain ⟨out, hrefresh, h⟩ := bind_eq_ok.mp h
  cases h
  obtain ⟨r, hr, hcascaded⟩ := hsnapshot
  have hlease := hcascaded.lease_eq
  have hdue' : r.completedAt = none → r.hardDue now = true := by
    intro hopen
    rw [hardDue, hopen, hlease.2.2]
    exact expiry_of_hardDue hdue
  obtain ⟨hchange, hstep, hopen⟩ := end_ledgerStep nobody hr hlease.1 hlease.2.1 hclose hset
    (by decide) rfl fun hopen => RowStep.expire (hdue' hopen)
  exact ⟨r, hr, hcascaded, hdue' hopen, rfl, s₂, out.1, hchange, hstep, hrefresh⟩

/-- The step of a lease taken back: the attempt is closed and the row is ready
again. -/
theorem release_ledgerStep (called : OpaqueUuid → Prop) {outcome : WorkAttemptOutcome}
    {code detail : Option NonEmptyString} {s₁ : WorkLedger}
    (hclose : s.finishAttempt row outcome code detail now = .ok s₁)
    (hchange : ItemChange s₁ s' row.workItemId row r') (hattempts : s'.attempts = s₁.attempts)
    (hactive : row.state.isActive = true) (hinactive : r'.state.isActive = false)
    (houtcome : outcome ≠ .active)
    (hrow : RowStep now (called row.workItemId) (s.UpstreamEnded row.workItemId)
      (s.RequiredFailure row.workItemId) row r') :
    ItemChange s s' row.workItemId row r' ∧ LedgerStep now called s s' := by
  obtain ⟨a, hfind, _, _, _, _, hdeps, hafter⟩ := finishAttempt_spec hclose
  have hitem? := item?_of_finishAttempt hclose
  have hchange' : ItemChange s s' row.workItemId row r' := by
    refine ⟨(hitem? _).symm.trans hchange.before, ?_, hchange.deps_eq.trans hdeps⟩
    intro j
    rw [hchange.after, hitem?]
  have hlast : a.SameLease (a.withOutcome outcome code detail now) := ⟨rfl, rfl, rfl⟩
  rw [← hattempts] at hafter
  exact ⟨hchange', hchange'.ledgerStep_written hrow hafter
    (.closed hactive hinactive hfind hlast houtcome)⟩

theorem isActive_of_leaseDue (h : r.leaseDue now = true) :
    r.state.isActive = true ∧
      (r.leaseExpiresAt.any fun e => decide (parseTimestamp e ≤ now)) = true := by
  rwa [leaseDue, Bool.and_eq_true] at h

variable (now s s' row) in
/-- What a round of the lease-recovery sweep does: the item is ready again, or
its attempts are exhausted and it ends. -/
inductive Recovery : Prop
  | ready (left : row.attempt < row.maxAttempts)
      (change : ItemChange s s' row.workItemId row (row.withRecovered now))
      (step : LedgerStep now nobody s s')
  | exhausted (spent : ¬ row.attempt < row.maxAttempts)
      (ends : EndsItem now nobody s s' row.workItemId row
        (row.withTerminal (.ofReason .failedPermanent leaseAttemptsExhausted none) now))

theorem recoverRow_spec {n' : Nat} (h : recoverRow now (n, s) row = .ok (n', s'))
    (hdue : row.leaseDue now = true) (hcurrent : s.item? row.workItemId = some row) :
    n' = n + 1 ∧ Recovery now s s' row := by
  obtain ⟨hactive, hexpiry⟩ := isActive_of_leaseDue hdue
  obtain ⟨item, hitem, h⟩ := bind_eq_ok.mp h
  rw [itemFromRow_eq_ok_iff] at hitem
  rw [hitem, if_pos hexpiry, bind_eq_ok] at h
  obtain ⟨s₁, hclose, h⟩ := h
  have hitem? := (item?_of_finishAttempt hclose row.workItemId).trans hcurrent
  by_cases hleft : row.attempt < row.maxAttempts
  · rw [if_pos hleft, bind_eq_ok] at h
    obtain ⟨s₂, hupdate, h⟩ := h
    cases h
    obtain ⟨r, hchange, _, hattempts⟩ := updateOne_spec hupdate
    have hrow : r = row := Option.some.inj (hchange.before.symm.trans hitem?)
    subst hrow
    obtain ⟨hchange', hstep⟩ := release_ledgerStep nobody hclose hchange hattempts hactive rfl
      (by decide) (RowStep.recover hdue hleft)
    exact ⟨rfl, .ready hleft hchange' hstep⟩
  · rw [if_neg hleft, bind_eq_ok] at h
    obtain ⟨s₂, hset, h⟩ := h
    obtain ⟨out, hrefresh, h⟩ := bind_eq_ok.mp h
    cases h
    have hclose' : s.closeAttempt row .abandoned (some leaseExpired) none now = .ok s₁ := by
      rw [closeAttempt, if_pos hactive]
      exact hclose
    obtain ⟨hchange, hstep, _⟩ := end_ledgerStep nobody hcurrent rfl rfl hclose' hset (by decide) rfl
      fun _ => RowStep.exhaust hdue hleft
    exact ⟨rfl, .exhausted hleft ⟨s₂, out.1, hchange, hstep, hrefresh⟩⟩

theorem Recovery.row_ne {q : WorkRow} {j : OpaqueUuid} (h : Recovery now s s' row)
    (hj : j ≠ row.workItemId) (hq : s.item? j = some q) :
    ∃ q', s'.item? j = some q' ∧ Cascaded now q q' := by
  cases h with
  | ready _ change _ => exact ⟨q, by rw [change.after, if_neg hj, hq], .same⟩
  | exhausted _ ends => exact ends.row_ne hj hq

theorem Worklist.leased {rest : List WorkRow} (h : Worklist now (leaseDue now) (row :: rest) s) :
    s.item? row.workItemId = some row := by
  obtain ⟨r, hr, hcascaded⟩ := h.snapshot row mem_cons_self
  rw [hr, hcascaded.eq_of_active (isActive_of_leaseDue (h.due row mem_cons_self)).1]

variable {rest : List WorkRow} {acc acc' : Nat × WorkLedger}

theorem expireRow_round (hlist : Worklist now (hardDue now) (row :: rest) acc.2)
    (h : expireRow now acc row = .ok acc') :
    Worklist now (hardDue now) rest acc'.2 ∧ ∃ r, EndsItem now nobody acc.2 acc'.2
      row.workItemId r (r.withTerminal (.ofReason .expired executionExpired none) now) := by
  obtain ⟨r, _, _, _, _, hends⟩ :=
    expireRow_spec h (hlist.due row mem_cons_self) (hlist.snapshot row mem_cons_self)
  exact ⟨hlist.tail fun j q hj hq => hends.row_ne hj hq, r, hends⟩

theorem recoverRow_round (hlist : Worklist now (leaseDue now) (row :: rest) acc.2)
    (h : recoverRow now acc row = .ok acc') :
    Worklist now (leaseDue now) rest acc'.2 ∧ Recovery now acc.2 acc'.2 row := by
  obtain ⟨_, hrecovery⟩ := recoverRow_spec h (hlist.due row mem_cons_self) hlist.leased
  exact ⟨hlist.tail fun j q hj hq => hrecovery.row_ne hj hq, hrecovery⟩

/-- Loop rule of the sweeps: what every round preserves, the sweep preserves. -/
theorem sweep_rule {due : WorkRow → Bool} {rows : List WorkRow} (Q : WorkLedger → Prop)
    {f : Nat × WorkLedger → WorkRow → Except WorkError (Nat × WorkLedger)}
    (hround : ∀ row rest acc acc', Worklist now due (row :: rest) acc.2 → f acc row = .ok acc' →
      Worklist now due rest acc'.2 ∧ (Q acc.2 → Q acc'.2))
    (hlist : Worklist now due rows s) (h : rows.foldlM f (0, s) = .ok (n, s')) (hs : Q s) :
    Q s' := by
  have hloop := foldlM_invariant
    (fun rows (acc : Nat × WorkLedger) => Worklist now due rows acc.2 ∧ Q acc.2) ?_
    rows (0, s) (n, s') ⟨hlist, hs⟩ h
  · exact hloop.2
  · intro row rest acc acc' hacc hstep
    obtain ⟨htail, hQ⟩ := hround row rest acc acc' hacc.1 hstep
    exact ⟨htail, hQ hacc.2⟩

theorem LedgerStep.settled (h : LedgerStep now called s s')
    (hopen : ∀ j r r', ItemStep now (called j) s s' j r r' → r'.state.isTerminal = false)
    (hs : s.Settled) : s'.Settled := by
  intro k hk
  rcases h.stuck_cases hk with hold | ⟨d, _, _, r, r', hstep, hterminal⟩
  · exact hs k hold
  · rw [hopen _ r r' hstep] at hterminal
    cases hterminal

theorem ItemChange.settled {i : OpaqueUuid} (change : ItemChange s s' i r r')
    (hopen : r'.state.isTerminal = false) (h : LedgerStep now called s s') (hs : s.Settled) :
    s'.Settled := by
  refine h.settled ?_ hs
  intro j q q' hstep
  rw [(change.itemStep_eq hstep).2.2]
  exact hopen

theorem Recovery.steps (h : Recovery now s s' row) : Steps now nobody s s' := by
  cases h with
  | ready _ _ step => exact .single step
  | exhausted _ ends => exact ends.steps

theorem Recovery.settled (h : Recovery now s s' row) (hs : s.Settled) : s'.Settled := by
  cases h with
  | ready _ change step => exact change.settled rfl step hs
  | exhausted _ ends => exact ends.settled hs

theorem expireHardDeadlines_rule (Q : WorkLedger → Prop)
    (hround : ∀ {s s' i r}, EndsItem now nobody s s' i r
      (r.withTerminal (.ofReason .expired executionExpired none) now) → Q s → Q s')
    (h : s.expireHardDeadlines now target = .ok (n, s')) (hs : Q s) : Q s' := by
  refine sweep_rule Q (fun row rest acc acc' hlist hstep => ?_)
    (s.hardDueRows_worklist now target) h hs
  obtain ⟨htail, r, hends⟩ := expireRow_round hlist hstep
  exact ⟨htail, hround hends⟩

theorem recoverExpiredLeases_rule (Q : WorkLedger → Prop)
    (hround : ∀ {s s' row}, Recovery now s s' row → Q s → Q s')
    (h : s.recoverExpiredLeases now target = .ok (n, s')) (hs : Q s) : Q s' :=
  sweep_rule Q (fun _ _ _ _ hlist hstep =>
    (recoverRow_round hlist hstep).imp_right hround) (s.leaseDueRows_worklist now target) h hs

theorem expireHardDeadlines_steps (h : s.expireHardDeadlines now target = .ok (n, s')) :
    Steps now nobody s s' :=
  expireHardDeadlines_rule (Steps now nobody s) (fun hends hQ => hQ.trans hends.steps) h .refl

theorem expireHardDeadlines_settled (h : s.expireHardDeadlines now target = .ok (n, s'))
    (hs : s.Settled) : s'.Settled :=
  expireHardDeadlines_rule Settled (fun hends hQ => hends.settled hQ) h hs

theorem recoverExpiredLeases_steps (h : s.recoverExpiredLeases now target = .ok (n, s')) :
    Steps now nobody s s' :=
  recoverExpiredLeases_rule (Steps now nobody s) (fun hround hQ => hQ.trans hround.steps) h .refl

theorem recoverExpiredLeases_settled (h : s.recoverExpiredLeases now target = .ok (n, s'))
    (hs : s.Settled) : s'.Settled :=
  recoverExpiredLeases_rule Settled (fun hround hQ => hround.settled hQ) h hs

/-! ## The bulk retry statement -/

theorem item?_releaseRetries (j : OpaqueUuid) :
    (s.releaseRetries now).item? j =
      (s.item? j).map fun r => if r.retryDue now then r.withRetryReady now else r :=
  s.items.find?_updateWhere (retryDue now) (·.withRetryReady now) (fun _ => rfl) j

theorem releaseRetries_ledgerStep (s : WorkLedger) (now : Int) :
    LedgerStep now nobody s (s.releaseRetries now) := by
  refine ⟨rfl, ?_⟩
  intro j
  cases hr : s.item? j with
  | none =>
    refine .inl ⟨?_, rfl⟩
    rw [item?_releaseRetries, hr]
    rfl
  | some r =>
    by_cases hdue : r.retryDue now = true
    · have hstate : r.state = .retryWait := by
        rw [retryDue, Bool.and_eq_true, beq_iff_eq] at hdue
        exact hdue.1
      refine .inr ⟨r, r.withRetryReady now, hr, ?_, .retry hdue, .kept ?_ rfl⟩
      · rw [item?_releaseRetries, hr, Option.map_some, if_pos hdue]
      · rw [hstate]
        rfl
    · refine .inl ⟨?_, rfl⟩
      rw [item?_releaseRetries, hr, Option.map_some, if_neg hdue]

theorem releaseRetries_settled (hs : s.Settled) : (s.releaseRetries now).Settled := by
  refine (s.releaseRetries_ledgerStep now).settled ?_ hs
  intro j r r' hstep
  have hafter := hstep.after
  rw [item?_releaseRetries, hstep.before, Option.map_some] at hafter
  split at hafter
  · cases hafter
    rfl
  · have hversion := hstep.row.rowVersion_eq
    rw [Option.some.inj hafter] at hversion
    omega

/-! ## The full readiness scan -/

theorem refreshPlanned_of_settled {changed changed' : Nat} (hs : s.Settled)
    (h : refreshPlanned now changed s = .ok (changed', s')) : changed' = changed ∧ s' = s := by
  have hpass : ∀ {n : Nat} {s₁ : WorkLedger},
      s.plannedIds.foldlM (scanRow now) (0, s) = .ok (n, s₁) → n = 0 ∧ s₁ = s := by
    intro n s₁ hfold
    refine scan_invariant (fun acc => acc.1 = 0 ∧ acc.2 = s) ?_ ⟨rfl, rfl⟩ hfold
    intro acc i state s₂ hacc hspec
    rw [hacc.2] at hspec
    exact absurd hspec.stuck (hs i)
  unfold refreshPlanned at h
  split at h
  · cases h
  · rename_i s₁ hfold
    cases h
    exact ⟨rfl, (hpass hfold).2⟩
  · rename_i passChanged s₁ hfold
    have hzero := (hpass hfold).1
    omega

theorem sweeps_steps {m : Nat} {s₁ : WorkLedger}
    (hexpire : s.expireHardDeadlines now target = .ok (n, s₁))
    (hrecover : s₁.recoverExpiredLeases now target = .ok (m, s')) :
    Steps now nobody s (s'.releaseRetries now) :=
  ((expireHardDeadlines_steps hexpire).trans (recoverExpiredLeases_steps hrecover)).tail
    (s'.releaseRetries_ledgerStep now)

theorem maintain_steps {refreshAll : Bool} (hs : s.Settled)
    (h : s.maintain now refreshAll = .ok (n, s')) : Steps now nobody s s' ∧ s'.Settled := by
  obtain ⟨expired, hexpire, h⟩ := bind_eq_ok.mp h
  obtain ⟨recovered, hrecover, h⟩ := bind_eq_ok.mp h
  have hsettled : (recovered.2.releaseRetries now).Settled :=
    releaseRetries_settled
      (recoverExpiredLeases_settled hrecover (expireHardDeadlines_settled hexpire hs))
  have hsteps := sweeps_steps hexpire hrecover
  split at h
  · obtain ⟨_, hsame⟩ := refreshPlanned_of_settled hsettled h
    rw [hsame]
    exact ⟨hsteps, hsettled⟩
  · cases h
    exact ⟨hsteps, hsettled⟩

end WorkLedger
end Robata.Queue
