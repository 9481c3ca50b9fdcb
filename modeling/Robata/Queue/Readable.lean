import Robata.Queue.Forecast
import Robata.Queue.Readiness

/-!
# Which rows stay readable

`WorkItem.validate_state_shape` accepts a stored row when its columns fit its
state and `updated_at` does not precede `created_at`.  The first part holds in
every reachable ledger.  The second does not: cascades, sweeps and heartbeats
stamp rows with the caller's clock without reading them back.  `ClockOk` names
the calls that cannot do so to a row created after their `now`, and in a run of
such calls every row stays readable.
-/

namespace Robata.Queue

open Lib Relation
open WorkItemPlan (createdAt)

namespace WorkRow

/-- The row was created at `now` or before. -/
def CreatedBy (now : Int) (r : WorkRow) : Prop := parseTimestamp r.createdAt ≤ now

instance (now : Int) (r : WorkRow) : Decidable (r.CreatedBy now) :=
  inferInstanceAs (Decidable (_ ≤ _))

/-- No timestamp of the row that a sweep compares with its clock precedes the
creation of the row. -/
structure Clocked (r : WorkRow) : Prop where
  ordered : r.ClockOrdered
  lease : ∀ e, r.leaseExpiresAt = some e → parseTimestamp r.createdAt ≤ parseTimestamp e
  retry : ∀ e, r.retryNotBeforeAt = some e → parseTimestamp r.createdAt ≤ parseTimestamp e

end WorkRow

variable {r r' : WorkRow}

theorem RowStep.createdBy_iff {now instant : Int} {called ended failure : Prop}
    (h : RowStep now called ended failure r r') : r'.CreatedBy instant ↔ r.CreatedBy instant := by
  unfold WorkRow.CreatedBy
  rw [congrArg createdAt h.plan_eq]

theorem RowStep.clocked {now : Int} {called ended failure : Prop}
    (h : RowStep now called ended failure r r') (hr : r.Clocked) (hcreated : r.CreatedBy now) :
    r'.Clocked := by
  have hcreatedAt : r'.createdAt = r.createdAt := congrArg createdAt h.plan_eq
  unfold WorkRow.CreatedBy at hcreated
  have hlease : ∀ e, r'.leaseExpiresAt = some e → r.leaseExpiresAt = some e ∨
      now ≤ parseTimestamp e := by
    intro e he
    cases h with
    | claim _ _ _ _ _ later | renew _ _ later =>
      cases he
      rw [parseTimestamp_formatTimestamp]
      omega
    | _ => first | exact .inl he | cases he
  have hretry : ∀ e, r'.retryNotBeforeAt = some e → r.retryNotBeforeAt = some e ∨
      now ≤ parseTimestamp e := by
    intro e he
    cases h with
    | wait _ _ _ later =>
      cases he
      rw [parseTimestamp_formatTimestamp]
      omega
    | _ => first | exact .inl he | cases he
  refine ⟨?_, ?_, ?_⟩
  · unfold WorkRow.ClockOrdered
    rw [h.updatedAt_eq, hcreatedAt, parseTimestamp_formatTimestamp]
    exact hcreated
  · intro e he
    rw [hcreatedAt]
    rcases hlease e he with hold | hnow
    · exact hr.lease e hold
    · omega
  · intro e he
    rw [hcreatedAt]
    rcases hretry e he with hold | hnow
    · exact hr.retry e hold
    · omega

namespace WorkLedger

/-- Every row is in order. -/
def Clocked (s : WorkLedger) : Prop := ∀ j r, s.item? j = some r → r.Clocked

/-- No sweep at `now`, while the items of `seed` end, writes a row created
later: this holds of every row past its hard deadline and of every `PLANNED`
row whose upstream work will have ended. -/
structure Timely (now : Int) (seed : OpaqueUuid → Bool → Prop) (s : WorkLedger) : Prop where
  due : DueSeeded now seed s
  expired : ∀ j r, s.item? j = some r → r.hardDue now = true → r.CreatedBy now
  freed : ∀ j r, s.item? j = some r → r.state = .planned → s.Freed seed j → r.CreatedBy now

variable {now : Int} {called : OpaqueUuid → Prop} {seed : OpaqueUuid → Bool → Prop}
  {s s' : WorkLedger}

theorem Timely.step (h : Timely now seed s) (hstep : LedgerStep now called s s')
    (hinv : LedgerInv s) (hseeded : Seeded now called seed s s') : Timely now seed s' := by
  refine ⟨h.due.step hstep, ?_, ?_⟩
  · intro j r' hr' hdue
    rcases hstep.row_before hr' with hsame | ⟨r, hitem⟩
    · exact h.expired j r' hsame hdue
    · exact hitem.row.createdBy_iff.mpr
        (h.expired j r hitem.before (hardDue_of_step hitem.row hdue))
  · intro j r' hr' hplanned hfreed
    rcases hstep.row_before hr' with hsame | ⟨r, hitem⟩
    · exact h.freed j r' hsame hplanned (hfreed.of_step hstep hinv hseeded)
    · exact absurd hplanned hitem.row.state_ne_planned

/-- The step lemma: rows stay in order as long as the sweeps are timely and a
call does not write an item created later. -/
theorem Clocked.step (h : s.Clocked) (hstep : LedgerStep now called s s')
    (htimely : ∀ j r, s.item? j = some r → r.hardDue now = true ∨
      (r.state = .planned ∧ s.UpstreamEnded j) ∨ called j → r.CreatedBy now) : s'.Clocked := by
  intro j r' hr'
  rcases hstep.row_before hr' with hsame | ⟨r, hitem⟩
  · exact h j r' hsame
  refine hitem.row.clocked (h j r hitem.before) ?_
  have hclocked := h j r hitem.before
  have hcase := htimely j r hitem.before
  -- a lease or a retry delay that has run out was set after the creation of the row
  have hpast : ∀ {t : Option Rfc3339Timestamp},
      (t.any fun e => decide (parseTimestamp e ≤ now)) = true →
      (∀ e, t = some e → parseTimestamp r.createdAt ≤ parseTimestamp e) → r.CreatedBy now := by
    intro t hdue hbound
    cases t with
    | none => cases hdue
    | some e =>
      have hle := hbound e rfl
      simp only [Option.any_some, decide_eq_true_eq] at hdue
      unfold WorkRow.CreatedBy
      omega
  cases hitem.row with
  | release planned hended _ | failDependency planned hended _ =>
    exact hcase (.inr (.inl ⟨planned, hended⟩))
  | expire due => exact hcase (.inl due)
  | recover due _ | exhaust due _ => exact hpast (isActive_of_leaseDue due).2 hclocked.lease
  | retry due =>
    rw [WorkRow.retryDue, Bool.and_eq_true] at due
    exact hpast due.2 hclocked.retry
  | claim hcalled | start hcalled | renew hcalled | succeed hcalled | fail hcalled | wait hcalled
  | direct hcalled => exact hcase (.inr (.inr hcalled))

variable {i : OpaqueUuid}

theorem Clocked.step_change (h : s.Clocked) (change : ItemChange s s' i r r')
    (hstep : LedgerStep now called s s') (hcreated : r.CreatedBy now) : s'.Clocked := by
  intro j q' hq'
  rcases hstep.row_before hq' with hsame | ⟨q, hitem⟩
  · exact h j q' hsame
  · obtain ⟨rfl, rfl, _⟩ := change.itemStep_eq hitem
    exact hitem.row.clocked (h j q hitem.before) hcreated

theorem Clocked.step_readBack (h : s.Clocked) (change : ItemChange s s' i r r')
    (hstep : LedgerStep now called s s') (hstamp : r'.updatedAt = formatTimestamp now)
    (hclock : r'.ClockOrdered) : s'.Clocked := by
  refine h.step_change change hstep ?_
  have hplan : r'.createdAt = r.createdAt := by
    rcases hstep.items i with hsame | ⟨q, q', hitem⟩
    · have hafter := change.after i
      rw [if_pos rfl, hsame.1, change.before] at hafter
      rw [Option.some.inj hafter]
    · obtain ⟨_, rfl, rfl⟩ := change.itemStep_eq hitem
      exact congrArg createdAt hitem.row.plan_eq
  unfold WorkRow.ClockOrdered at hclock
  rw [hstamp, hplan, parseTimestamp_formatTimestamp] at hclock
  exact hclock

variable (now seed s) in
/-- What a timely sweep maintains. -/
structure OnTime : Prop where
  inv : LedgerInv s
  clocked : s.Clocked
  timely : Timely now seed s

theorem OnTime.step (h : OnTime now seed s) (hstep : LedgerStep now called s s')
    (hseeded : Seeded now called seed s s')
    (hcalled : ∀ j r, s.item? j = some r → called j → r.CreatedBy now) : OnTime now seed s' := by
  refine ⟨hstep.inv h.inv, h.clocked.step hstep ?_, h.timely.step hstep h.inv hseeded⟩
  intro j r hr hcase
  rcases hcase with hdue | ⟨hplanned, hended⟩ | hj
  · exact h.timely.expired j r hr hdue
  · exact h.timely.freed j r hr hplanned (freed_of_upstreamEnded h.inv hended)
  · exact hcalled j r hr hj

theorem OnTime.sweep (h : OnTime now seed s) (hsteps : Steps now nobody s s') :
    OnTime now seed s' := by
  induction hsteps with
  | refl => exact h
  | tail _ hlast ih =>
    exact ih.step hlast (ih.timely.due.seeded _) fun _ _ _ hcalled => hcalled.elim

/-- A transaction that ends the item it was called for stays on time if that
item was created by then. -/
theorem OnTime.ends (h : OnTime now seed s) (hends : EndsItem now (only i) s s' i r r')
    (hseed : r'.state.isTerminal = true → seed i r'.state.isSuccessful) (hcreated : r.CreatedBy now) :
    OnTime now seed s' := by
  obtain ⟨s₁, n, hchange, hstep, hrefresh⟩ := hends
  have hcalled : ∀ j q, s.item? j = some q → only i j → q.CreatedBy now := by
    rintro j q hq rfl
    have hrow : q = r := Option.some.inj (hq.symm.trans hchange.before)
    exact hrow ▸ hcreated
  exact (h.step hstep (hchange.seeded hseed) hcalled).sweep
    (refreshPlannedForWorkIds_cascade hrefresh).steps

/-! ## Transactions -/

/-- A row keeps its policy through a transaction, and is stamped if it changes. -/
theorem Steps.row (h : Steps now called s s') {j : OpaqueUuid} (hr : s.item? j = some r) :
    ∃ r', s'.item? j = some r' ∧
      r'.toWorkItemPlan = r.toWorkItemPlan ∧ (r' = r ∨ r'.updatedAt = formatTimestamp now) := by
  induction h with
  | refl => exact ⟨r, hr, rfl, .inl rfl⟩
  | tail _ hlast ih =>
    obtain ⟨r₁, hr₁, hplan, hstamp⟩ := ih
    rcases hlast.items j with hsame | ⟨q, q', hitem⟩
    · exact ⟨r₁, hsame.1.trans hr₁, hplan, hstamp⟩
    · have hq : q = r₁ := Option.some.inj (hitem.before.symm.trans hr₁)
      subst hq
      exact ⟨q', hitem.after, hitem.row.plan_eq.trans hplan, .inr hitem.row.updatedAt_eq⟩

/-- A terminal transition whose item could be read back at the end of the
transaction was stamped after the creation of the item. -/
theorem Settlement.createdBy {facts : TerminalFacts}
    (h : Settlement now s s' i r (r.withTerminal facts now)) (hs : s.Settled) :
    r.CreatedBy now := by
  obtain ⟨s₂, n, q, hends, hmaintain, hq, hclock⟩ := h
  have hsettled := hends.settled hs
  obtain ⟨s₁, m, hchange, _, hrefresh⟩ := hends
  have hwritten : s₁.item? i = some (r.withTerminal facts now) := by
    rw [hchange.after, if_pos rfl]
  have hsteps := (refreshPlannedForWorkIds_cascade hrefresh).steps.trans
    (maintain_steps hsettled hmaintain).1
  obtain ⟨q', hq', hplan, hstamp⟩ := Steps.row hsteps hwritten
  have hsame : q' = q := Option.some.inj (hq'.symm.trans hq)
  subst hsame
  have hupdated : q'.updatedAt = formatTimestamp now := by
    rcases hstamp with heq | hnow
    · rw [heq]
      rfl
    · exact hnow
  unfold WorkRow.ClockOrdered at hclock
  have hcreatedAt : q'.createdAt = r.createdAt := congrArg createdAt hplan
  rw [hupdated, hcreatedAt, parseTimestamp_formatTimestamp] at hclock
  exact hclock

theorem OnTime.settlement {facts : TerminalFacts} (h : OnTime now seed s) (hs : s.Settled)
    (hsettlement : Settlement now s s' i r (r.withTerminal facts now))
    (hseed : seed i facts.state.isSuccessful) : OnTime now seed s' := by
  have hcreated := hsettlement.createdBy hs
  obtain ⟨s₁, n, q, hends, hmaintain, _, _⟩ := hsettlement
  have hafter := h.ends hends (fun _ => hseed) hcreated
  exact hafter.sweep (maintain_steps (hends.settled hs) hmaintain).1

/-! ## Insertions -/

/-- `s'` has the rows and the edges of `s`, and possibly more. -/
structure Extends (s s' : WorkLedger) : Prop where
  rows : ∀ j r, s.item? j = some r → s'.item? j = some r
  deps : ∀ d ∈ s.deps.rows, d ∈ s'.deps.rows

variable {mid : WorkLedger}

theorem Extends.advance {mid' : WorkLedger} {state : WorkItemState} (h : Extends s mid)
    (hs : s.Sound) (hadvance : Advance now mid i (some state) mid') :
    s.item? i = none ∧ Extends s mid' := by
  have hnew : s.item? i = none := by
    cases hold : s.item? i with
    | none => rfl
    | some r =>
      -- an old item would have been free before
      obtain ⟨q, hq, hplanned, hended⟩ := hadvance.stuck
      have hrow : q = r := Option.some.inj (hq.symm.trans (h.rows i r hold))
      subst hrow
      refine absurd ⟨q, hold, hplanned, ?_⟩ (hs.2 i)
      rw [upstreamEnded_def] at hended ⊢
      intro d hd hdown u hu
      exact hended d (h.deps d hd) hdown u (h.rows _ u hu)
  refine ⟨hnew, ?_, ?_⟩
  · intro j r hr
    have hj : j ≠ i := by
      rintro rfl
      rw [hnew] at hr
      cases hr
    rw [hadvance.item?_of_ne hj]
    exact h.rows j r hr
  · intro d hd
    rw [hadvance.deps_eq]
    exact h.deps d hd

theorem Extends.cascade {mid' : WorkLedger} (h : Extends s mid) (hs : s.Sound)
    (hcascade : Cascade now mid mid') (hclocked : mid.Clocked)
    (hnew : ∀ j r, s.item? j = none → mid.item? j = some r → r.CreatedBy now) :
    Extends s mid' ∧ mid'.Clocked := by
  have hloop : Extends s mid' ∧ mid'.Clocked ∧
      ∀ j r, s.item? j = none → mid'.item? j = some r → r.CreatedBy now := by
    induction hcascade with
    | refl => exact ⟨h, hclocked, hnew⟩
    | @tail mid₁ mid₂ hfirst hlast ih =>
      obtain ⟨i, state, hadvance⟩ := hlast
      obtain ⟨hextends, hclocked₁, hnew₁⟩ := ih
      obtain ⟨hfresh, hextends'⟩ := hextends.advance hs hadvance
      have hrows : ∀ j r', mid₂.item? j = some r' → mid₁.item? j = some r' ∨
          ∃ r, j = i ∧ ItemStep now (nobody j) mid₁ mid₂ j r r' := by
        intro j r' hr'
        rcases hadvance.ledgerStep.row_before hr' with hsame | ⟨r, hitem⟩
        · exact .inl hsame
        · refine .inr ⟨r, ?_, hitem⟩
          by_contra hj
          have hsame := hadvance.item?_of_ne hj
          rw [hitem.before, hr'] at hsame
          have hversion := hitem.row.rowVersion_eq
          rw [Option.some.inj hsame] at hversion
          omega
      refine ⟨hextends', ?_, ?_⟩
      · intro j r' hr'
        rcases hrows j r' hr' with hsame | ⟨r, rfl, hitem⟩
        · exact hclocked₁ j r' hsame
        · exact hitem.row.clocked (hclocked₁ j r hitem.before)
            (hnew₁ j r hfresh hitem.before)
      · intro j r' hj hr'
        rcases hrows j r' hr' with hsame | ⟨r, rfl, hitem⟩
        · exact hnew₁ j r' hj hsame
        · exact hitem.row.createdBy_iff.mpr (hnew₁ j r hfresh hitem.before)
  exact ⟨hloop.1, hloop.2.1⟩

theorem clocked_toRow (plan : WorkItemPlan) : plan.toRow.Clocked := by
  refine ⟨?_, ?_, ?_⟩
  · exact le_refl _
  · intro e he
    cases he
  · intro e he
    cases he

variable {plan : WorkItemPlan}

theorem createdBy_toRow (h : parseTimestamp plan.createdAt ≤ now) : plan.toRow.CreatedBy now := by
  show parseTimestamp (normalizeTimestamp plan.createdAt) ≤ now
  rw [parseTimestamp_normalizeTimestamp]
  exact h

theorem PlanInsert.extends {dependencies : List WorkDependency}
    (h : PlanInsert plan dependencies s s') : Extends s s' := by
  refine ⟨fun j r hr => h.item?_mono hr, ?_⟩
  intro d hd
  rw [h.deps_eq]
  exact List.mem_append_left _ hd

variable {plans : List (WorkItemPlan × List WorkDependency)}

theorem Inserts.extends (h : Inserts plans s s') : Extends s s' := by
  induction h with
  | refl => exact ⟨fun _ _ hr => hr, fun _ hd => hd⟩
  | tail _ hlast ih =>
    obtain ⟨p, _, hinsert⟩ := hlast
    have hnext := hinsert.extends
    exact ⟨fun j r hr => hnext.rows j r (ih.rows j r hr), fun d hd => hnext.deps d (ih.deps d hd)⟩

theorem Inserts.clocked (h : Inserts plans s s') (hs : s.Clocked) : s'.Clocked := by
  intro j r hr
  rcases h.row_cases hr with hold | ⟨_, p, _, _, rfl⟩
  · exact hs j r hold
  · exact clocked_toRow p.1

theorem le_latestCreation (first : WorkItemPlan)
    (rest : List (WorkItemPlan × List WorkDependency)) :
    parseTimestamp first.createdAt ≤ latestCreation first rest ∧
      ∀ p ∈ rest, parseTimestamp p.1.createdAt ≤ latestCreation first rest := by
  have hfold : ∀ (rest : List (WorkItemPlan × List WorkDependency)) (start : Int),
      start ≤ rest.foldl (fun acc p => max acc (parseTimestamp p.1.createdAt)) start ∧
        ∀ p ∈ rest, parseTimestamp p.1.createdAt ≤
          rest.foldl (fun acc p => max acc (parseTimestamp p.1.createdAt)) start := by
    intro rest
    induction rest with
    | nil => simp
    | cons a rest ih =>
      intro start
      obtain ⟨hstart, hrest⟩ := ih (max start (parseTimestamp a.1.createdAt))
      exact ⟨le_trans (le_max_left _ _) hstart,
        List.forall_mem_cons.mpr ⟨le_trans (le_max_right _ _) hstart, hrest⟩⟩
  exact hfold rest _

theorem Inserts.refresh_clocked {n : Nat} {ids : List OpaqueUuid} (h : Inserts plans s mid)
    (hs : s.Sound) (hclocked : s.Clocked)
    (hrefresh : mid.refreshPlannedForWorkIds now ids = .ok (n, s'))
    (hcreated : ∀ p ∈ plans, parseTimestamp p.1.createdAt ≤ now) : s'.Clocked := by
  refine (h.extends.cascade hs (refreshPlannedForWorkIds_cascade hrefresh)
    (h.clocked hclocked) ?_).2
  intro j r hj hr
  rcases h.row_cases hr with hold | ⟨_, p, hp, _, rfl⟩
  · rw [hj] at hold
    cases hold
  · exact createdBy_toRow (hcreated p hp)

/-! ## Runs -/

/-- Item `i` ends, successfully or not. -/
def endsAs (i : OpaqueUuid) (ok : Bool) : OpaqueUuid → Bool → Prop := fun j b => j = i ∧ b = ok

/-- A transaction that sweeps at `now`, while the items of `extra` end, stamps
no row that was created later. -/
def SweepOk (now : Int) (extra : OpaqueUuid → Bool → Prop) (s : WorkLedger) : Prop :=
  (∀ j r, s.item? j = some r → r.hardDue now = true → r.CreatedBy now) ∧
    ∀ j r, s.item? j = some r → r.state = .planned →
      s.Freed (fun i ok => extra i ok ∨ s.dueSeed now i ok) j → r.CreatedBy now

/-- `fail` gives the item another attempt. -/
def FailRetries (s : WorkLedger) (lease : WorkLease) (retryable : Bool) (delay now : Int) : Prop :=
  ∃ r seconds retryAt, s.item? lease.workItemId = some r ∧
    nonnegativeInt delay "retry_delay_seconds" = .ok seconds ∧
    addSeconds now seconds = .ok retryAt ∧ willRetry r retryable retryAt = true

end WorkLedger

open WorkLedger in
/-- The calls that stamp no row with an instant before its creation, apart from
rows they read back. -/
def SchedulerOp.ClockOk : SchedulerOp → WorkLedger → Prop
  | .plan _ _, _ => True
  | .planMany _, _ => True
  | .start _ _, _ => True
  | .heartbeat lease _ now, s => ∀ r, s.item? lease.workItemId = some r → r.CreatedBy now
  | .reconcile now, s => SweepOk now (fun _ _ => False) s
  | .claim _ _ _ now _ _, s => SweepOk now (fun _ _ => False) s
  | .reconcileExactDueState _ now, s => SweepOk now (fun _ _ => False) s
  | .succeed lease _ _ now, s => SweepOk now (endsAs lease.workItemId true) s
  | .fail lease _ retryable _ delay now, s =>
    FailRetries s lease retryable delay now ∨ SweepOk now (endsAs lease.workItemId false) s
  | .cancel workItemId _ _ now, s => SweepOk now (endsAs workItemId false) s
  | .skip workItemId _ _ _ now, s => SweepOk now (endsAs workItemId true) s
  | .invalidate workItemId _ _ now, s => SweepOk now (endsAs workItemId false) s

namespace WorkLedger

theorem SweepOk.onTime {extra : OpaqueUuid → Bool → Prop} (h : SweepOk now extra s)
    (hinv : LedgerInv s) (hclocked : s.Clocked) :
    OnTime now (fun i ok => extra i ok ∨ s.dueSeed now i ok) s :=
  ⟨hinv, hclocked, fun _ hdue => .inr hdue, h.1, h.2⟩

theorem directTerminal_clocked {i : OpaqueUuid} {state : WorkItemState}
    {outcome : WorkAttemptOutcome} {reasonCode : String} {reasonDetail : Option String}
    {flag : Bool} {item : WorkItem} (hstate : state.isDirect = true) (houtcome : outcome ≠ .active)
    (h : s.directTerminal i state outcome reasonCode reasonDetail flag now = .ok (item, s'))
    (hs : s.Sound) (hclocked : s.Clocked) (hok : SweepOk now (endsAs i state.isSuccessful) s) :
    s'.Clocked := by
  obtain ⟨_, s₁, _, s₂, hexpire, hrecover, r, _, hcases⟩ := directTerminal_spec hstate houtcome h
  have hsteps := (expireHardDeadlines_steps hexpire).trans (recoverExpiredLeases_steps hrecover)
  have hs₂ := (sweeps_moves hexpire hrecover hs).settled
  have htime := (hok.onTime hs.1 hclocked).sweep hsteps
  rcases hcases with rfl | ⟨code, detail, _, hsettlement⟩
  · exact htime.clocked
  · exact (htime.settlement hs₂ hsettlement (.inl ⟨rfl, rfl⟩)).clocked

theorem run_clocked {op : SchedulerOp} (h : op.run s = .ok s') (hs : s.Sound)
    (hclocked : s.Clocked) (hok : op.ClockOk s) : s'.Clocked := by
  cases op with
  | plan value dependencies =>
    obtain ⟨item, hplan⟩ := map_snd_eq_ok.mp h
    rcases plan_cases hplan with rfl | ⟨s₁, n, hinsert, hrefresh⟩
    · exact hclocked
    · refine hinsert.inserts.refresh_clocked hs hclocked hrefresh ?_
      intro p hp
      rw [List.mem_singleton] at hp
      rw [hp]
  | planMany plans =>
    obtain ⟨items, hplan⟩ := map_snd_eq_ok.mp h
    cases plans with
    | nil =>
      cases hplan
      exact hclocked
    | cons first rest =>
      obtain ⟨s₁, n, hinserts, hrefresh⟩ := planMany_cases hplan
      exact hinserts.refresh_clocked hs hclocked hrefresh
        (List.forall_mem_cons.mpr (le_latestCreation first.1 rest))
  | reconcile now =>
    obtain ⟨n, hmaintain⟩ := map_snd_eq_ok.mp h
    exact ((SweepOk.onTime hok hs.1 hclocked).sweep (maintain_steps hs.2 hmaintain).1).clocked
  | claim workerId duration target now startImmediately fencingToken =>
    obtain ⟨out, hclaim⟩ := map_snd_eq_ok.mp h
    obtain ⟨n, s₁, hmaintain, hcases⟩ := claim_spec hclaim
    have htime := (SweepOk.onTime hok hs.1 hclocked).sweep (maintain_steps hs.2 hmaintain).1
    rcases hcases with ⟨rfl, -⟩ | ⟨row, next, worker, expires, _, _, hchange, hstep, hclock, _⟩
    · exact htime.clocked
    · exact htime.clocked.step_readBack hchange hstep rfl hclock
  | start lease now =>
    obtain ⟨item, hstart⟩ := map_snd_eq_ok.mp h
    obtain ⟨r, _, _, hcases⟩ := start_spec hstart
    rcases hcases with rfl | ⟨_, hchange, hstep, hclock⟩
    · exact hclocked
    · exact hclocked.step_readBack hchange hstep rfl hclock
  | heartbeat lease duration now =>
    obtain ⟨renewed, hheartbeat⟩ := map_snd_eq_ok.mp h
    obtain ⟨r, expires, hr, _, _, hchange, hstep⟩ := heartbeat_spec hheartbeat
    exact hclocked.step_change hchange hstep (hok r hr)
  | succeed lease resultReference resultSha256 now =>
    obtain ⟨item, hsucceed⟩ := map_snd_eq_ok.mp h
    obtain ⟨_, _, _, _, _, _, hsettlement⟩ := succeed_spec hsucceed
    exact ((SweepOk.onTime hok hs.1 hclocked).settlement hs.2 hsettlement (.inl ⟨rfl, rfl⟩)).clocked
  | fail lease errorCode retryable errorDetail delay now =>
    obtain ⟨item, hfail⟩ := map_snd_eq_ok.mp h
    obtain ⟨r, _, _, seconds, retryAt, hr, _, hseconds, hretryAt, hcases⟩ := fail_spec hfail
    rcases hcases with ⟨_, hchange, hstep, hclock⟩ | ⟨hnot, hsettlement⟩
    · exact hclocked.step_readBack hchange hstep rfl hclock
    · rcases hok with ⟨q, seconds', retryAt', hq, hseconds', hretryAt', hretry⟩ | hok
      · -- the call does not retry, so the first alternative cannot be
        rw [hr] at hq
        cases hq
        rw [hseconds] at hseconds'
        cases hseconds'
        rw [hretryAt] at hretryAt'
        cases hretryAt'
        rw [hnot] at hretry
        cases hretry
      · exact ((SweepOk.onTime hok hs.1 hclocked).settlement hs.2 hsettlement
          (.inl ⟨rfl, rfl⟩)).clocked
  | cancel i reasonCode reasonDetail now | invalidate i reasonCode reasonDetail now =>
    obtain ⟨item, hdirect⟩ := map_snd_eq_ok.mp h
    exact directTerminal_clocked rfl (by decide) hdirect hs hclocked hok
  | skip i state reasonCode reasonDetail now =>
    obtain ⟨item, hskip⟩ := map_snd_eq_ok.mp h
    unfold skip at hskip
    split at hskip
    · cases hskip
    · have hdirect : state.isDirect = true ∧ state.isSuccessful = true := by
        cases state <;> simp_all [WorkItemState.isDirect, WorkItemState.isSuccessful]
      refine directTerminal_clocked hdirect.1 (by decide) hskip hs hclocked ?_
      rw [hdirect.2]
      exact hok
  | reconcileExactDueState i now =>
    obtain ⟨n, hexact⟩ := map_snd_eq_ok.mp h
    obtain ⟨_, s₁, _, s₂, hexpire, hrecover, hcascade, _⟩ := reconcileExactDueState_spec hexact
    have hsteps := ((expireHardDeadlines_steps hexpire).trans
      (recoverExpiredLeases_steps hrecover)).trans hcascade.steps
    exact ((SweepOk.onTime hok hs.1 hclocked).sweep hsteps).clocked

/-- In a run whose calls all meet `ClockOk`, every row is readable in every
state. -/
theorem rows_readable (h : Reach SchedulerOp.run SchedulerOp.ClockOk WorkLedger.empty s) :
    ∀ r ∈ s.items.rows, r.validateStateShape = .ok () ∧ ∃ item, itemFromRow r = .ok item := by
  have hboth : s.Sound ∧ s.Clocked := by
    refine h.invariant (fun s => s.Sound ∧ s.Clocked) ⟨empty_sound, ?_⟩ ?_
    · intro j r hr
      cases hr
    · intro op s s' hs hok hrun
      exact ⟨run_sound hrun hs.1, run_clocked hrun hs.1 hs.2 hok⟩
  intro r hr
  have hrow := mem_items_iff.mp hr
  have hreadable := And.intro (hboth.1.1.items _ r hrow).shape (hboth.2 _ r hrow).ordered
  exact ⟨r.validateStateShape_eq_ok_iff.mpr hreadable, itemFromRow_readable_iff.mpr hreadable⟩

theorem sweepOk_of_createdBy {extra : OpaqueUuid → Bool → Prop}
    (h : ∀ r ∈ s.items.rows, r.CreatedBy now) : SweepOk now extra s :=
  ⟨fun _ _ hr _ => h _ (KeyedTable.mem_of_find? hr),
    fun _ _ hr _ _ => h _ (KeyedTable.mem_of_find? hr)⟩

end WorkLedger

/-! ## A lagging heartbeat -/

/-- The fencing token of the sample runs. -/
def sampleToken : NonEmptyString := ⟨"token", by decide⟩

/-- The lease of a claim of item 1 at instant 10 for one second. -/
def sampleLease : WorkLease where
  workItemId := 1
  workerId := ⟨"worker", by decide⟩
  leaseEpoch := 1
  fencingToken := sampleToken
  leaseExpiresAt := formatTimestamp 1000010
  leaseEpoch_pos := Nat.one_pos

/-- Item 1, created at instant 10, is claimed at instant 10. -/
def sampleClaim : List SchedulerOp :=
  [.plan (sampleUpstream 10 none) [], .claim "worker" 1 (some 1) 10 true sampleToken]

/-- A worker whose clock reads 5 renews the lease of an item created at 10. -/
theorem rows_readable_fails :
    ¬ ∀ s, Reachable s → ∀ r ∈ s.items.rows, ∃ item, itemFromRow r = .ok item := by
  intro h
  have hreadable := h _ (reach_replay (sampleClaim ++ [.heartbeat sampleLease 1 5]) .start)
  have hordered : ∀ r ∈ (replay SchedulerOp.run (sampleClaim ++ [.heartbeat sampleLease 1 5])
      WorkLedger.empty).items.rows, r.ClockOrdered := by
    intro r hr
    exact (itemFromRow_readable_iff.mp (hreadable r hr)).2
  revert hordered
  decide +kernel

/-- The same renewal by a worker whose clock reads 20. -/
theorem rows_readable_of_heartbeat :
    let s := replay SchedulerOp.run (sampleClaim ++ [.heartbeat sampleLease 1 20]) WorkLedger.empty
    (s.item? 1).map (fun r => (r.state, parseTimestamp r.updatedAt)) = some (.running, 20) ∧
      ∀ r ∈ s.items.rows, r.validateStateShape = .ok () ∧ ∃ item, itemFromRow r = .ok item := by
  have hadmitted : Admitted SchedulerOp.run SchedulerOp.ClockOk
      (sampleClaim ++ [.heartbeat sampleLease 1 20]) WorkLedger.empty := by
    refine ⟨trivial, WorkLedger.sweepOk_of_createdBy (by decide +kernel), ?_, trivial⟩
    intro r hr
    have hall : ∀ r ∈ (replay SchedulerOp.run sampleClaim WorkLedger.empty).items.rows,
        r.CreatedBy 20 := by decide +kernel
    exact hall r (KeyedTable.mem_of_find? hr)
  exact ⟨by decide +kernel, WorkLedger.rows_readable (reach_of_admitted _ hadmitted .start)⟩

end Robata.Queue
