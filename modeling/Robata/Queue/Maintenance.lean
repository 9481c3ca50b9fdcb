import Robata.Queue.PlanReplay

/-!
# When maintenance completes

The hard-expiry sweep reads its rows once and then ends them one after another.
Ending an item can fail a `PLANNED` item downstream of it, and if that item was
itself read as due, the sweep later tries to end it a second time and raises.
`Overtaken` says, of the ledger before the sweep, that this will happen.  On a
ledger whose rows can be read it is the only way for maintenance to fail.
-/

namespace Robata.Queue

open Lib Relation List

theorem RowStep.unsuccessful {now : Int} {ended failure : Prop} {r r' : WorkRow}
    (h : RowStep now False ended failure r r') : r'.state.isSuccessful = false := by
  cases h with
  | claim hcalled | start hcalled | renew hcalled | succeed hcalled | fail hcalled | wait hcalled
  | direct hcalled => exact hcalled.elim
  | _ => rfl

namespace WorkLedger

variable {now : Int} {called : OpaqueUuid → Prop} {seed : OpaqueUuid → Bool → Prop}
  {s s' : WorkLedger}

/-- The rows of the given items and of their dependants can be read, and every row was created
by `now`. -/
structure InOrder (now : Int) (items : OpaqueUuid → Prop) (s : WorkLedger) : Prop where
  inv : LedgerInv s
  closed : s.ClosedUnder items
  ordered : ∀ j r, items j → s.item? j = some r → r.ClockOrdered
  created : ∀ j r, s.item? j = some r → r.CreatedBy now

variable {items : OpaqueUuid → Prop}

theorem InOrder.step (h : InOrder now items s) (hstep : LedgerStep now called s s') :
    InOrder now items s' := by
  have hcreated : ∀ j r', s'.item? j = some r' → r'.CreatedBy now := by
    intro j r' hr'
    rcases hstep.row_before hr' with hsame | ⟨r, hitem⟩
    · exact h.created j r' hsame
    · exact hitem.row.createdBy_iff.mpr (h.created j r hitem.before)
  refine ⟨hstep.inv h.inv, ?_, ?_, hcreated⟩
  · unfold ClosedUnder
    rw [hstep.deps_eq]
    exact h.closed
  intro j r' hj hr'
  rcases hstep.row_before hr' with hsame | ⟨r, hitem⟩
  · exact h.ordered j r' hj hsame
  · unfold WorkRow.ClockOrdered
    rw [hitem.row.updatedAt_eq, parseTimestamp_formatTimestamp]
    exact hcreated j r' hr'

theorem inOrder_sweepSafe : SweepSafe now items (InOrder now items) :=
  ⟨fun _ h => h.inv, fun _ h => h.closed, fun _ j r h => h.ordered j r,
    fun _ _ h hstep => h.step hstep⟩

/-! ## The forecast and what comes true of it -/

/-- Item `j` has ended, successfully or not. -/
def Ended (s : WorkLedger) (j : OpaqueUuid) (ok : Bool) : Prop :=
  ∃ r, s.item? j = some r ∧ r.state.isTerminal = true ∧ r.state.isSuccessful = ok

variable {j : OpaqueUuid}

theorem Ended.steps {ok : Bool} (h : s.Ended j ok) (hinv : LedgerInv s)
    (hsteps : Steps now called s s') : s'.Ended j ok := by
  obtain ⟨r, hr, hterminal, hok⟩ := h
  have hrow : LedgerInv s' ∧ s'.item? j = some r := by
    induction hsteps with
    | refl => exact ⟨hinv, hr⟩
    | tail _ hlast ih => exact ⟨hlast.inv ih.1, hlast.terminal_frozen ih.1 ih.2 hterminal⟩
  exact ⟨r, hrow.2, hterminal, hok⟩

theorem Steps.unsuccessful (h : Steps now nobody s s') {r : WorkRow}
    (hr : s.item? j = some r) (hopen : r.state.isSuccessful = false) :
    ∃ r', s'.item? j = some r' ∧ r'.state.isSuccessful = false := by
  induction h with
  | refl => exact ⟨r, hr, hopen⟩
  | tail _ hlast ih =>
    obtain ⟨q, hq, hfailed⟩ := ih
    rcases hlast.items j with hsame | ⟨_, q', hitem⟩
    · exact ⟨q, hsame.1.trans hq, hfailed⟩
    · exact ⟨q', hitem.after, hitem.row.unsuccessful⟩

/-- Every forecast ending has come true once the seeds have ended and the
ledger is sound again. -/
theorem Ending.comes_true (hinv : LedgerInv s) (hsteps : Steps now nobody s s') (hs' : s'.Sound)
    (hseeds : ∀ j ok, seed j ok → s'.Ended j ok) {ok : Bool}
    (h : s.Ending seed j ok) : s'.Ended j ok := by
  induction h with
  | ended row terminal => exact Ended.steps ⟨_, row, terminal, rfl⟩ hinv hsteps
  | seeded hseed => exact hseeds _ _ hseed
  | @cascade j r row planned flags _ d edge downstream required _ ihup ihfailed =>
    obtain ⟨r', hr', hfailed⟩ := Steps.unsuccessful hsteps row (by rw [planned]; rfl)
    have hdeps := Steps.deps_eq hsteps
    have hended : s'.UpstreamEnded j := by
      rw [upstreamEnded_def, hdeps]
      intro e he hdown u hu
      obtain ⟨u', hu', hterminal, _⟩ := ihup e he hdown
      rw [hu] at hu'
      cases hu'
      exact hterminal
    have hfailure : s'.RequiredFailure j := by
      rw [requiredFailure_def, hdeps]
      obtain ⟨u, hu, _, hflag⟩ := ihfailed
      exact ⟨d, edge, downstream, required, u, hu, hflag⟩
    refine ⟨r', hr', ?_, hfailed⟩
    -- the row is neither held back nor released, so it has ended
    cases hstate : r'.state with
    | planned => exact absurd ⟨r', hr', hstate, hended⟩ (hs'.2 j)
    | ready | leased | running | retryWait =>
      have hsupported := hs'.1.released j r' hr' (by rw [hstate]; rfl)
      exact absurd hfailure hsupported.2
    | _ => rfl

theorem Advance.seeded {i : OpaqueUuid} {state : WorkItemState}
    (h : Advance now s i (some state) s') : Seeded now nobody seed s s' := by
  intro j r r' hitem hterminal
  cases h with
  | release change _ _ _ _ =>
    obtain ⟨_, _, rfl⟩ := change.itemStep_eq hitem
    cases hterminal
  | fail change _ planned ended failure =>
    obtain ⟨rfl, rfl, rfl⟩ := change.itemStep_eq hitem
    exact .inl ⟨planned, ended, failure, rfl⟩

theorem Cascade.ending (h : Cascade now s s') (hinv : LedgerInv s) {ok : Bool}
    (hending : s'.Ending seed j ok) : s.Ending seed j ok := by
  have hall : LedgerInv s' ∧ ∀ j ok, s'.Ending seed j ok → s.Ending seed j ok := by
    clear hending
    induction h with
    | refl => exact ⟨hinv, fun _ _ h => h⟩
    | tail _ hlast ih =>
      obtain ⟨_, _, hstep⟩ := hlast
      refine ⟨hstep.ledgerStep.inv ih.1, ?_⟩
      intro j ok h
      exact ih.2 j ok (Ending.of_step hstep.ledgerStep ih.1 hstep.seeded h)
  exact hall.2 j ok hending

/-- An ending of a seed, with the refresh of its downstream, ends only what was
forecast. -/
theorem EndsItem.ending {i : OpaqueUuid} {r r' : WorkRow} (h : EndsItem now called s s' i r r')
    (hinv : LedgerInv s) (hseed : seed i r'.state.isSuccessful) {ok : Bool}
    (hending : s'.Ending seed j ok) : s.Ending seed j ok := by
  obtain ⟨s₁, n, hchange, hstep, hrefresh⟩ := h
  have hmid := (refreshPlannedForWorkIds_cascade hrefresh).ending (hstep.inv hinv) hending
  exact Ending.of_step hstep hinv (hchange.seeded fun _ => hseed) hmid

/-! ## The hard-expiry sweep -/

/-- The items of `rows` end unsuccessfully. -/
def visited (rows : List WorkRow) (j : OpaqueUuid) (ok : Bool) : Prop :=
  ok = false ∧ ∃ row ∈ rows, row.workItemId = j

/-- A due item will have been failed by the cascade of due items that come
before it in the order of the sweep. -/
def Overtaken (now : Int) (s : WorkLedger) : Prop :=
  ∃ before row after, s.hardDueRows now none = before ++ row :: after ∧
    s.Ending (visited before) row.workItemId false

/-- The sweep has ended the rows `before`, and nothing that was not forecast. -/
structure Swept (now : Int) (s : WorkLedger) (before rest : List WorkRow) (t : WorkLedger) :
    Prop where
  rows : s.hardDueRows now none = before ++ rest
  list : Worklist now (WorkRow.hardDue now) rest t
  forecast : ∀ seed, (∀ j, visited before j false → seed j false) →
    ∀ j ok, t.Ending seed j ok → s.Ending seed j ok

theorem Swept.start (now : Int) (s : WorkLedger) : Swept now s [] (s.hardDueRows now none) s :=
  ⟨rfl, s.hardDueRows_worklist now none, fun _ _ _ _ h => h⟩

theorem Swept.round {before rest : List WorkRow} {row r : WorkRow} {t t' : WorkLedger}
    (h : Swept now s before (row :: rest) t) (hinv : LedgerInv t)
    (hends : EndsItem now nobody t t' row.workItemId r
      (r.withTerminal (.ofReason .expired executionExpired none) now)) :
    Swept now s (before ++ [row]) rest t' := by
  refine ⟨?_, h.list.tail fun j q hj hq => hends.row_ne hj hq, ?_⟩
  · rw [h.rows, append_assoc]
    rfl
  · intro seed hseed j ok hending
    refine h.forecast seed ?_ j ok (hends.ending hinv ?_ hending)
    · rintro i ⟨_, q, hq, hid⟩
      exact hseed i ⟨rfl, q, mem_append_left _ hq, hid⟩
    · exact hseed _ ⟨rfl, row, mem_append_right _ (mem_singleton_self _), rfl⟩

theorem Swept.next_open {before rest : List WorkRow} {row r : WorkRow} {t : WorkLedger}
    (h : Swept now s before (row :: rest) t) (hfree : ¬ s.Overtaken now) (hshape : row.Shape)
    (hr : t.item? row.workItemId = some r) (hcascaded : Cascaded now row r) :
    r.state.isTerminal = false := by
  cases hcascaded with
  | same => exact open_of_hardDue hshape (h.list.due row mem_cons_self)
  | released _ => rfl
  | failed _ =>
    exfalso
    apply hfree
    refine ⟨before, row, rest, h.rows, ?_⟩
    exact h.forecast _ (fun _ hj => hj) _ _ (.ended hr rfl)

theorem expireHardDeadlines_completes (h : InOrder now items s)
    (hread : ∀ row ∈ s.hardDueRows now none, items row.workItemId) (hfree : ¬ s.Overtaken now) :
    ∃ out, s.expireHardDeadlines now none = .ok out := by
  have hloop := foldlM_completes (f := expireRow now)
    (fun rest (acc : Nat × WorkLedger) =>
      InOrder now items acc.2 ∧ ∃ before, Swept now s before rest acc.2) ?_
    (s.hardDueRows now none) (0, s) ⟨h, [], .start now s⟩
  · obtain ⟨out, hout, _⟩ := hloop
    exact ⟨out, hout⟩
  · rintro row rest ⟨n, t⟩ ⟨hin, before, hswept⟩
    have hmem : row ∈ s.hardDueRows now none := by
      rw [hswept.rows]
      exact mem_append_right _ mem_cons_self
    have hrow := (mem_hardDueRows.mp hmem).1
    have hdue := hswept.list.due row mem_cons_self
    have hshape := (h.inv.items _ row hrow).shape
    obtain ⟨r, hr, hcascaded⟩ := hswept.list.snapshot row mem_cons_self
    obtain ⟨⟨n', t'⟩, hround⟩ := expireRow_completes hin.inv hdue hshape
      (h.ordered _ row (hread row hmem) hrow) hr hcascaded
      (hswept.next_open hfree hshape hr hcascaded) fun t₁ _ hstep =>
        inOrder_sweepSafe.refreshDownstream_completes (inOrder_sweepSafe.step _ _ hin hstep)
          (hread row hmem)
    obtain ⟨r', _, _, _, _, hends⟩ := expireRow_spec hround hdue ⟨r, hr, hcascaded⟩
    exact ⟨(n', t'), hround, inOrder_sweepSafe.steps hin hends.steps, before ++ [row],
      hswept.round hin.inv hends⟩

theorem expireRows_ended {before rest : List WorkRow} {n : Nat} (hinv : LedgerInv s)
    (hlist : Worklist now (WorkRow.hardDue now) (before ++ rest) s)
    (h : before.foldlM (expireRow now) (0, s) = .ok (n, s')) :
    Worklist now (WorkRow.hardDue now) rest s' ∧ Steps now nobody s s' ∧
      (s.Settled → s'.Settled) ∧ ∀ row ∈ before, s'.Ended row.workItemId false := by
  have hloop := foldlM_invariant
    (fun todo (acc : Nat × WorkLedger) => ∃ done, before = done ++ todo ∧
      Worklist now (WorkRow.hardDue now) (todo ++ rest) acc.2 ∧ Steps now nobody s acc.2 ∧
      (s.Settled → acc.2.Settled) ∧ ∀ row ∈ done, acc.2.Ended row.workItemId false) ?_
    before (0, s) (n, s') ⟨[], rfl, hlist, .refl, id, forall_mem_nil _⟩ h
  · obtain ⟨done, hdone, hlist', hsteps, hsettled, hended⟩ := hloop
    rw [append_nil] at hdone
    subst hdone
    exact ⟨hlist', hsteps, hsettled, hended⟩
  · rintro row todo ⟨m, t⟩ ⟨m', t'⟩ ⟨done, rfl, hlist, hsteps, hsettled, hended⟩ hround
    obtain ⟨htail, r, hends⟩ := expireRow_round hlist hround
    refine ⟨done ++ [row], ?_, htail, hsteps.trans hends.steps,
      fun hs => hends.settled (hsettled hs), forall_mem_append.mpr
        ⟨fun q hq => (hended q hq).steps (Steps.inv hsteps hinv) hends.steps,
          forall_mem_singleton.mpr ?_⟩⟩
    · rw [append_assoc]
      rfl
    · exact ⟨_, hends.row_self WorkItemState.noConfusion, rfl, rfl⟩

theorem not_overtaken_of_completes {out : Nat × WorkLedger} (hs : s.Sound)
    (h : s.expireHardDeadlines now none = .ok out) : ¬ s.Overtaken now := by
  rintro ⟨before, row, after, hrows, hending⟩
  unfold expireHardDeadlines at h
  rw [hrows, foldlM_append, bind_eq_ok] at h
  obtain ⟨⟨n, t⟩, hbefore, h⟩ := h
  rw [foldlM_cons, bind_eq_ok] at h
  obtain ⟨⟨n', t'⟩, hround, _⟩ := h
  have hlist := s.hardDueRows_worklist now none
  rw [hrows] at hlist
  obtain ⟨hlist', hsteps, hsettled, hended⟩ := expireRows_ended hs.1 hlist hbefore
  have hsound : t.Sound := ⟨Steps.inv hsteps hs.1, hsettled hs.2⟩
  have htrue : t.Ended row.workItemId false := by
    refine hending.comes_true hs.1 hsteps hsound ?_
    rintro j ok ⟨rfl, q, hq, rfl⟩
    exact hended q hq
  obtain ⟨q, hq, hterminal, _⟩ := htrue
  obtain ⟨r, hr, _, hdue, _⟩ := expireRow_spec hround (hlist'.due row mem_cons_self)
    (hlist'.snapshot row mem_cons_self)
  have hsame : r = q := Option.some.inj (hr.symm.trans hq)
  subst hsame
  rw [open_of_hardDue (hsound.1.items _ r hr).shape hdue] at hterminal
  cases hterminal

/-! ## The other phases -/

theorem recoverExpiredLeases_completes (h : InOrder now items s)
    (hread : ∀ row ∈ s.leaseDueRows now none, items row.workItemId) :
    ∃ out, s.recoverExpiredLeases now none = .ok out := by
  have hloop := foldlM_completes (f := recoverRow now)
    (fun rest (acc : Nat × WorkLedger) => InOrder now items acc.2 ∧
      Worklist now (WorkRow.leaseDue now) rest acc.2 ∧ ∀ row ∈ rest, items row.workItemId) ?_
    (s.leaseDueRows now none) (0, s) ⟨h, s.leaseDueRows_worklist now none, hread⟩
  · obtain ⟨out, hout, _⟩ := hloop
    exact ⟨out, hout⟩
  · rintro row rest ⟨n, t⟩ ⟨hin, hlist, hread⟩
    have hitem := hread row mem_cons_self
    have hdue := hlist.due row mem_cons_self
    have hr := hlist.leased
    obtain ⟨⟨n', t'⟩, hround⟩ := recoverRow_completes hin.inv hdue
      (hin.ordered _ row hitem hr) hr fun _ t₁ _ hstep =>
        inOrder_sweepSafe.refreshDownstream_completes (inOrder_sweepSafe.step _ _ hin hstep) hitem
    obtain ⟨htail, hrecovery⟩ := recoverRow_round hlist hround
    exact ⟨(n', t'), hround, inOrder_sweepSafe.steps hin hrecovery.steps, htail,
      fun q hq => hread q (mem_cons_of_mem _ hq)⟩

/-- The second half of `_maintain` with `refresh_all_planned` set. -/
theorem maintain_all_eq (s : WorkLedger) (now : Int) :
    s.maintain now true = s.maintain now false >>= fun out => refreshPlanned now out.1 out.2 := by
  unfold maintain
  cases s.expireHardDeadlines now none with
  | error e => rfl
  | ok expired =>
    rw [ok_bind, ok_bind]
    cases expired.2.recoverExpiredLeases now none <;> rfl

theorem Sound.maintain_idle (hs : s.Sound) (hquiet : ∀ r ∈ s.items.rows, r.Quiet now)
    (refreshAll : Bool) : s.maintain now refreshAll = .ok (0, s) := by
  cases refreshAll with
  | false => exact WorkLedger.maintain_idle hquiet
  | true =>
    rw [maintain_all_eq, WorkLedger.maintain_idle hquiet]
    exact hs.refreshPlanned_noop now 0

theorem row_before_sweep (hsteps : Steps now nobody s s') {r : WorkRow}
    (hr : s'.item? j = some r) (hstate : r.state.isActive = true ∨ r.state = .succeeded) :
    s.item? j = some r := by
  induction hsteps with
  | refl => exact hr
  | tail _ hlast ih =>
    rcases hlast.row_before hr with hsame | ⟨q, hitem⟩
    · exact ih hsame
    · cases hitem.row with
      | claim hcalled | start hcalled | renew hcalled | succeed hcalled | fail hcalled
      | wait hcalled | direct hcalled => exact hcalled.elim
      | _ => rcases hstate with hactive | hsucceeded <;> contradiction

/-- The items whose rows a sweep may read: what is due, and what depends on it. -/
inductive Exposed (now : Int) (s : WorkLedger) : OpaqueUuid → Prop
  | due {r : WorkRow} (row : r ∈ s.items.rows)
      (due : r.hardDue now = true ∨ r.leaseDue now = true) : Exposed now s r.workItemId
  | dependant {d : WorkDependency} (edge : d ∈ s.deps.rows)
      (upstream : Exposed now s d.upstreamWorkItemId) : Exposed now s d.downstreamWorkItemId

/-- On a reachable ledger whose rows were created by `now`, and of which the sweep can read those
it may read, maintenance completes exactly when the hard-expiry sweep overtakes no row. -/
theorem maintenance_completes_iff (h : Reachable s) (now : Int) (refreshAll : Bool)
    (hcreated : ∀ r ∈ s.items.rows, r.CreatedBy now)
    (hordered : ∀ r ∈ s.items.rows, s.Exposed now r.workItemId → r.ClockOrdered) :
    (∃ out, s.maintain now refreshAll = .ok out) ↔ ¬ s.Overtaken now := by
  have hs : s.Sound := reach_sound h
  have hin : InOrder now (s.Exposed now) s := by
    refine ⟨hs.1, fun d => .dependant, fun j r hj hr => ?_,
      fun _ r hr => hcreated r (KeyedTable.mem_of_find? hr)⟩
    rw [← workItemId_of_item? hr] at hj
    exact hordered r (KeyedTable.mem_of_find? hr) hj
  unfold maintain
  constructor
  · rintro ⟨out, hout⟩
    obtain ⟨expired, hexpire, _⟩ := bind_eq_ok.mp hout
    exact not_overtaken_of_completes hs hexpire
  · intro hfree
    obtain ⟨⟨n, s₁⟩, hexpire⟩ := expireHardDeadlines_completes hin (fun row hrow => by
      obtain ⟨hitem, hdue⟩ := mem_hardDueRows.mp hrow
      exact .due (KeyedTable.mem_of_find? hitem) (.inl hdue)) hfree
    have hsteps₁ := expireHardDeadlines_steps hexpire
    have hin₁ := inOrder_sweepSafe.steps hin hsteps₁
    -- the hard-expiry sweep has made no lease, so a lease that is due now was due before
    obtain ⟨⟨m, s₂⟩, hrecover⟩ := recoverExpiredLeases_completes hin₁ fun row hrow => by
      obtain ⟨hitem, hdue⟩ := mem_leaseDueRows.mp hrow
      have hbefore := row_before_sweep hsteps₁ hitem (.inl (isActive_of_leaseDue hdue).1)
      exact .due (KeyedTable.mem_of_find? hbefore) (.inr hdue)
    have hs₂ : s₂.Sound := (sweeps_moves hexpire hrecover hs).sound hs
    have hs₃ : (s₂.releaseRetries now).Sound :=
      ⟨(s₂.releaseRetries_ledgerStep now).inv hs₂.1, releaseRetries_settled hs₂.2⟩
    rw [hexpire, ok_bind, hrecover]
    split
    · exact ⟨_, hs₃.refreshPlanned_noop now _⟩
    · exact ⟨_, rfl⟩

/-! ## What maintenance leaves -/

theorem hardDue_before_sweep (hsteps : Steps now nobody s s') {r' : WorkRow}
    (hr' : s'.item? j = some r') (hdue : r'.hardDue now = true) :
    ∃ r, s.item? j = some r ∧ r.hardDue now = true := by
  induction hsteps generalizing r' with
  | refl => exact ⟨r', hr', hdue⟩
  | tail _ hlast ih =>
    rcases hlast.row_before hr' with hsame | ⟨q, hitem⟩
    · exact ih hsame hdue
    · exact ih hitem.before (hardDue_of_step hitem.row hdue)

variable {n : Nat} {r : WorkRow}

theorem not_hardDue_of_expire (hinv : LedgerInv s) (h : s.expireHardDeadlines now none = .ok (n, s'))
    (hr : s'.item? j = some r) : r.hardDue now = false := by
  refine Bool.eq_false_iff.mpr fun hdue => ?_
  obtain ⟨q, hq, hwas⟩ := hardDue_before_sweep (expireHardDeadlines_steps h) hr hdue
  have hid := workItemId_of_item? hq
  subst hid
  have hlist := s.hardDueRows_worklist now none
  rw [← append_nil (s.hardDueRows now none)] at hlist
  obtain ⟨_, hsteps, _, hended⟩ := expireRows_ended hinv hlist h
  obtain ⟨q', hq', hterminal, _⟩ := hended q (mem_hardDueRows.mpr ⟨hq, hwas⟩)
  cases hr.symm.trans hq'
  rw [open_of_hardDue ((Steps.inv hsteps hinv).items _ r hr).shape hdue] at hterminal
  cases hterminal

theorem not_leaseDue_of_recover (h : s.recoverExpiredLeases now none = .ok (n, s'))
    (hr : s'.item? j = some r) : r.leaseDue now = false := by
  refine Bool.eq_false_iff.mpr fun hdue => ?_
  have hbefore := row_before_sweep (recoverExpiredLeases_steps h) hr
    (.inl (isActive_of_leaseDue hdue).1)
  -- the round that visits the row raises its version
  obtain ⟨u, u', hfirst, hround, hlast⟩ := recoverExpiredLeases_visits h hbefore hdue
  obtain ⟨q, q', hq, hq', hversion⟩ := hround.changed
  obtain ⟨_, hu, hlater⟩ := Steps.later hfirst hbefore
  obtain ⟨_, hu', hlater'⟩ := Steps.later hlast hq'
  cases hq.symm.trans hu
  cases hr.symm.trans hu'
  have hle := hlater.version
  have hle' := hlater'.version
  omega

theorem quiet_after_sweeps (hinv : LedgerInv s) (h : s.maintain now false = .ok (n, s'))
    (hr : s'.item? j = some r) : r.Quiet now := by
  obtain ⟨⟨_, s₁⟩, hexpire, h⟩ := bind_eq_ok.mp h
  obtain ⟨⟨_, s₂⟩, hrecover, h⟩ := bind_eq_ok.mp h
  cases h
  have hrelease := ReflTransGen.single (s₂.releaseRetries_ledgerStep now)
  refine ⟨Bool.eq_false_iff.mpr fun hdue => ?_, Bool.eq_false_iff.mpr fun hdue => ?_, ?_⟩
  · obtain ⟨q, hq, hwas⟩ := hardDue_before_sweep
      ((recoverExpiredLeases_steps hrecover).trans hrelease) hr hdue
    rw [not_hardDue_of_expire hinv hexpire hq] at hwas
    cases hwas
  · have hbefore := row_before_sweep hrelease hr (.inl (isActive_of_leaseDue hdue).1)
    rw [not_leaseDue_of_recover hrecover hbefore] at hdue
    cases hdue
  · rw [item?_releaseRetries, Option.map_eq_some_iff] at hr
    obtain ⟨q, _, rfl⟩ := hr
    split
    · rfl
    · exact Bool.eq_false_of_not_eq_true ‹_›

/-- What follows the end of an item changes nothing exactly when the dependants of the item
are held back, no row is due, and what has to be read back can be. -/
theorem settle_idle_iff (hinv : LedgerInv s) :
    (∃ item, s.settle i now = .ok (item, s)) ↔
      (∀ k ∈ s.downstreamIds i, (∃ r, s.item? k = some r ∧ r.ClockOrdered) ∧ ¬ s.Stuck k) ∧
        (∀ r ∈ s.items.rows, r.Quiet now) ∧ ∃ r, s.item? i = some r ∧ r.ClockOrdered := by
  constructor
  · rintro ⟨item, h⟩
    obtain ⟨⟨n, t⟩, hrefresh, h⟩ := bind_eq_ok.mp h
    obtain ⟨⟨m, u⟩, hmaintain, h⟩ := bind_eq_ok.mp h
    obtain ⟨loaded, hload, h⟩ := bind_eq_ok.mp h
    have hu : u = s := congrArg Prod.snd (Except.ok.inj h)
    rw [hu] at hmaintain hload
    have hcascade := (refreshPlannedForWorkIds_cascade hrefresh).steps
    have hback := maintain_evolves hmaintain
    refine ⟨?_, fun r hr =>
      quiet_after_sweeps (Steps.inv hcascade hinv) hmaintain (mem_items_iff.mp hr), loaded.row,
      clockOrdered_of_loadItem hload⟩
    intro k hk
    have hqueued : k ∈ ([i].flatMap s.downstreamIds).eraseDups := by
      simpa using hk
    obtain ⟨v, v', transition, hbefore, hadvance, hafter⟩ := refreshPending_visits hrefresh hqueued
    have hspec := advancePlannedItem_spec hadvance
    have hv : Between now s v := by
      refine ⟨hbefore, ReflTransGen.trans ?_ (ReflTransGen.trans hafter hback)⟩
      cases transition with
      | none =>
        cases hspec
        exact .refl
      | some state => exact .single hspec.ledgerStep
    -- the visit itself cannot have moved the row
    cases transition with
    | some state =>
      refine (hv.not_round ⟨.single hspec.ledgerStep, ?_⟩
        (ReflTransGen.trans hafter hback) (i := k)).elim
      cases hspec with
      | release change _ _ _ _ | fail change _ _ _ _ =>
        exact ⟨_, _, change.before, change.after_self, rfl⟩
    | none =>
      cases hspec with
      | idle held =>
        obtain ⟨read, hread, _⟩ := bind_eq_ok.mp hadvance
        obtain ⟨hitem, hclock⟩ := clockOrdered_of_loadItem hread
        rw [hv.item?] at hitem
        exact ⟨⟨read.row, hitem, hclock⟩, fun hstuck => held (hv.stuck_iff.mpr hstuck)⟩
  · rintro ⟨hdown, hquiet, r, hr, hclock⟩
    have hrefresh : s.refreshDownstreamForUpstreams now [i] = .ok (0, s) := by
      refine refreshPending_idle hinv ?_
      intro k hk
      exact hdown k (by simpa using hk)
    obtain ⟨item, hload, _⟩ := loadItem_completes hr (hinv.items i r hr).shape hclock
    refine ⟨item, ?_⟩
    unfold settle
    rw [hrefresh, ok_bind, maintain_idle hquiet, ok_bind, hload, ok_bind]

theorem Sound.maintain_sweeps (hs : s.Sound) {refreshAll : Bool}
    (h : s.maintain now refreshAll = .ok (n, s')) : s.maintain now false = .ok (n, s') := by
  cases refreshAll with
  | false => exact h
  | true =>
    rw [maintain_all_eq] at h
    obtain ⟨⟨m, t⟩, hsweeps, hrefresh⟩ := bind_eq_ok.mp h
    have ht := (maintain_moves hsweeps hs).sound hs
    cases (ht.refreshPlanned_noop now m).symm.trans hrefresh
    exact hsweeps

/-- Maintenance leaves nothing due: a second sweep at the same instant finds nothing to do. -/
theorem maintain_idempotent (h : Reachable s) {refreshAll : Bool}
    (hmaintain : s.maintain now refreshAll = .ok (n, s')) (again : Bool) :
    (∀ r ∈ s'.items.rows, r.Quiet now) ∧ s'.maintain now again = .ok (0, s') := by
  have hs := reach_sound h
  have hquiet : ∀ r ∈ s'.items.rows, r.Quiet now := fun r hr =>
    quiet_after_sweeps hs.1 (hs.maintain_sweeps hmaintain) (mem_items_iff.mp hr)
  exact ⟨hquiet, ((maintain_moves hmaintain hs).sound hs).maintain_idle hquiet again⟩

end WorkLedger

/-- Item 1 expires at instant 20, and item 2, which requires it, at instant 30. -/
def sampleDeadlines : List SchedulerOp :=
  [.plan (sampleUpstream 10 (some 20)) [], .plan (sampleDownstream 10 (some 30)) [sampleEdge]]

/-- The first sweep after both deadlines raises: the end of item 1 fails item 2,
and the sweep goes on to expire item 2. -/
theorem maintenance_completes_fails :
    ¬ ∀ s, Reachable s → ∀ now refreshAll,
      (∀ r ∈ s.items.rows, r.ClockOrdered ∧ parseTimestamp r.updatedAt ≤ now) →
      ∃ out, s.maintain now refreshAll = .ok out := by
  intro h
  obtain ⟨out, hout⟩ := h (replay SchedulerOp.run sampleDeadlines WorkLedger.empty)
    (reach_replay _ .start) 35 true (by decide +kernel)
  have herror : (replay SchedulerOp.run sampleDeadlines WorkLedger.empty).maintain 35 true =
      .error (.state "work became terminal before the requested transition") := by decide +kernel
  rw [herror] at hout
  cases hout

/-- A sweep between the two deadlines completes. -/
theorem maintenance_completes_between :
    ∃ out, (replay SchedulerOp.run sampleDeadlines WorkLedger.empty).maintain 25 true = .ok out := by
  have hall : ∀ r ∈ (replay SchedulerOp.run sampleDeadlines WorkLedger.empty).items.rows,
      r.CreatedBy 25 ∧ r.ClockOrdered := by decide +kernel
  refine (WorkLedger.maintenance_completes_iff (reach_replay _ .start) 25 true
    (fun r hr => (hall r hr).1) fun r hr _ => (hall r hr).2).mpr ?_
  rintro ⟨before, row, after, hrows, hending⟩
  have hone : ((replay SchedulerOp.run sampleDeadlines WorkLedger.empty).hardDueRows 25 none).map
      (fun r => (r.workItemId, r.state)) = [(1, .ready)] := by decide +kernel
  rw [hrows] at hone
  -- item 1 comes first, is `READY` and has no upstream work
  have hnil : before = [] := by
    have hlength := congrArg List.length hone
    simp only [length_map, length_append, length_cons, length_nil] at hlength
    exact length_eq_zero_iff.mp (by omega)
  subst hnil
  have hhead : (row.workItemId = 1 ∧ row.state = .ready) ∧ after = [] := by simpa using hone
  rw [hhead.1.1] at hending
  have hstate : ((replay SchedulerOp.run sampleDeadlines WorkLedger.empty).item? 1).map
      (·.state) = some .ready := by decide +kernel
  obtain ⟨q, hq, hready⟩ := Option.map_eq_some_iff.mp hstate
  generalize false = ok at hending
  cases hending with
  | ended row terminal =>
    rw [hq] at row
    cases row
    rw [hready] at terminal
    cases terminal
  | seeded hseed =>
    obtain ⟨_, _, hmem, _⟩ := hseed
    cases hmem
  | cascade row planned =>
    rw [hq] at row
    cases row
    rw [hready] at planned
    cases planned

/-- The sweep at 25 has ended item 1, and a sweep after it ends nothing more. -/
theorem maintain_idempotent_between : ∃ n s,
    (replay SchedulerOp.run sampleDeadlines WorkLedger.empty).maintain 25 true = .ok (n, s) ∧
      (∀ r ∈ s.items.rows, r.Quiet 25) ∧ s.maintain 25 true = .ok (0, s) := by
  have hok : ((replay SchedulerOp.run sampleDeadlines WorkLedger.empty).maintain 25 true).isOk :=
    by decide +kernel
  cases hmaintain : (replay SchedulerOp.run sampleDeadlines WorkLedger.empty).maintain 25 true with
  | error e =>
    rw [hmaintain] at hok
    cases hok
  | ok out =>
    exact ⟨out.1, out.2, rfl, WorkLedger.maintain_idempotent (reach_replay _ .start) hmaintain true⟩

end Robata.Queue
