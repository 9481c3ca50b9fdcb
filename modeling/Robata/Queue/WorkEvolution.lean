import Robata.Queue.WorkInvariants

/-!
# Ledgers that another component writes to

The scheduler leaves no `PLANNED` item behind whose upstream work has ended.  A component
that ends items with statements of its own may, so nothing here assumes a settled ledger:
an operation makes steps and insertions all the same, and a row that changes has its
version raised, so a run that comes back to a row has not changed it.
-/

namespace Robata.Queue

open Lib Relation List

/-- Maintenance at `now` has nothing to do with the row. -/
def WorkRow.Quiet (now : Int) (r : WorkRow) : Prop :=
  r.hardDue now = false ∧ r.leaseDue now = false ∧ r.retryDue now = false

variable {r : WorkRow}

theorem WorkRow.quiet_of_terminal (now : Int) (hshape : r.Shape)
    (hended : r.state.isTerminal = true) : r.Quiet now := by
  have hcompleted := hshape.completed_iff.mp hended
  refine ⟨?_, ?_, ?_⟩
  · simp [hardDue, Option.isNone_eq_false_iff.mpr hcompleted]
  · cases hactive : r.state.isActive
    · simp [leaseDue, hactive]
    · rw [WorkItemState.not_isTerminal_of_isActive hactive] at hended
      cases hended
  · have hstate : r.state ≠ .retryWait := by
      intro hwait
      rw [hwait] at hended
      cases hended
    simp [retryDue, hstate]

/-- The plans an operation may insert. -/
def SchedulerOp.plans : SchedulerOp → List (WorkItemPlan × List WorkDependency)
  | .plan value dependencies => [(value, dependencies)]
  | .planMany plans => plans
  | _ => []

namespace WorkLedger

variable {now : Int} {called : OpaqueUuid → Prop} {s s' : WorkLedger}

/-! ## Operations as steps -/

variable {n : Nat}

theorem scan_steps (h : s.plannedIds.foldlM (scanRow now) (0, s) = .ok (n, s')) :
    Steps now nobody s s' :=
  scan_invariant (fun acc => Steps now nobody s acc.2)
    (fun _ _ _ _ hacc hspec => ReflTransGen.tail hacc hspec.ledgerStep) .refl h

variable {changed : Nat}

theorem refreshPlanned_steps {changed' : Nat}
    (h : refreshPlanned now changed s = .ok (changed', s')) : Steps now nobody s s' := by
  fun_induction refreshPlanned now changed s with
  | case1 => cases h
  | case2 changed s s₁ hscan =>
    cases h
    exact scan_steps hscan
  | case3 changed s passChanged s₁ hscan ih => exact ReflTransGen.trans (scan_steps hscan) (ih h)

theorem maintain_evolves {refreshAll : Bool} (h : s.maintain now refreshAll = .ok (n, s')) :
    Steps now nobody s s' := by
  obtain ⟨expired, hexpire, h⟩ := bind_eq_ok.mp h
  obtain ⟨recovered, hrecover, h⟩ := bind_eq_ok.mp h
  have hsteps := sweeps_steps hexpire hrecover
  split at h
  · exact ReflTransGen.trans hsteps (refreshPlanned_steps h)
  · cases h
    exact hsteps

/-- The ledger changes by steps, and by insertions of these plans. -/
def EvolvesBy (plans : List (WorkItemPlan × List WorkDependency)) :
    WorkLedger → WorkLedger → Prop :=
  ReflTransGen fun s s' => (∃ now called, LedgerStep now called s s') ∨
    ∃ p ∈ plans, PlanInsert p.1 p.2 s s'

section EvolvesBy

variable {plans : List (WorkItemPlan × List WorkDependency)}

theorem EvolvesBy.evolves (h : EvolvesBy plans s s') : Evolves s s' := by
  refine ReflTransGen.mono (fun _ _ hone => ?_) _ _ h
  rcases hone with hstep | ⟨p, _, hinsert⟩
  · exact .inl hstep
  · exact .inr ⟨p.1, p.2, hinsert⟩

theorem Steps.evolvesBy (h : Steps now called s s') : EvolvesBy plans s s' :=
  ReflTransGen.mono (fun _ _ hstep => .inl ⟨now, called, hstep⟩) _ _ h

theorem Inserts.evolvesBy (h : Inserts plans s s') : EvolvesBy plans s s' :=
  ReflTransGen.mono (fun _ _ hinsert => .inr hinsert) _ _ h

theorem PlanInsert.inserts {plan : WorkItemPlan} {dependencies : List WorkDependency}
    (h : PlanInsert plan dependencies s s') : Inserts [(plan, dependencies)] s s' :=
  .single ⟨(plan, dependencies), mem_singleton_self _, h⟩

/-- An item that is there afterwards was there with the same plan, or is one of the plans. -/
theorem EvolvesBy.item_origin (h : EvolvesBy plans s s') {j : OpaqueUuid} {r' : WorkRow}
    (hr' : s'.item? j = some r') :
    (∃ r, s.item? j = some r ∧ r'.toWorkItemPlan = r.toWorkItemPlan) ∨
      (s.item? j = none ∧ ∃ p ∈ plans, j = p.1.workItemId ∧
        r'.toWorkItemPlan = p.1.toRow.toWorkItemPlan) := by
  induction h generalizing r' with
  | refl => exact .inl ⟨r', hr', rfl⟩
  | @tail t t' _ hlast ih =>
    rcases hlast with ⟨now, called, hstep⟩ | ⟨p, hp, hinsert⟩
    · -- a step keeps the plan of the row it changes
      rcases hstep.row_before hr' with hsame | ⟨r, hitem⟩
      · exact ih hsame
      · rw [hitem.row.plan_eq]
        exact ih hitem.before
    · by_cases hj : j = p.1.workItemId
      · have hfresh := hinsert.fresh
        rw [← hj] at hfresh
        rw [hinsert.item?_eq, if_pos hj] at hr'
        cases hr'
        cases hold : s.item? j with
        | none => exact .inr ⟨rfl, p, hp, hj, rfl⟩
        | some r =>
          obtain ⟨r₁, hr₁, _⟩ := (Evolves.persists (EvolvesBy.evolves ‹_›)).rows j r hold
          cases hfresh.symm.trans hr₁
      · rw [hinsert.item?_of_ne hj] at hr'
        exact ih hr'

theorem Settlement.evolvesBy {i : OpaqueUuid} {r' : WorkRow} (h : Settlement now s s' i r r') :
    EvolvesBy plans s s' := by
  obtain ⟨s₁, n, q, hends, hmaintain, _, _⟩ := h
  exact ReflTransGen.trans hends.steps.evolvesBy (maintain_evolves hmaintain).evolvesBy

theorem Inserts.refresh_spec {s₁ : WorkLedger} (h : Inserts plans s s₁)
    (hrefresh : s₁.refreshPlannedForWorkIds now (plans.map fun p => p.1.workItemId) = .ok (n, s')) :
    EvolvesBy plans s s' ∧ (s.Sound → s'.Settled) := by
  refine ⟨ReflTransGen.trans h.evolvesBy
    (refreshPlannedForWorkIds_cascade hrefresh).steps.evolvesBy, fun hs => ?_⟩
  refine refreshPlannedForWorkIds_settles hrefresh fun k hk => ?_
  exact (h.stuck_cases hs.1 hk).resolve_left (hs.2 k)

theorem directTerminal_evolves {i : OpaqueUuid} {state : WorkItemState}
    {outcome : WorkAttemptOutcome} {reasonCode : String} {reasonDetail : Option String}
    {flag : Bool} {item : WorkItem} (hstate : state.isDirect = true) (houtcome : outcome ≠ .active)
    (h : s.directTerminal i state outcome reasonCode reasonDetail flag now = .ok (item, s')) :
    EvolvesBy plans s s' ∧ (s.Sound → s'.Settled) := by
  obtain ⟨_, s₁, _, s₂, hexpire, hrecover, r, _, hcases⟩ := directTerminal_spec hstate houtcome h
  have hsweeps : EvolvesBy plans s s₂ := ReflTransGen.trans
    (expireHardDeadlines_steps hexpire).evolvesBy (recoverExpiredLeases_steps hrecover).evolvesBy
  have hmoves := sweeps_moves hexpire hrecover
  rcases hcases with rfl | ⟨_, _, _, hsettlement⟩
  · exact ⟨hsweeps, fun hs => (hmoves hs).settled⟩
  · exact ⟨ReflTransGen.trans hsweeps hsettlement.evolvesBy,
      fun hs => (hsettlement.steps (hmoves hs).settled).2⟩

end EvolvesBy

/-- What an operation makes of a ledger, and that it leaves a sound one settled. -/
theorem run_spec {op : SchedulerOp} (h : op.run s = .ok s') :
    EvolvesBy op.plans s s' ∧ (s.Sound → s'.Settled) := by
  cases op with
  | plan value dependencies =>
    obtain ⟨item, hplan⟩ := map_snd_eq_ok.mp h
    rcases plan_cases hplan with rfl | ⟨s₁, n, hinsert, hrefresh⟩
    · exact ⟨.refl, (·.2)⟩
    · exact hinsert.inserts.refresh_spec hrefresh
  | planMany plans =>
    obtain ⟨items, hplan⟩ := map_snd_eq_ok.mp h
    cases plans with
    | nil =>
      cases hplan
      exact ⟨.refl, (·.2)⟩
    | cons first rest =>
      obtain ⟨s₁, n, hinserts, hrefresh⟩ := planMany_cases hplan
      exact hinserts.refresh_spec hrefresh
  | reconcile now =>
    obtain ⟨n, hmaintain⟩ := map_snd_eq_ok.mp h
    exact ⟨(maintain_evolves hmaintain).evolvesBy, fun hs => (maintain_moves hmaintain hs).settled⟩
  | claim workerId duration target now startImmediately fencingToken =>
    obtain ⟨out, hclaim⟩ := map_snd_eq_ok.mp h
    obtain ⟨n, s₁, hmaintain, hcases⟩ := claim_spec hclaim
    have hfirst : EvolvesBy [] s s₁ := (maintain_evolves hmaintain).evolvesBy
    have hmoves := maintain_moves hmaintain
    rcases hcases with ⟨rfl, -⟩ | ⟨row, next, worker, expires, hnext, _, hchange, hstep, _⟩
    · exact ⟨hfirst, fun hs => (hmoves hs).settled⟩
    · exact ⟨ReflTransGen.tail hfirst (.inl ⟨_, _, hstep⟩), fun hs =>
        hchange.settled (WorkItemState.not_isTerminal_of_isActive hnext) hstep (hmoves hs).settled⟩
  | start lease now =>
    obtain ⟨item, hstart⟩ := map_snd_eq_ok.mp h
    obtain ⟨r, _, _, hcases⟩ := start_spec hstart
    rcases hcases with rfl | ⟨_, hchange, hstep, _⟩
    · exact ⟨.refl, (·.2)⟩
    · exact ⟨.single (.inl ⟨_, _, hstep⟩), fun hs => hchange.settled rfl hstep hs.2⟩
  | heartbeat lease duration now =>
    obtain ⟨renewed, hheartbeat⟩ := map_snd_eq_ok.mp h
    obtain ⟨r, expires, _, hholds, _, hchange, hstep⟩ := heartbeat_spec hheartbeat
    have hactive := isActive_of_holdsLease hholds
    exact ⟨.single (.inl ⟨_, _, hstep⟩), fun hs =>
      hchange.settled (WorkItemState.not_isTerminal_of_isActive hactive) hstep hs.2⟩
  | succeed lease resultReference resultSha256 now =>
    obtain ⟨item, hsucceed⟩ := map_snd_eq_ok.mp h
    obtain ⟨_, _, _, _, _, _, hsettlement⟩ := succeed_spec hsucceed
    exact ⟨hsettlement.evolvesBy, fun hs => (hsettlement.steps hs.2).2⟩
  | fail lease errorCode retryable errorDetail delay now =>
    obtain ⟨item, hfail⟩ := map_snd_eq_ok.mp h
    obtain ⟨_, _, _, _, _, _, _, _, _, hcases⟩ := fail_spec hfail
    rcases hcases with ⟨_, hchange, hstep, _⟩ | ⟨_, hsettlement⟩
    · exact ⟨.single (.inl ⟨_, _, hstep⟩), fun hs => hchange.settled rfl hstep hs.2⟩
    · exact ⟨hsettlement.evolvesBy, fun hs => (hsettlement.steps hs.2).2⟩
  | cancel i reasonCode reasonDetail now | invalidate i reasonCode reasonDetail now =>
    obtain ⟨item, hdirect⟩ := map_snd_eq_ok.mp h
    exact directTerminal_evolves rfl (by decide) hdirect
  | skip i state reasonCode reasonDetail now =>
    obtain ⟨item, hskip⟩ := map_snd_eq_ok.mp h
    unfold skip at hskip
    split at hskip
    · cases hskip
    · have hdirect : state.isDirect = true := by
        cases state <;> simp_all [WorkItemState.isDirect]
      exact directTerminal_evolves hdirect (by decide) hskip
  | reconcileExactDueState i now =>
    obtain ⟨n, hexact⟩ := map_snd_eq_ok.mp h
    obtain ⟨_, s₁, _, s₂, hexpire, hrecover, hcascade, hsame⟩ := reconcileExactDueState_spec hexact
    refine ⟨ReflTransGen.trans (expireHardDeadlines_steps hexpire).evolvesBy
      (ReflTransGen.trans (recoverExpiredLeases_steps hrecover).evolvesBy hcascade.steps.evolvesBy),
      fun hs => ?_⟩
    have hmoves := sweeps_moves hexpire hrecover hs
    rw [hsame hmoves.settled]
    exact hmoves.settled

theorem run_evolvesBy {op : SchedulerOp} (h : op.run s = .ok s') : EvolvesBy op.plans s s' :=
  (run_spec h).1

theorem run_evolves {op : SchedulerOp} (h : op.run s = .ok s') : Evolves s s' :=
  (run_evolvesBy h).evolves

theorem run_moves {op : SchedulerOp} (h : op.run s = .ok s') (hs : s.Sound) : Moves s s' :=
  ⟨run_evolves h, (run_spec h).2 hs⟩

theorem run_sound {op : SchedulerOp} (h : op.run s = .ok s') (hs : s.Sound) : s'.Sound :=
  (run_moves h hs).sound hs

theorem reach_sound {admits : SchedulerOp → WorkLedger → Prop}
    (h : Reach SchedulerOp.run admits WorkLedger.empty s) : s.Sound :=
  h.invariant Sound empty_sound fun _ _ _ hs _ hrun => run_sound hrun hs

theorem reach_persists {admits : SchedulerOp → WorkLedger → Prop} (hs : s.Sound)
    (h : Reach SchedulerOp.run admits s s') : s'.Sound ∧ Evolves s s' := by
  refine h.invariant (fun t => t.Sound ∧ Evolves s t) ⟨hs, .refl⟩ ?_
  intro op t t' ht _ hrun
  have hmoves := run_moves hrun ht.1
  exact ⟨hmoves.sound ht.1, ReflTransGen.trans ht.2 hmoves.evolves⟩

/-! ## Versions -/

/-- Two rows between which steps may lie: the version tells whether any did. -/
structure Later (r r' : WorkRow) : Prop where
  version : r.rowVersion ≤ r'.rowVersion
  same : r.rowVersion = r'.rowVersion → r' = r

theorem Later.refl (r : WorkRow) : Later r r := ⟨le_rfl, fun _ => rfl⟩

theorem Later.trans {r₁ r₂ r₃ : WorkRow} (h₁ : Later r₁ r₂) (h₂ : Later r₂ r₃) : Later r₁ r₃ := by
  have hle := h₁.version
  have hle' := h₂.version
  refine ⟨by omega, ?_⟩
  intro h
  rw [h₂.same (by omega), h₁.same (by omega)]

theorem LedgerStep.later (h : LedgerStep now called s s') {j : OpaqueUuid} (hr : s.item? j = some r) :
    ∃ r', s'.item? j = some r' ∧ Later r r' := by
  rcases h.items j with hsame | ⟨q, q', hstep⟩
  · exact ⟨r, hsame.1.trans hr, .refl r⟩
  · have hq : q = r := Option.some.inj (hstep.before.symm.trans hr)
    subst hq
    have hversion := hstep.row.rowVersion_eq
    exact ⟨q', hstep.after, by omega, fun heq => by omega⟩

theorem Steps.later (h : Steps now called s s') {j : OpaqueUuid} (hr : s.item? j = some r) :
    ∃ r', s'.item? j = some r' ∧ Later r r' := by
  induction h with
  | refl => exact ⟨r, hr, .refl r⟩
  | tail _ hlast ih =>
    obtain ⟨r₁, hr₁, hfirst⟩ := ih
    obtain ⟨r₂, hr₂, hsecond⟩ := hlast.later hr₁
    exact ⟨r₂, hr₂, hfirst.trans hsecond⟩

/-- `t` lies on a run of sweeps from `s` back to `s`. -/
structure Between (now : Int) (s t : WorkLedger) : Prop where
  before : Steps now nobody s t
  after : Steps now nobody t s

namespace Between

variable {t u : WorkLedger}

theorem item? (h : Between now s t) (j : OpaqueUuid) : t.item? j = s.item? j := by
  cases hr : s.item? j with
  | none =>
    cases hq : t.item? j with
    | none => rfl
    | some q =>
      obtain ⟨r, hr', _⟩ := h.after.later hq
      rw [hr] at hr'
      cases hr'
  | some r =>
    obtain ⟨q, hq, hfirst⟩ := h.before.later hr
    obtain ⟨r', hr', hsecond⟩ := h.after.later hq
    rw [hr] at hr'
    cases hr'
    have hle := hfirst.version
    have hle' := hsecond.version
    rw [hq, hfirst.same (by omega)]

theorem still (ht : Between now s t) (hu : Between now s u) {i : OpaqueUuid} {r' : WorkRow}
    (hr : t.item? i = some r) (hr' : u.item? i = some r')
    (hversion : r'.rowVersion = r.rowVersion + 1) : False := by
  rw [ht.item?] at hr
  rw [hu.item?, hr] at hr'
  rw [← Option.some.inj hr'] at hversion
  omega

theorem stuck_iff (h : Between now s t) {k : OpaqueUuid} : t.Stuck k ↔ s.Stuck k := by
  unfold Stuck
  simp only [upstreamEnded_def, h.item?, h.before.deps_eq]

end Between

/-! ## What a cascade has visited -/

variable {i : OpaqueUuid}

theorem refreshPending_visits {changed' : Nat} {pending : List OpaqueUuid}
    (h : refreshPending now changed pending s = .ok (changed', s')) (hi : i ∈ pending) :
    ∃ t t' transition, Steps now nobody s t ∧
      t.advancePlannedItem i now = .ok (transition, t') ∧ Steps now nobody t' s' := by
  fun_induction refreshPending now changed pending s with
  | case1 => exact absurd hi not_mem_nil
  | case2 => cases h
  | case3 changed s j rest s₁ hadvance ih =>
    have hafter := (refreshPending_cascade h).steps
    have hspec := advancePlannedItem_spec hadvance
    rcases mem_cons.mp hi with rfl | hrest
    · exact ⟨s, s₁, none, .refl, hadvance, hafter⟩
    · cases hspec
      exact ih h hrest
  | case4 changed s j rest state s₁ hadvance _ ih =>
    have hstep := (advancePlannedItem_spec hadvance).ledgerStep
    rcases mem_cons.mp hi with rfl | hrest
    · exact ⟨s, s₁, some state, .refl, hadvance, (refreshPending_cascade h).steps⟩
    · obtain ⟨t, t', transition, hbefore, hvisit⟩ := ih h (mem_enqueue.mpr (.inl hrest))
      exact ⟨t, t', transition, ReflTransGen.head hstep hbefore, hvisit⟩
  | case5 changed s j rest state s₁ hadvance _ ih =>
    have hstep := (advancePlannedItem_spec hadvance).ledgerStep
    rcases mem_cons.mp hi with rfl | hrest
    · exact ⟨s, s₁, some state, .refl, hadvance, (refreshPending_cascade h).steps⟩
    · obtain ⟨t, t', transition, hbefore, hvisit⟩ := ih h hrest
      exact ⟨t, t', transition, ReflTransGen.head hstep hbefore, hvisit⟩

theorem refreshPending_idle (hinv : LedgerInv s) {pending : List OpaqueUuid}
    (h : ∀ k ∈ pending, (∃ r, s.item? k = some r ∧ r.ClockOrdered) ∧ ¬ s.Stuck k) :
    refreshPending now changed pending s = .ok (changed, s) := by
  induction pending with
  | nil => rw [refreshPending]
  | cons k rest ih =>
    obtain ⟨⟨r, hr, hclock⟩, hheld⟩ := h k mem_cons_self
    obtain ⟨⟨transition, s₁⟩, hadvance⟩ :=
      advancePlannedItem_completes now hr (hinv.items k r hr).shape hclock
    have hspec := advancePlannedItem_spec hadvance
    cases transition with
    | some state => exact absurd hspec.stuck hheld
    | none =>
      cases hspec
      rw [refreshPending, hadvance]
      exact ih fun j hj => h j (mem_cons_of_mem _ hj)

/-! ## Sweeps that find nothing -/

theorem maintain_idle (h : ∀ r ∈ s.items.rows, r.Quiet now) :
    s.maintain now false = .ok (0, s) := by
  have hexpire : s.hardDueRows now none = [] := by
    rw [eq_nil_iff_forall_not_mem]
    intro r hr
    obtain ⟨hitem, hdue⟩ := mem_hardDueRows.mp hr
    rw [(h r (mem_items_iff.mpr hitem)).1] at hdue
    cases hdue
  have hrecover : s.leaseDueRows now none = [] := by
    rw [eq_nil_iff_forall_not_mem]
    intro r hr
    obtain ⟨hitem, hdue⟩ := mem_leaseDueRows.mp hr
    rw [(h r (mem_items_iff.mpr hitem)).2.1] at hdue
    cases hdue
  have hrelease : s.releaseRetries now = s := by
    have hitems : s.items.updateWhere (WorkRow.retryDue now) (·.withRetryReady now)
        (fun _ => rfl) = s.items := KeyedTable.updateWhere_of_none _ fun r hr => (h r hr).2.2
    exact congrArg (fun items => { s with items := items }) hitems
  have hcount : s.items.rowcount (WorkRow.retryDue now) = 0 := by
    refine countP_eq_zero.mpr fun r hr => ?_
    rw [(h r hr).2.2]
    decide
  have hexpired : s.expireHardDeadlines now none = .ok (0, s) := by
    rw [expireHardDeadlines, hexpire]
    rfl
  have hrecovered : s.recoverExpiredLeases now none = .ok (0, s) := by
    rw [recoverExpiredLeases, hrecover]
    rfl
  unfold maintain
  rw [hexpired, ok_bind, hrecovered, ok_bind, hrelease, hcount]
  rfl

variable (now s s' i) in
/-- A round of a sweep, which changes the row it visits. -/
structure Round : Prop where
  steps : Steps now nobody s s'
  changed : ∃ r r', s.item? i = some r ∧ s'.item? i = some r' ∧ r'.rowVersion = r.rowVersion + 1

theorem EndsItem.round {facts : TerminalFacts}
    (h : EndsItem now nobody s s' i r (r.withTerminal facts now)) (hfacts : facts.state ≠ .planned) :
    Round now s s' i := by
  obtain ⟨s₁, n, hchange, hstep, hrefresh⟩ := h
  have hends : EndsItem now nobody s s' i r (r.withTerminal facts now) :=
    ⟨s₁, n, hchange, hstep, hrefresh⟩
  exact ⟨hends.steps, r, r.withTerminal facts now, hchange.before, hends.row_self hfacts, rfl⟩

theorem Recovery.round {row : WorkRow} (h : Recovery now s s' row) :
    Round now s s' row.workItemId := by
  cases h with
  | ready _ change step =>
    exact ⟨.single step, row, row.withRecovered now, change.before, change.after_self, rfl⟩
  | exhausted _ ends => exact ends.round (by simp [TerminalFacts.ofReason])

/-- A sweep that changes what it visits, and only cascades the rest, visits its whole list. -/
theorem sweep_visits {due : WorkRow → Bool}
    {f : Nat × WorkLedger → WorkRow → Except WorkError (Nat × WorkLedger)}
    (hround : ∀ row rest acc acc', Worklist now due (row :: rest) acc.2 → f acc row = .ok acc' →
      Worklist now due rest acc'.2 ∧ Round now acc.2 acc'.2 row.workItemId) :
    ∀ (rows : List WorkRow) (acc acc' : Nat × WorkLedger), Worklist now due rows acc.2 →
      rows.foldlM f acc = .ok acc' → Steps now nobody acc.2 acc'.2 ∧
        ∀ row ∈ rows, ∃ u u', Steps now nobody acc.2 u ∧ Round now u u' row.workItemId ∧
          Steps now nobody u' acc'.2 := by
  intro rows
  induction rows with
  | nil =>
    intro acc acc' _ h
    cases h
    exact ⟨.refl, forall_mem_nil _⟩
  | cons row rest ih =>
    intro acc acc' hlist h
    rw [foldlM_cons, bind_eq_ok] at h
    obtain ⟨mid, hfirst, hrest⟩ := h
    obtain ⟨htail, hvisit⟩ := hround row rest acc mid hlist hfirst
    obtain ⟨hsteps, hvisits⟩ := ih mid acc' htail hrest
    refine ⟨ReflTransGen.trans hvisit.steps hsteps, ?_⟩
    intro row' hrow'
    rcases mem_cons.mp hrow' with rfl | hlater
    · exact ⟨acc.2, mid.2, .refl, hvisit, hsteps⟩
    · obtain ⟨u, u', hbefore, hround', hafter⟩ := hvisits row' hlater
      exact ⟨u, u', ReflTransGen.trans hvisit.steps hbefore, hround', hafter⟩

theorem recoverExpiredLeases_visits (h : s.recoverExpiredLeases now none = .ok (n, s'))
    (hr : s.item? i = some r) (hdue : r.leaseDue now = true) :
    ∃ u u', Steps now nobody s u ∧ Round now u u' i ∧ Steps now nobody u' s' := by
  have hid := workItemId_of_item? hr
  subst hid
  exact (sweep_visits (fun _ _ _ _ hlist hround =>
    (recoverRow_round hlist hround).imp_right Recovery.round) _ _ _
      (s.leaseDueRows_worklist now none) h).2 r (mem_leaseDueRows.mpr ⟨hr, hdue⟩)

theorem Between.not_round {t u : WorkLedger} (ht : Between now s t) (h : Round now t u i)
    (hu : Steps now nobody u s) : False := by
  obtain ⟨r, r', hr, hr', hversion⟩ := h.changed
  exact ht.still ⟨ReflTransGen.trans ht.before h.steps, hu⟩ hr hr' hversion

/-! ## Cancellation requests -/

/-- Only an item that has ended keeps a cancellation request. -/
def Uncancelled (s : WorkLedger) : Prop :=
  ∀ j r, s.item? j = some r → r.state.isTerminal = false → r.cancelRequested = false

theorem RowStep.uncancelled {ended failure : Prop} {r' : WorkRow} {hcalled : Prop}
    (h : RowStep now hcalled ended failure r r') (hr : r.cancelRequested = false)
    (hopen : r'.state.isTerminal = false) : r'.cancelRequested = false := by
  cases h with
  | @direct _ _ state hstate _ _ _ =>
    have hterminal : state.isTerminal = true := by
      cases state <;> first | rfl | cases hstate
    rw [show state.isTerminal = false from hopen] at hterminal
    cases hterminal
  | _ => first | exact hr | rfl

theorem Evolves.uncancelled (h : Evolves s s') (hinv : LedgerInv s) (hs : s.Uncancelled) :
    s'.Uncancelled := by
  induction h with
  | refl => exact hs
  | @tail t t' hfirst hlast ih =>
    have hinvt := Evolves.inv hfirst hinv
    intro j r' hr' hopen
    rcases hlast with ⟨now, called, hstep⟩ | ⟨plan, dependencies, hinsert⟩
    · rcases hstep.row_before hr' with hsame | ⟨r, hitem⟩
      · exact ih j r' hsame hopen
      · have hshape := (hinvt.items j r hitem.before).shape
        exact RowStep.uncancelled hitem.row
          (ih j r hitem.before (hitem.row.isTerminal_eq_false hshape)) hopen
    · by_cases hj : j = plan.workItemId
      · rw [hinsert.item?_eq, if_pos hj] at hr'
        cases hr'
        rfl
      · rw [hinsert.item?_of_ne hj] at hr'
        exact ih j r' hr' hopen

end WorkLedger
end Robata.Queue
