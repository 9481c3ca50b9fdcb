import Robata.Queue.Progress

/-!
# Replaying a plan

A batch that was accepted once is recognised whenever it comes again: the
policy and the edges of its members persist through every run, and a sound
ledger leaves the readiness pass of `plan_many` nothing to do.  What a replay
does read are the current rows of its members, so it succeeds exactly when
these can be read.
-/

namespace Robata.Queue

open Lib Relation List

namespace WorkLedger

variable {s s' : WorkLedger}

/-- The persisted policy is that of the plan, field by field; timestamps are
compared as instants. -/
structure SamePolicy (r : WorkRow) (plan : WorkItemPlan) : Prop where
  workItemId : r.workItemId = plan.workItemId
  workLogicalKey : r.workLogicalKey = plan.workLogicalKey
  runId : r.runId = plan.runId
  mcapId : r.mcapId = plan.mcapId
  stage : r.stage = plan.stage
  subjectType : r.subjectType = plan.subjectType
  subjectId : r.subjectId = plan.subjectId
  inputDigest : r.inputDigest = plan.inputDigest
  configDigest : r.configDigest = plan.configDigest
  priority : r.priority = plan.priority
  maxAttempts : r.maxAttempts = plan.maxAttempts
  traceId : r.traceId = plan.traceId
  createdAt : parseTimestamp r.createdAt = parseTimestamp plan.createdAt
  slaDeadlineAt : r.slaDeadlineAt.map parseTimestamp = plan.slaDeadlineAt.map parseTimestamp
  executionExpiryAt : r.executionExpiryAt.map parseTimestamp =
    plan.executionExpiryAt.map parseTimestamp

/-- The persisted upstream edges are those of the plan. -/
def SameDependencies (s : WorkLedger) (r : WorkRow) (dependencies : List WorkDependency) : Prop :=
  ∀ d, d ∈ dependencies ↔ d ∈ s.deps.rows ∧ d.downstreamWorkItemId = r.workItemId

variable {plan : WorkItemPlan} {r : WorkRow}

theorem planMatches_iff : planMatches r plan = true ↔ SamePolicy r plan := by
  simp only [planMatches, Bool.and_eq_true, beq_iff_eq]
  constructor
  · rintro ⟨⟨⟨⟨⟨⟨⟨⟨⟨⟨⟨⟨⟨⟨h1, h2⟩, h3⟩, h4⟩, h5⟩, h6⟩, h7⟩, h8⟩, h9⟩, h10⟩, h11⟩, h12⟩, h13⟩, h14⟩, h15⟩
    exact ⟨h1, h2, h3, h4, h5, h6, h7, h8, h9, h10, h11, h12, h13, h14, h15⟩
  · rintro ⟨h1, h2, h3, h4, h5, h6, h7, h8, h9, h10, h11, h12, h13, h14, h15⟩
    exact ⟨⟨⟨⟨⟨⟨⟨⟨⟨⟨⟨⟨⟨⟨h1, h2⟩, h3⟩, h4⟩, h5⟩, h6⟩, h7⟩, h8⟩, h9⟩, h10⟩, h11⟩, h12⟩, h13⟩, h14⟩, h15⟩

theorem samePolicy_toRow (plan : WorkItemPlan) : SamePolicy plan.toRow plan := by
  have hinstant : ∀ t : Option Rfc3339Timestamp,
      (t.map normalizeTimestamp).map parseTimestamp = t.map parseTimestamp := by
    intro t
    cases t with
    | none => rfl
    | some e => exact congrArg some (parseTimestamp_normalizeTimestamp e)
  exact ⟨rfl, rfl, rfl, rfl, rfl, rfl, rfl, rfl, rfl, rfl, rfl, rfl,
    parseTimestamp_normalizeTimestamp _, hinstant _, hinstant _⟩

theorem SamePolicy.of_plan_eq {r' : WorkRow} (h : SamePolicy r plan)
    (hplan : r'.toWorkItemPlan = r.toWorkItemPlan) : SamePolicy r' plan := by
  obtain ⟨h1, h2, h3, h4, h5, h6, h7, h8, h9, h10, h11, h12, h13, h14, h15⟩ := h
  constructor <;> rw [hplan] <;> assumption

/-- The upstream edges of a plan in the order they are compared in. -/
def sortedEdges (dependencies : List WorkDependency) : List WorkDependency :=
  dependencies.insertionSort fun a b => a.dependencyId ≤ b.dependencyId

variable (s plan) in
/-- The plan is persisted as it was given. -/
structure Planned (dependencies : List WorkDependency) : Prop where
  row : ∃ r, s.item? plan.workItemId = some r ∧ SamePolicy r plan
  edges : s.dependencies plan.workItemId = sortedEdges dependencies

variable {dependencies : List WorkDependency}

theorem Planned.persists (h : Planned s plan dependencies) (hp : Persists s s') :
    Planned s' plan dependencies := by
  obtain ⟨r, hr, hpolicy⟩ := h.row
  obtain ⟨r', hr', hplan⟩ := hp.rows _ r hr
  refine ⟨⟨r', hr', hpolicy.of_plan_eq hplan⟩, ?_⟩
  rw [hp.deps _ (by rw [hr]; rfl)]
  exact h.edges

theorem PlanInsert.planned (h : PlanInsert plan dependencies s s') (hinv : LedgerInv s) :
    Planned s' plan dependencies := by
  refine ⟨⟨plan.toRow, by rw [h.item?_eq, if_pos rfl], samePolicy_toRow plan⟩, ?_⟩
  have hold : (s.deps.rows.filter (·.downstreamWorkItemId = plan.workItemId)) = [] := by
    rw [filter_eq_nil_iff]
    intro d hd
    rw [decide_eq_true_eq]
    intro hdown
    have hsome := (hinv.deps_closed d hd).1
    rw [hdown, h.fresh] at hsome
    cases hsome
  have hnew : (dependencies.filter (·.downstreamWorkItemId = plan.workItemId)) = dependencies := by
    rw [filter_eq_self]
    intro d hd
    exact decide_eq_true (h.downstream d hd)
  unfold WorkLedger.dependencies sortedEdges
  rw [h.deps_eq, filter_append, hold, hnew, nil_append]

theorem planInTransaction_planned {refresh : Bool} {item : WorkItem} (hinv : LedgerInv s)
    (hvalid : validatePlanDependencies plan dependencies = .ok ())
    (h : s.planInTransaction plan dependencies refresh = .ok (item, s')) :
    Planned s' plan dependencies := by
  rcases planInTransaction_spec hvalid h with
    ⟨hsame, hitem, hmatch, hdeps⟩ | ⟨s₁, hinsert, hready, _⟩
  · rw [hsame]
    exact ⟨⟨item.row, hitem, planMatches_iff.mp hmatch⟩, hdeps⟩
  · have hplanned := hinsert.planned hinv
    unfold deriveReadiness at hready
    split at hready
    · obtain ⟨n, hrefresh⟩ := map_snd_eq_ok.mp hready
      have hsteps := (refreshPlannedForWorkIds_cascade hrefresh).steps
      exact hplanned.persists (Evolves.persists (Steps.evolves hsteps))
    · cases hready
      exact hplanned

section

variable (h : Planned s plan dependencies)
include h

theorem Planned.planRows_eq (hinv : LedgerInv s)
    (hr : s.item? plan.workItemId = some r) : s.planRows plan = [r] := by
  obtain ⟨r', hr', hpolicy⟩ := h.row
  rw [hr] at hr'
  cases hr'
  have hone : s.items.rows.filter (fun r => r.workItemId == plan.workItemId ||
      r.workLogicalKey == plan.workLogicalKey) = [r] := by
    refine s.items.filter_eq_singleton (KeyedTable.mem_of_find? hr)
      (by simp [hpolicy.workItemId]) ?_
    intro q hq hsel
    rw [Bool.or_eq_true, beq_iff_eq, beq_iff_eq] at hsel
    have hrow := mem_items_iff.mp hq
    have hid : q.workItemId = plan.workItemId := hsel.elim id fun hkey =>
      hinv.keys_unique _ _ q r hrow hr (hkey.trans hpolicy.workLogicalKey.symm)
    rw [hid, hr] at hrow
    exact (Option.some.inj hrow).symm
  unfold planRows
  rw [hone]
  rfl

theorem Planned.replay (hs : s.Sound) (refresh : Bool)
    (hr : s.item? plan.workItemId = some r) (hclock : r.ClockOrdered) :
    ∃ item, item.row = r ∧ s.planInTransaction plan dependencies refresh = .ok (item, s) := by
  obtain ⟨item, hitem⟩ :=
    itemFromRow_readable_iff.mpr ⟨(hs.1.items _ r hr).shape, hclock⟩
  have hrow := itemFromRow_eq_ok_iff.mp hitem
  obtain ⟨r', hr', hpolicy⟩ := h.row
  rw [hr] at hr'
  cases hr'
  refine ⟨item, hrow, ?_⟩
  unfold planInTransaction
  rw [h.planRows_eq hs.1 hr]
  simp only
  rw [hitem, ok_bind, if_neg]
  rw [hrow]
  push Not
  refine ⟨hpolicy.workItemId, hpolicy.workLogicalKey, ?_, ?_⟩
  · rw [planMatches_iff.mpr hpolicy]
    decide
  · rw [hpolicy.workItemId]
    exact h.edges

theorem Planned.replay_legible (hs : s.Sound) {refresh : Bool}
    {out : WorkItem × WorkLedger} (hok : s.planInTransaction plan dependencies refresh = .ok out) :
    s.Legible plan.workItemId := by
  obtain ⟨r, hr, _⟩ := h.row
  refine ⟨r, hr, ?_⟩
  unfold planInTransaction at hok
  rw [h.planRows_eq hs.1 hr] at hok
  obtain ⟨item, hitem, _⟩ := bind_eq_ok.mp hok
  exact (itemFromRow_readable_iff.mp ⟨item, hitem⟩).2

end

/-! ## Batches -/

def planMember (s : WorkLedger) (p : WorkItemPlan × List WorkDependency) :
    Except WorkError WorkLedger :=
  (s.planInTransaction p.1 p.2 false).map Prod.snd

variable {plans : List (WorkItemPlan × List WorkDependency)}

variable {p : WorkItemPlan × List WorkDependency}

theorem planMember_evolves (hinv : LedgerInv s) (hvalid : validatePlanDependencies p.1 p.2 = .ok ())
    (h : s.planMember p = .ok s') :
    LedgerInv s' ∧ Evolves s s' ∧ Planned s' p.1 p.2 := by
  obtain ⟨item, hplan⟩ := map_snd_eq_ok.mp h
  have hplanned := planInTransaction_planned hinv hvalid hplan
  rcases planInTransaction_spec hvalid hplan with ⟨hsame, _⟩ | ⟨s₁, hinsert, hready, _⟩
  · subst hsame
    exact ⟨hinv, .refl, hplanned⟩
  · cases hready
    exact ⟨hinsert.inv hinv, .single (.inr ⟨p.1, p.2, hinsert⟩), hplanned⟩

theorem planBatch_planned (hinv : LedgerInv s)
    (hvalid : ∀ p ∈ plans, validatePlanDependencies p.1 p.2 = .ok ())
    (h : plans.foldlM planMember s = .ok s') :
    LedgerInv s' ∧ Evolves s s' ∧ ∀ p ∈ plans, Planned s' p.1 p.2 := by
  induction plans generalizing s with
  | nil =>
    cases h
    exact ⟨hinv, .refl, forall_mem_nil _⟩
  | cons p rest ih =>
    rw [foldlM_cons, bind_eq_ok] at h
    obtain ⟨s₁, hfirst, hrest⟩ := h
    obtain ⟨hinv₁, hevolves₁, hplanned⟩ :=
      planMember_evolves hinv (hvalid p mem_cons_self) hfirst
    obtain ⟨hinv', hevolves, hall⟩ :=
      ih hinv₁ (fun q hq => hvalid q (mem_cons_of_mem _ hq)) hrest
    exact ⟨hinv', ReflTransGen.trans hevolves₁ hevolves,
      forall_mem_cons.mpr ⟨hplanned.persists hevolves.persists, hall⟩⟩

theorem planMany_spec {items : List WorkItem} (h : s.planMany plans = .ok (items, s'))
    (hne : plans ≠ []) :
    (∀ p ∈ plans, validatePlanDependencies p.1 p.2 = .ok ()) ∧
      ∃ s₁ now n, plans.foldlM planMember s = .ok s₁ ∧
        s₁.refreshPlannedForWorkIds now (plans.map fun p => p.1.workItemId) = .ok (n, s') := by
  cases plans with
  | nil => exact absurd rfl hne
  | cons first rest =>
    obtain ⟨_, hvalid, h⟩ := bind_eq_ok.mp h
    obtain ⟨s₁, hbatch, h⟩ := bind_eq_ok.mp h
    obtain ⟨out, hrefresh, h⟩ := bind_eq_ok.mp h
    obtain ⟨loaded, _, h⟩ := bind_eq_ok.mp h
    cases h
    exact ⟨forM_eq_ok_iff.mp hvalid, s₁, _, out.1, hbatch, hrefresh⟩

variable (s plans) in
/-- A batch all of whose members were accepted before. -/
def Accepted : Prop :=
  ∀ p ∈ plans, validatePlanDependencies p.1 p.2 = .ok () ∧ Planned s p.1 p.2

theorem planMany_accepted {items : List WorkItem} (hinv : LedgerInv s)
    (h : s.planMany plans = .ok (items, s')) : Accepted s' plans := by
  intro p hp
  obtain ⟨hvalid, s₁, now, n, hbatch, hrefresh⟩ := planMany_spec h (ne_nil_of_mem hp)
  obtain ⟨_, _, hplanned⟩ := planBatch_planned hinv hvalid hbatch
  have hsteps := (refreshPlannedForWorkIds_cascade hrefresh).steps
  exact ⟨hvalid p hp, (hplanned p hp).persists (Evolves.persists (Steps.evolves hsteps))⟩

theorem Accepted.persists (h : Accepted s plans) (hp : Persists s s') : Accepted s' plans :=
  fun p hmem => ⟨(h p hmem).1, (h p hmem).2.persists hp⟩

theorem Sound.refresh_noop (hs : s.Sound) (now : Int) {ids : List OpaqueUuid}
    (hlegible : ∀ k ∈ ids, s.Legible k) :
    ∃ n, s.refreshPlannedForWorkIds now ids = .ok (n, s) := by
  refine ⟨0, refreshPending_idle hs.1 fun k hk => ⟨hlegible k ?_, hs.2 k⟩⟩
  rwa [mem_eraseDups] at hk

theorem Accepted.replayBatch (h : Accepted s plans) (hs : s.Sound)
    (hlegible : ∀ p ∈ plans, s.Legible p.1.workItemId) : plans.foldlM planMember s = .ok s := by
  induction plans with
  | nil => rfl
  | cons p rest ih =>
    obtain ⟨r, hr, hclock⟩ := hlegible p mem_cons_self
    obtain ⟨item, _, hreplay⟩ := (h p mem_cons_self).2.replay hs false hr hclock
    have hmember : s.planMember p = .ok s := by
      unfold planMember
      rw [hreplay]
      rfl
    rw [foldlM_cons, hmember]
    exact ih (fun q hq => h q (mem_cons_of_mem _ hq)) fun q hq => hlegible q (mem_cons_of_mem _ hq)

theorem Accepted.legible_of_replayBatch (h : Accepted s plans) (hs : s.Sound)
    (hok : plans.foldlM planMember s = .ok s') :
    ∀ p ∈ plans, s.Legible p.1.workItemId := by
  induction plans with
  | nil => exact forall_mem_nil _
  | cons p rest ih =>
    rw [foldlM_cons, bind_eq_ok] at hok
    obtain ⟨s₁, hfirst, hrest⟩ := hok
    obtain ⟨item, hplan⟩ := map_snd_eq_ok.mp hfirst
    obtain ⟨hvalid, hplanned⟩ := h p mem_cons_self
    have hlegible := hplanned.replay_legible hs hplan
    obtain ⟨r, hr, hclock⟩ := hlegible
    obtain ⟨item', _, hreplay⟩ := hplanned.replay hs false hr hclock
    rw [hreplay] at hplan
    cases hplan
    exact forall_mem_cons.mpr
      ⟨⟨r, hr, hclock⟩, ih (fun q hq => h q (mem_cons_of_mem _ hq)) hrest⟩

variable (s plans) in
/-- The replay of a batch succeeds, changes nothing and returns the current
rows in batch order. -/
def Replays : Prop :=
  ∃ items, s.planMany plans = .ok (items, s) ∧
    items.map (fun item => some item.row) = plans.map fun p => s.item? p.1.workItemId

theorem Accepted.replays_iff (h : Accepted s plans) (hs : s.Sound) :
    Replays s plans ↔ ∀ p ∈ plans, s.Legible p.1.workItemId := by
  constructor
  · rintro ⟨items, hok, _⟩ p hp
    obtain ⟨_, s₁, _, _, hbatch, _⟩ := planMany_spec hok (ne_nil_of_mem hp)
    exact h.legible_of_replayBatch hs hbatch p hp
  · intro hlegible
    have hload : ∀ p ∈ plans, ∃ item, s.loadItem p.1.workItemId = .ok item ∧
        s.item? p.1.workItemId = some item.row := by
      intro p hp
      obtain ⟨r, hr, hclock⟩ := hlegible p hp
      obtain ⟨item, hitem, _⟩ := loadItem_completes hr (hs.1.items _ r hr).shape hclock
      exact ⟨item, hitem, loadItem_eq_ok_iff.mp hitem⟩
    obtain ⟨items, hitems, hall⟩ := mapM_completes hload
    have hrows : items.map (fun item => some item.row) =
        plans.map fun p => s.item? p.1.workItemId := by
      clear hitems hlegible h hload
      induction hall with
      | nil => rfl
      | cons hhead _ ih => rw [map_cons, map_cons, hhead, ih]
    refine ⟨items, ?_, hrows⟩
    cases plans with
    | nil =>
      cases hitems
      rfl
    | cons first rest =>
      have hvalid : (first :: rest).forM (fun p => validatePlanDependencies p.1 p.2) = .ok () :=
        forM_eq_ok_iff.mpr fun p hp => (h p hp).1
      have hbatch := h.replayBatch hs hlegible
      have hids : ∀ k ∈ (first :: rest).map (fun p => p.1.workItemId), s.Legible k := by
        intro k hk
        obtain ⟨p, hp, rfl⟩ := mem_map.mp hk
        exact hlegible p hp
      obtain ⟨n, hrefresh⟩ := hs.refresh_noop (latestCreation first.1 rest) hids
      unfold planMany
      rw [hvalid]
      show ((first :: rest).foldlM planMember s >>= _) = _
      rw [hbatch, ok_bind, hrefresh, ok_bind]
      rw [hitems, ok_bind]

variable (s p) in
/-- The replay of one member through `plan` succeeds, changes nothing and
returns the current row. -/
def ReplaysOne : Prop :=
  ∃ item, s.plan p.1 p.2 = .ok (item, s) ∧ s.item? p.1.workItemId = some item.row

theorem Accepted.replaysOne_iff (h : Accepted s plans) (hs : s.Sound) (hp : p ∈ plans) :
    ReplaysOne s p ↔ s.Legible p.1.workItemId := by
  obtain ⟨hvalid, hplanned⟩ := h p hp
  have hplan : s.plan p.1 p.2 = s.planInTransaction p.1 p.2 true := by
    unfold plan
    rw [hvalid, ok_bind]
  unfold ReplaysOne
  rw [hplan]
  constructor
  · rintro ⟨item, hok, _⟩
    exact hplanned.replay_legible hs hok
  · rintro ⟨r, hr, hclock⟩
    obtain ⟨item, hrow, hreplay⟩ := hplanned.replay hs true hr hclock
    exact ⟨item, hreplay, by rw [hrow]; exact hr⟩

/-! ## Conflicts -/

/-- The row and the plan name one item, by its id or by its logical key. -/
def SharesIdentity (r : WorkRow) (plan : WorkItemPlan) : Prop :=
  r.workItemId = plan.workItemId ∨ r.workLogicalKey = plan.workLogicalKey

/-- What a persisted plan shares an identity with was persisted as the plan
says, now and before. -/
theorem Planned.same_before {j : OpaqueUuid} (h : Planned s' plan dependencies) (hs' : s'.Sound)
    (hp : Persists s s') (hr : s.item? j = some r) (hshare : SharesIdentity r plan) :
    SamePolicy r plan ∧ SameDependencies s r dependencies := by
  obtain ⟨q, hq, hpolicy⟩ := h.row
  obtain ⟨r', hr', hplan⟩ := hp.rows j r hr
  have hid : j = plan.workItemId := by
    rcases hshare with hid | hkey
    · exact (KeyedTable.key_of_find? hr).symm.trans hid
    · refine hs'.1.keys_unique _ _ r' q hr' hq ?_
      rw [hplan, hkey, hpolicy.workLogicalKey]
  subst hid
  rw [hr'] at hq
  cases hq
  have hsame : SamePolicy r plan := hpolicy.of_plan_eq hplan.symm
  refine ⟨hsame, ?_⟩
  intro d
  have hedges : s.dependencies plan.workItemId = sortedEdges dependencies := by
    rw [← hp.deps _ (by rw [hr]; rfl)]
    exact h.edges
  rw [hsame.workItemId, ← mem_insertionSort (fun a b => a.dependencyId ≤ b.dependencyId)]
  show d ∈ sortedEdges dependencies ↔ _
  rw [← hedges, WorkLedger.dependencies, mem_insertionSort, mem_filter, decide_eq_true_eq]

/-- A plan that conflicts with a persisted row is refused, alone and in any
batch. -/
theorem conflicting_plan_refused (hs : s.Sound) (hr : r ∈ s.items.rows)
    (hshare : SharesIdentity r p.1) (hdiffers : ¬ (SamePolicy r p.1 ∧ SameDependencies s r p.2)) :
    (∃ e, s.plan p.1 p.2 = .error e) ∧ ∀ plans, p ∈ plans → ∃ e, s.planMany plans = .error e := by
  have hrow := mem_items_iff.mp hr
  refine ⟨?_, ?_⟩
  · cases hok : s.plan p.1 p.2 with
    | error e => exact ⟨e, rfl⟩
    | ok out =>
      have hrun : (SchedulerOp.plan p.1 p.2).run s = .ok out.2 := map_snd_eq_ok.mpr ⟨out.1, hok⟩
      have hmoves := run_moves hrun hs
      obtain ⟨_, hvalid, hplan⟩ := bind_eq_ok.mp hok
      have hplanned := planInTransaction_planned hs.1 hvalid hplan
      exact absurd (hplanned.same_before (hmoves.sound hs) hmoves.evolves.persists hrow hshare)
        hdiffers
  · intro plans hp
    cases hok : s.planMany plans with
    | error e => exact ⟨e, rfl⟩
    | ok out =>
      have hrun : (SchedulerOp.planMany plans).run s = .ok out.2 :=
        map_snd_eq_ok.mpr ⟨out.1, hok⟩
      have hmoves := run_moves hrun hs
      have hplanned := (planMany_accepted hs.1 hok p hp).2
      exact absurd (hplanned.same_before (hmoves.sound hs) hmoves.evolves.persists hrow hshare)
        hdiffers

/-- A refused batch leaves the ledger as it was.  An accepted batch is
recognised in every later state: its replay, whole or one member, is a no-op
that returns the current rows, exactly when these rows can be read.  A plan
that conflicts with a persisted row is refused. -/
theorem plan_replay_exact (h : Reachable s) (plans : List (WorkItemPlan × List WorkDependency)) :
    (∀ e, s.planMany plans = .error e → commit s ((SchedulerOp.planMany plans).run s) = s) ∧
      (∀ items s₁, s.planMany plans = .ok (items, s₁) →
        ∀ s₂, Reach SchedulerOp.run (fun _ _ => True) s₁ s₂ →
          (Replays s₂ plans ↔ ∀ p ∈ plans, s₂.Legible p.1.workItemId) ∧
            ∀ p ∈ plans, ReplaysOne s₂ p ↔ s₂.Legible p.1.workItemId) ∧
      ∀ p, ∀ r ∈ s.items.rows, SharesIdentity r p.1 →
        ¬ (SamePolicy r p.1 ∧ SameDependencies s r p.2) →
        (∃ e, s.plan p.1 p.2 = .error e) ∧ (p ∈ plans → ∃ e, s.planMany plans = .error e) := by
  have hs : s.Sound := reach_sound h
  refine ⟨?_, ?_, ?_⟩
  · intro e herror
    have hrun : (SchedulerOp.planMany plans).run s = .error e := by
      show (s.planMany plans).map Prod.snd = _
      rw [herror]
      rfl
    rw [hrun, commit_error]
  · intro items s₁ hok s₂ hreach
    have hrun : (SchedulerOp.planMany plans).run s = .ok s₁ := map_snd_eq_ok.mpr ⟨items, hok⟩
    have hs₁ := run_sound hrun hs
    obtain ⟨hs₂, hevolves⟩ := reach_persists hs₁ hreach
    have haccepted := (planMany_accepted hs.1 hok).persists hevolves.persists
    exact ⟨haccepted.replays_iff hs₂, fun p hp => haccepted.replaysOne_iff hs₂ hp⟩
  · intro p r hr hshare hdiffers
    obtain ⟨hplan, hbatch⟩ := conflicting_plan_refused hs hr hshare hdiffers
    exact ⟨hplan, hbatch plans⟩

end WorkLedger

def sampleBatch : List (WorkItemPlan × List WorkDependency) := [(sampleUpstream 10 none, [])]

/-- The ledger once item 1 is planned. -/
def sampleBatchLedger : WorkLedger :=
  replay SchedulerOp.run [.planMany sampleBatch] WorkLedger.empty

/-- Item 1 is claimed at instant 10, and its lease renewed by a worker whose
clock reads `now`. -/
def sampleRenewal (now : Int) : List SchedulerOp :=
  [.claim "worker" 1 (some 1) 10 true sampleToken, .heartbeat sampleLease 1 now]

/-- After a renewal with a lagging clock the batch is not recognised. -/
theorem plan_replay_exact_fails :
    ¬ ∀ s, Reachable s → ∀ plans items s₁, s.planMany plans = .ok (items, s₁) →
      ∀ s₂, Reach SchedulerOp.run (fun _ _ => True) s₁ s₂ → WorkLedger.Replays s₂ plans := by
  intro h
  have hplan : (WorkLedger.empty.planMany sampleBatch).map Prod.snd = .ok sampleBatchLedger := by
    decide +kernel
  obtain ⟨items, hok⟩ := map_snd_eq_ok.mp hplan
  obtain ⟨items', hreplay, _⟩ :=
    h _ .start sampleBatch items _ hok _ (reach_replay (sampleRenewal 5) .start)
  have herror : (SchedulerOp.planMany sampleBatch).run
      (replay SchedulerOp.run (sampleRenewal 5) sampleBatchLedger) =
      .error (.value "updated_at cannot precede created_at") := by decide +kernel
  have hsame := herror.symm.trans (map_snd_eq_ok.mpr ⟨items', hreplay⟩)
  cases hsame

/-- After a renewal with a later clock it is. -/
theorem plan_replay_exact_of_renewal :
    WorkLedger.Replays (replay SchedulerOp.run (sampleRenewal 20) sampleBatchLedger)
      sampleBatch := by
  have hplan : (WorkLedger.empty.planMany sampleBatch).map Prod.snd = .ok sampleBatchLedger := by
    decide +kernel
  obtain ⟨items, hok⟩ := map_snd_eq_ok.mp hplan
  refine (((WorkLedger.plan_replay_exact .start sampleBatch).2.1 items _ hok _
    (reach_replay (sampleRenewal 20) .start)).1).mpr ?_
  intro p hp
  rcases mem_singleton.mp hp with rfl
  have hordered : ∀ r ∈ (replay SchedulerOp.run (sampleRenewal 20) sampleBatchLedger).items.rows,
      r.ClockOrdered := by decide +kernel
  have hsome : ((replay SchedulerOp.run (sampleRenewal 20) sampleBatchLedger).item? 1).isSome =
      true := by decide +kernel
  obtain ⟨r, hr⟩ := Option.isSome_iff_exists.mp hsome
  exact ⟨r, hr, hordered r (KeyedTable.mem_of_find? hr)⟩

end Robata.Queue
