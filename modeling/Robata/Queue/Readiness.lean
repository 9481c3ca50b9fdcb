import Robata.Queue.WorkEvolution

/-!
# Readiness is exact

Ordinary traffic refreshes only the direct downstream of what has just ended.
In every reachable ledger this is enough: no item was released early, and no
`PLANNED` item waits for nothing.
-/

namespace Robata.Queue

open Lib Relation

namespace WorkLedger

variable {s s' : WorkLedger}

/-- A released item rests on ended upstream work, and on successful upstream
work where that is required. -/
def ReleasedOnTime (s : WorkLedger) (r : WorkRow) : Prop :=
  r.state.isReleased = true → ∀ d ∈ s.deps.rows, d.downstreamWorkItemId = r.workItemId →
    ∃ u, s.item? d.upstreamWorkItemId = some u ∧ u.state.isTerminal = true ∧
      (d.criticality = .required → u.state.isSuccessful = true)

/-- A `PLANNED` item waits for an upstream item that has not ended. -/
def HeldBack (s : WorkLedger) (r : WorkRow) : Prop :=
  r.state = .planned → ∃ d ∈ s.deps.rows, d.downstreamWorkItemId = r.workItemId ∧
    ∃ u, s.item? d.upstreamWorkItemId = some u ∧ u.state.isTerminal = false

theorem Sound.releasedOnTime (hs : s.Sound) {r : WorkRow} (hr : r ∈ s.items.rows) :
    s.ReleasedOnTime r := by
  intro hreleased d hd hdown
  obtain ⟨hended, hsound⟩ := hs.1.released _ r (mem_items_iff.mp hr) hreleased
  obtain ⟨u, hu⟩ := Option.isSome_iff_exists.mp (hs.1.deps_closed d hd).2
  refine ⟨u, hu, upstreamEnded_def.mp hended d hd hdown u hu, ?_⟩
  intro hrequired
  by_contra hfailed
  rw [Bool.not_eq_true] at hfailed
  exact hsound (requiredFailure_def.mpr ⟨d, hd, hdown, hrequired, u, hu, hfailed⟩)

theorem Sound.heldBack (hs : s.Sound) {r : WorkRow} (hr : r ∈ s.items.rows) : s.HeldBack r := by
  intro hplanned
  have hnot : ¬ s.UpstreamEnded r.workItemId := by
    intro hended
    exact hs.2 _ ⟨r, mem_items_iff.mp hr, hplanned, hended⟩
  rw [upstreamEnded_def] at hnot
  push Not at hnot
  obtain ⟨d, hd, hdown, u, hu, hopen⟩ := hnot
  exact ⟨d, hd, hdown, u, hu, eq_false_of_ne_true hopen⟩

/-- A `PLANNED` row can always be read: nothing has written it since it was
inserted. -/
theorem Sound.planned_readable (hs : s.Sound) {j : OpaqueUuid} {r : WorkRow}
    (hr : s.item? j = some r) (hplanned : r.state = .planned) : r.ClockOrdered := by
  unfold WorkRow.ClockOrdered
  rw [(hs.1.items j r hr).planned_clock hplanned]

theorem Sound.refreshPlanned_noop (hs : s.Sound) (now : Int) (changed : Nat) :
    refreshPlanned now changed s = .ok (changed, s) := by
  -- each round reads a `PLANNED` row and finds it held back
  have hround : ∀ i r, s.item? i = some r → r.state = .planned →
      scanRow now (0, s) i = .ok (0, s) := by
    intro i r hr hplanned
    obtain ⟨⟨transition, s₁⟩, hadvance⟩ := advancePlannedItem_completes now hr
      (hs.1.items i r hr).shape (hs.planned_readable hr hplanned)
    unfold scanRow
    rw [hadvance]
    have hspec := advancePlannedItem_spec hadvance
    cases transition with
    | none =>
      cases hspec
      rfl
    | some state => exact absurd hspec.stuck (hs.2 i)
  have hrows : ∀ i ∈ s.plannedIds, ∃ r, s.item? i = some r ∧ r.state = .planned := by
    intro i hi
    simp only [plannedIds, List.mem_map, List.mem_insertionSort, List.mem_filter, beq_iff_eq] at hi
    obtain ⟨r, ⟨hr, hplanned⟩, rfl⟩ := hi
    exact ⟨r, mem_items_iff.mp hr, hplanned⟩
  have hpass : s.plannedIds.foldlM (scanRow now) (0, s) = .ok (0, s) := by
    revert hrows
    induction s.plannedIds with
    | nil => exact fun _ => rfl
    | cons i rest ih =>
      intro hrows
      obtain ⟨r, hr, hplanned⟩ := hrows i List.mem_cons_self
      rw [List.foldlM_cons, hround i r hr hplanned]
      exact ih fun j hj => hrows j (List.mem_cons_of_mem _ hj)
  unfold refreshPlanned
  split
  · rename_i e hfold
    rw [hpass] at hfold
    cases hfold
  · rename_i s₁ hfold
    rw [hpass] at hfold
    cases hfold
    rfl
  · rename_i passChanged s₁ hfold
    rw [hpass] at hfold
    cases hfold

/-- In every reachable ledger no item was released early, no `PLANNED` item is
stuck, and the full scan has nothing to do. -/
theorem readiness_exact (h : Reachable s) :
    (∀ r ∈ s.items.rows, s.ReleasedOnTime r ∧ s.HeldBack r) ∧
      ∀ now, refreshPlanned now 0 s = .ok (0, s) := by
  have hs : s.Sound := reach_sound h
  refine ⟨?_, fun now => hs.refreshPlanned_noop now 0⟩
  intro r hr
  exact ⟨hs.releasedOnTime hr, hs.heldBack hr⟩

/-! ## Open work can move -/

/-- Item `d` has a dependency on item `u`. -/
def WaitsFor (s : WorkLedger) (d u : OpaqueUuid) : Prop :=
  ∃ e ∈ s.deps.rows, e.downstreamWorkItemId = d ∧ e.upstreamWorkItemId = u

/-- Every item has a rank above the ranks of what it waits for. -/
def RankedBy (s : WorkLedger) (rank : OpaqueUuid → Nat) : Prop :=
  ∀ d ∈ s.deps.rows, rank d.upstreamWorkItemId < rank d.downstreamWorkItemId

/-- The upstream items of a plan are there before it, so it can be ranked above them. -/
theorem PlanInsert.ranked {plan : WorkItemPlan} {dependencies : List WorkDependency}
    {rank : OpaqueUuid → Nat} (h : PlanInsert plan dependencies s s') (hinv : LedgerInv s)
    (hrank : s.RankedBy rank) : ∃ rank', s'.RankedBy rank' := by
  have hknown : ∀ {j}, (s.item? j).isSome = true → j ≠ plan.workItemId := by
    rintro _ hj rfl
    rw [h.fresh] at hj
    cases hj
  refine ⟨Function.update rank plan.workItemId
    ((dependencies.map (rank ·.upstreamWorkItemId)).sum + 1), fun d hd => ?_⟩
  rw [h.deps_eq, List.mem_append] at hd
  rcases hd with hold | hnew
  · obtain ⟨hdown, hup⟩ := hinv.deps_closed d hold
    rw [Function.update_of_ne (hknown hdown), Function.update_of_ne (hknown hup)]
    exact hrank d hold
  · rw [h.downstream d hnew, Function.update_self,
      Function.update_of_ne (hknown (h.upstream d hnew))]
    exact Nat.lt_succ_of_le (List.le_sum_of_mem (List.mem_map_of_mem hnew))

theorem Evolves.ranked (h : Evolves s s') (hinv : LedgerInv s) (hs : ∃ rank, s.RankedBy rank) :
    ∃ rank, s'.RankedBy rank := by
  induction h with
  | refl => exact hs
  | tail hfirst hlast ih =>
    obtain ⟨rank, hrank⟩ := ih
    rcases hlast with ⟨_, _, hstep⟩ | ⟨_, _, hinsert⟩
    · exact ⟨rank, fun d hd => hrank d (hstep.deps_eq ▸ hd)⟩
    · exact hinsert.ranked (Evolves.inv hfirst hinv) hrank

/-- No deadlock: in every reachable ledger no item waits for itself, and what has not ended
rests on an item that has not ended and is past `PLANNED`. -/
theorem open_work_moves (h : Reachable s) : (∀ j, ¬ TransGen s.WaitsFor j j) ∧
    ∀ r ∈ s.items.rows, r.state.isTerminal = false →
      ∃ u ∈ s.items.rows, ReflTransGen s.WaitsFor r.workItemId u.workItemId ∧
        u.state.isTerminal = false ∧ u.state ≠ .planned := by
  obtain ⟨hs, hevolves⟩ := reach_persists empty_sound h
  obtain ⟨rank, hrank⟩ := hevolves.ranked empty_sound.1 ⟨fun _ => 0, fun d hd => by cases hd⟩
  have hdown : ∀ {d u}, s.WaitsFor d u → rank u < rank d := by
    rintro _ _ ⟨e, he, rfl, rfl⟩
    exact hrank e he
  refine ⟨fun j hcycle => ?_, fun r hr hopen => ?_⟩
  · have hless := TransGen.lift (p := (· > ·)) rank (fun _ _ => hdown) _ _ hcycle
    rw [transGen_eq_self] at hless
    exact lt_irrefl _ hless
  · induction hn : rank r.workItemId using Nat.strong_induction_on generalizing r with
    | _ n ih =>
      by_cases hplanned : r.state = .planned
      · obtain ⟨d, hd, hdownstream, u, hu, huopen⟩ := hs.heldBack hr hplanned
        have hedge : s.WaitsFor r.workItemId u.workItemId :=
          ⟨d, hd, hdownstream, (workItemId_of_item? hu).symm⟩
        obtain ⟨v, hv, hpath, hmoves⟩ := ih _ (hn ▸ hdown hedge) u
          (mem_items_iff.mpr (workItemId_of_item? hu ▸ hu)) huopen rfl
        exact ⟨v, hv, .head hedge hpath, hmoves⟩
      · exact ⟨r, hr, .refl, hopen, hplanned⟩

end WorkLedger

/-- A plan of a sample run.  The fields that no sample varies are fixed. -/
def samplePlan (workItemId : OpaqueUuid) (workLogicalKey : NonEmptyString) (createdAt : Int)
    (executionExpiryAt : Option Int) : WorkItemPlan where
  workItemId := workItemId
  workLogicalKey := workLogicalKey
  runId := 7
  mcapId := 8
  stage := .align
  subjectType := .window
  subjectId := 9
  inputDigest := 0
  configDigest := 0
  priority := 0
  slaDeadlineAt := none
  executionExpiryAt := executionExpiryAt.map formatTimestamp
  maxAttempts := 1
  traceId := none
  createdAt := formatTimestamp createdAt
  maxAttempts_pos := Nat.one_pos

/-- Item 1 of a sample run. -/
def sampleUpstream (createdAt : Int) (executionExpiryAt : Option Int) : WorkItemPlan :=
  samplePlan 1 ⟨"upstream", by decide⟩ createdAt executionExpiryAt

/-- Item 2 of a sample run. -/
def sampleDownstream (createdAt : Int) (executionExpiryAt : Option Int) : WorkItemPlan :=
  samplePlan 2 ⟨"downstream", by decide⟩ createdAt executionExpiryAt

/-- The edge from item 2 to item 1 of a sample run. -/
def sampleEdge : WorkDependency := ⟨3, 2, 1, .required, by decide⟩

theorem readiness_exact_of_chain :
    let s := replay SchedulerOp.run
      [.plan (sampleUpstream 10 none) [], .plan (sampleDownstream 10 none) [sampleEdge]]
      WorkLedger.empty
    (s.item? 1).map (·.state) = some .ready ∧ (s.item? 2).map (·.state) = some .planned ∧
      (∀ r ∈ s.items.rows, s.ReleasedOnTime r ∧ s.HeldBack r) ∧
      ∀ now, WorkLedger.refreshPlanned now 0 s = .ok (0, s) :=
  ⟨by decide +kernel, by decide +kernel, WorkLedger.readiness_exact (reach_replay _ .start)⟩

/-- The planned item of the sample run rests on the ready one. -/
theorem open_work_moves_of_chain :
    let s := replay SchedulerOp.run
      [.plan (sampleUpstream 10 none) [], .plan (sampleDownstream 10 none) [sampleEdge]]
      WorkLedger.empty
    ∀ r ∈ s.items.rows, r.state = .planned → ∃ u ∈ s.items.rows,
      ReflTransGen s.WaitsFor r.workItemId u.workItemId ∧ u.state ≠ .planned := by
  intro s r hr hplanned
  obtain ⟨u, hu, hpath, -, hmoves⟩ := (WorkLedger.open_work_moves (reach_replay _ .start)).2 r hr
    (by rw [hplanned]; rfl)
  exact ⟨u, hu, hpath, hmoves⟩

end Robata.Queue
