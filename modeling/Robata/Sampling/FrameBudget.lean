import Robata.Lib.Intervals
import Robata.Sampling.IntervalSplit
import Robata.Sampling.UniqueTargets

/-!
# The planned frame counts and the real grid

The planner admits a part by `ceil(duration * fps)`; the materializer counts
the targets its grid yields in the part, which are rounded half-even.  This file
compares the two numbers.  A part can hold one target more than the planner
counts, and it does so exactly when it is an odd whole number of periods long
and starts at an even offset half a nanosecond past a grid point: then the
targets at both of its ends are ties, and both round into it.
-/

namespace Robata.Sampling

open Contracts Lib

/-! ## The check of the materializer -/

/-- The failures of `materialize` that its grid decides.  The others concern the
bindings, frames and artifacts of a call and do not read the targets' number. -/
inductive PackageMaterializationError
  | value (message : String)
  | frameBudgetExceeded (message : String)
  deriving DecidableEq

/-- The grid `_materialize_camera` builds for one camera. -/
def cameraGrid (gridOriginNs : Int) (rate : Int × Int) : Except String SamplingGrid :=
  match SamplingRate.make? rate.1 rate.2 with
  | some samplingRate => .ok ⟨gridOriginNs, samplingRate⟩
  | none => .error "sampling-rate numerator and denominator must be positive"

/-- How many targets the grid of a camera yields in an interval. -/
def targetCount (gridOriginNs : Int) (interval : NanosecondInterval) (rate : Int × Int) :
    Except String Nat := do
  let grid ← cameraGrid gridOriginNs rate
  .ok (grid.iterUniqueTargets interval.startNs interval.endNs).length

/-- `target_counts`, in camera order. -/
def targetCounts (plan : SamplingPlan) (purpose : SamplingPurpose) (gridOriginNs : Int)
    (interval : NanosecondInterval) : Except String (List Nat) := do
  let rates ← samplingPlanProjection plan purpose
  CameraId.all.mapM fun cameraId => targetCount gridOriginNs interval (rates cameraId)

/-- The budget checks of `materialize` on the counts. -/
def checkFrameBudget (budget : FrameBudget) (counts : List Nat) :
    Except PackageMaterializationError Unit :=
  if counts.any fun count => decide (budget.maxFramesPerCamera < count) then
    .error (.frameBudgetExceeded "materialized part exceeds the per-camera frame budget")
  else if budget.maxFramesTotal < counts.sum then
    .error (.frameBudgetExceeded "materialized part exceeds the total frame budget")
  else
    .ok ()

/-- `materialize`, as far as the frame budget is concerned. -/
def materialize (plan : SamplingPlan) (purpose : SamplingPurpose) (gridOriginNs : Int)
    (part : IntervalPart) : Except PackageMaterializationError Unit :=
  match targetCounts plan purpose gridOriginNs part.effectiveInterval with
  | .error message => .error (.value message)
  | .ok counts => checkFrameBudget plan.frameBudget counts

/-! ## Counting one camera -/

/-- An odd whole number of periods that starts at an even offset from the
origin, half a nanosecond past a grid point. -/
def Squeezes (gridOriginNs : Int) (interval : NanosecondInterval) (rate : Int × Int) : Prop :=
  (interval.startNs - gridOriginNs) % 2 = 0 ∧ duration interval % 2 = 1 ∧
    nanosecondsPerSecond * rate.2 ∣ duration interval * rate.1 ∧
    2 * (nanosecondsPerSecond * rate.2) ∣ (2 * (interval.startNs - gridOriginNs) - 1) * rate.1

instance (gridOriginNs : Int) (interval : NanosecondInterval) (rate : Int × Int) :
    Decidable (Squeezes gridOriginNs interval rate) :=
  inferInstanceAs (Decidable (_ ∧ _ ∧ _ ∧ _))

theorem cameraGrid_of_valid {rate : Int × Int} (h : ValidRate rate) (gridOriginNs : Int) :
    ∃ grid, cameraGrid gridOriginNs rate = .ok grid ∧ grid.gridOriginNs = gridOriginNs ∧
      grid.rate.numerator = rate.1 ∧ grid.rate.denominator = rate.2 := by
  have hboth : 0 < rate.1 ∧ 0 < rate.2 := ⟨h.numerator_pos, h.denominator_pos⟩
  unfold cameraGrid SamplingRate.make?
  rw [dif_pos hboth]
  refine ⟨_, rfl, rfl, ?_, ?_⟩
  · show rate.1 / (Int.gcd rate.1 rate.2 : Int) = rate.1
    rw [h.reduced]
    exact Int.ediv_one _
  · show rate.2 / (Int.gcd rate.1 rate.2 : Int) = rate.2
    rw [h.reduced]
    exact Int.ediv_one _

theorem frameCount_eq_period (grid : SamplingGrid) (durationNs : Int) :
    frameCount durationNs (grid.rate.numerator, grid.rate.denominator) =
      -(-(durationNs * grid.periodDen) / grid.periodNumNs) := by
  unfold frameCount ceilDiv
  rw [← grid.periodNumNs_mul, ← grid.periodDen_mul, ← mul_assoc, ← neg_mul,
    Int.mul_ediv_mul_of_pos_left _ _ grid.divisor_pos]

theorem squeezes_iff_period (grid : SamplingGrid) (interval : NanosecondInterval) :
    Squeezes grid.gridOriginNs interval (grid.rate.numerator, grid.rate.denominator) ↔
      TiesTo grid.periodNumNs grid.periodDen (interval.startNs - grid.gridOriginNs) ∧
        grid.periodNumNs ∣ duration interval * grid.periodDen ∧ duration interval % 2 = 1 := by
  have hne : grid.divisor ≠ 0 := grid.divisor_pos.ne'
  unfold Squeezes TiesTo
  rw [← grid.periodNumNs_mul, ← grid.periodDen_mul, ← mul_assoc, ← mul_assoc, ← mul_assoc,
    Int.mul_dvd_mul_iff_right hne, Int.mul_dvd_mul_iff_right hne]
  tauto

/-- The grid yields at most the planned number of targets, unless the interval
squeezes one more in. -/
theorem targetCount_le_iff {rate : Int × Int} (h : ValidRate rate) (gridOriginNs : Int)
    (interval : NanosecondInterval) :
    ∃ count, targetCount gridOriginNs interval rate = .ok count ∧
      ((count : Int) ≤ frameCount (duration interval) rate ↔
        ¬ Squeezes gridOriginNs interval rate) := by
  obtain ⟨grid, hgrid, horigin, hnum, hden⟩ := cameraGrid_of_valid h gridOriginNs
  have hrate : rate = (grid.rate.numerator, grid.rate.denominator) :=
    Prod.ext hnum.symm hden.symm
  have hresolved : grid.Resolved := by
    show grid.rate.numerator ≤ nanosecondsPerSecond * grid.rate.denominator
    rw [hnum, hden]
    exact h.resolved
  refine ⟨(grid.iterUniqueTargets interval.startNs interval.endNs).length, ?_, ?_⟩
  · unfold targetCount
    rw [hgrid]
    rfl
  rw [hresolved.length_iterUniqueTargets, hrate, frameCount_eq_period, ← horigin,
    squeezes_iff_period, ← firstIndex_sub_le_iff grid.periodNumNs_pos]
  have hend : interval.endNs - grid.gridOriginNs =
      interval.startNs - grid.gridOriginNs + duration interval := by
    unfold duration
    omega
  have hmono : grid.firstKAtOrAfter interval.startNs ≤ grid.firstKAtOrAfter interval.endNs := by
    rw [grid.firstKAtOrAfter_le_iff]
    have hlast : interval.endNs ≤ grid.targetNs (grid.firstKAtOrAfter interval.endNs) :=
      grid.firstKAtOrAfter_le_iff.mp le_rfl
    have := interval.nonempty
    omega
  rw [Int.toNat_of_nonneg (by omega)]
  unfold SamplingGrid.firstKAtOrAfter
  rw [hend]

/-! ## What the planner returns -/

theorem planIntervalParts_split {requested effective : NanosecondInterval} {plan : SamplingPlan}
    {overlapNs : Option Int} {splitPolicy : Option DenseSplitPolicy} {purpose : SamplingPurpose}
    {parts : List IntervalPart}
    (h : planIntervalParts requested effective plan overlapNs splitPolicy purpose = .ok parts) :
    ∃ spec, callSpec requested effective plan overlapNs splitPolicy purpose = .ok spec ∧
      FittingSplit requested effective spec parts := by
  have hcall := h
  rw [planIntervalParts_eq, bind_eq_ok] at hcall
  obtain ⟨spec, hspec, -⟩ := hcall
  obtain ⟨-, e, -, he⟩ | ⟨-, parts', hparts, hsplit⟩ := planIntervalParts_spec hspec
  · cases h.symm.trans he
  · cases h.symm.trans hparts
    exact ⟨spec, hspec, hsplit⟩

/-- Whichever branch the planner takes, the counts of every part fit the budget
of the plan. -/
theorem planIntervalParts_fits {requested effective : NanosecondInterval} {plan : SamplingPlan}
    {overlapNs : Option Int} {splitPolicy : Option DenseSplitPolicy} {purpose : SamplingPurpose}
    {parts : List IntervalPart}
    (h : planIntervalParts requested effective plan overlapNs splitPolicy purpose = .ok parts) :
    ∃ rates, samplingPlanProjection plan purpose = .ok rates ∧ ∀ part ∈ parts,
      (∀ cameraId, frameCount (duration part.effectiveInterval) (rates cameraId) ≤
        plan.frameBudget.maxFramesPerCamera) ∧
      (CameraId.all.map fun cameraId =>
        frameCount (duration part.effectiveInterval) (rates cameraId)).sum ≤
          plan.frameBudget.maxFramesTotal := by
  obtain ⟨spec, hspec, hsplit⟩ := planIntervalParts_split h
  unfold callSpec budgetSpec at hspec
  simp only [bind_eq_ok] at hspec
  obtain ⟨-, -, -, -, _, -, rates, hrates, -, -, -, -, hspec⟩ := hspec
  cases hspec
  exact ⟨rates, hrates, fun part hpart => fitsDuration_iff.mp (hsplit.fits part hpart)⟩

/-! ## The planner against the materializer -/

/-- The targets of every camera stay within the planned counts and these within
the budget, and the materializer accepts the part. -/
def BudgetHolds (plan : SamplingPlan) (purpose : SamplingPurpose) (gridOriginNs : Int)
    (part : IntervalPart) : Prop :=
  ∃ (rates : CameraId → Int × Int) (planned : CameraId → Int) (counts : CameraId → Nat),
    samplingPlanProjection plan purpose = .ok rates ∧
    frameCountsForInterval part.effectiveInterval plan purpose = .ok planned ∧
    (∀ cameraId, targetCount gridOriginNs part.effectiveInterval (rates cameraId) =
      .ok (counts cameraId)) ∧
    (∀ cameraId, (counts cameraId : Int) ≤ planned cameraId) ∧
    (∀ cameraId, counts cameraId ≤ plan.frameBudget.maxFramesPerCamera) ∧
    (CameraId.all.map counts).sum ≤ plan.frameBudget.maxFramesTotal ∧
    materialize plan purpose gridOriginNs part = .ok ()

/-- No camera of the plan squeezes a target into the part. -/
def NoneSqueezes (plan : SamplingPlan) (purpose : SamplingPurpose) (gridOriginNs : Int)
    (part : IntervalPart) : Prop :=
  ∀ rates, samplingPlanProjection plan purpose = .ok rates →
    ∀ cameraId, ¬ Squeezes gridOriginNs part.effectiveInterval (rates cameraId)

theorem targetCounts_eq {plan : SamplingPlan} {purpose : SamplingPurpose} {gridOriginNs : Int}
    {interval : NanosecondInterval} {rates : CameraId → Int × Int} {counts : CameraId → Nat}
    (hrates : samplingPlanProjection plan purpose = .ok rates)
    (hcounts : ∀ cameraId, targetCount gridOriginNs interval (rates cameraId) =
      .ok (counts cameraId)) :
    targetCounts plan purpose gridOriginNs interval = .ok (CameraId.all.map counts) := by
  unfold targetCounts
  rw [hrates, ok_bind, funext hcounts]
  exact List.mapM_pure

theorem checkFrameBudget_ok {budget : FrameBudget} {counts : CameraId → Nat}
    (hcamera : ∀ cameraId, counts cameraId ≤ budget.maxFramesPerCamera)
    (htotal : (CameraId.all.map counts).sum ≤ budget.maxFramesTotal) :
    checkFrameBudget budget (CameraId.all.map counts) = .ok () := by
  have hnone : ((CameraId.all.map counts).any fun count =>
      decide (budget.maxFramesPerCamera < count)) = false := by
    rw [List.any_map, List.any_eq_false]
    intro cameraId _
    have := hcamera cameraId
    simp only [Function.comp_apply, decide_eq_true_eq]
    omega
  unfold checkFrameBudget
  rw [hnone, if_neg Bool.false_ne_true, if_neg (by omega)]

/-- On a part of its own making the planner's counts bound the grid exactly when
no camera squeezes one more target in. -/
theorem planned_part_budget_iff (requested effective : NanosecondInterval) (plan : SamplingPlan)
    (overlapNs : Option Int) (splitPolicy : Option DenseSplitPolicy) (purpose : SamplingPurpose)
    (parts : List IntervalPart)
    (h : planIntervalParts requested effective plan overlapNs splitPolicy purpose = .ok parts)
    (part : IntervalPart) (hpart : part ∈ parts) (gridOriginNs : Int) :
    BudgetHolds plan purpose gridOriginNs part ↔ NoneSqueezes plan purpose gridOriginNs part := by
  obtain ⟨rates, hrates, hfits⟩ := planIntervalParts_fits h
  have hvalid := samplingPlanProjection_valid hrates
  have hcount := fun cameraId =>
    targetCount_le_iff (hvalid cameraId) gridOriginNs part.effectiveInterval
  constructor
  · rintro ⟨rates', planned, counts, hrates', hplanned, hcounts, hle, -⟩ _ hrates₂ cameraId
    rw [hrates'] at hrates₂
    cases hrates₂
    rw [hrates'] at hrates
    cases hrates
    unfold frameCountsForInterval at hplanned
    rw [hrates'] at hplanned
    cases hplanned
    obtain ⟨count, htarget, hiff⟩ := hcount cameraId
    rw [hcounts cameraId] at htarget
    cases htarget
    exact hiff.mp (hle cameraId)
  · intro hnone
    choose counts hcounts hiff using hcount
    obtain ⟨hcamera, htotal⟩ := hfits part hpart
    have hle : ∀ cameraId, (counts cameraId : Int) ≤
        frameCount (duration part.effectiveInterval) (rates cameraId) :=
      fun cameraId => (hiff cameraId).mpr (hnone rates hrates cameraId)
    have hcamera' : ∀ cameraId, counts cameraId ≤ plan.frameBudget.maxFramesPerCamera := by
      intro cameraId
      have := hle cameraId
      have := hcamera cameraId
      omega
    have htotal' : (CameraId.all.map counts).sum ≤ plan.frameBudget.maxFramesTotal := by
      have hsum := List.sum_le_sum (l := CameraId.all) fun cameraId _ => hle cameraId
      have hcast : (((CameraId.all.map counts).sum : Nat) : Int) =
          (CameraId.all.map fun cameraId => (counts cameraId : Int)).sum := by
        rfl
      omega
    refine ⟨rates, _, counts, hrates, ?_, hcounts, hle, hcamera', htotal', ?_⟩
    · unfold frameCountsForInterval
      rw [hrates, ok_bind]
    · unfold materialize
      rw [targetCounts_eq hrates hcounts]
      exact checkFrameBudget_ok hcamera' htotal'

/-- 1024 targets a second lie 976562.5 ns apart, so every second one is a tie. -/
def tiePlan : SamplingPlan where
  version := "1.0"
  qaSamplingRateFps := ⟨1, by decide⟩
  denseSamplingRateFps := ⟨1024, by decide⟩
  perCamera := []
  frameBudget := ⟨2, 12, .splitWindow, Nat.two_pos, by decide⟩

/-- Four periods, from half a nanosecond past the third target on. -/
def tieInterval : NanosecondInterval := ⟨2929688, 6835938, by decide, by decide, by decide⟩

/-- The two parts of two periods that the planner cuts it into. -/
def tieParts : List IntervalPart :=
  let first : NanosecondInterval := ⟨2929688, 4882813, by decide, by decide, by decide⟩
  let second : NanosecondInterval := ⟨4882813, 6835938, by decide, by decide, by decide⟩
  [⟨first, first, 0, 2, 0, 0⟩, ⟨second, second, 1, 2, 0, 0⟩]

/-- The first part holds three targets where two are planned and allowed. -/
theorem tie_part_exceeds_budget :
    planIntervalParts tieInterval tieInterval tiePlan none none .actionDense = .ok tieParts ∧
    (∃ part ∈ tieParts, targetCount 0 part.effectiveInterval (1024, 1) = .ok 3 ∧
      frameCount (duration part.effectiveInterval) (1024, 1) = 2 ∧
      materialize tiePlan .actionDense 0 part =
        .error (.frameBudgetExceeded "materialized part exceeds the per-camera frame budget") ∧
      ¬ BudgetHolds tiePlan .actionDense 0 part) := by
  refine ⟨by decide +kernel, tieParts.head (by decide), by decide, by decide +kernel,
    by decide +kernel, by decide +kernel, ?_⟩
  have hfails : materialize tiePlan .actionDense 0 (tieParts.head (by decide)) ≠ .ok () := by
    decide +kernel
  rintro ⟨-, -, -, -, -, -, -, -, -, haccepts⟩
  exact hfails haccepts

/-! ## The targets of the parts -/

/-- The instants of a split interval are those of its parts. -/
theorem ExactSplit.exists_part {requested effective : NanosecondInterval} {overlapNs : Int}
    {parts : List IntervalPart} (h : ExactSplit requested effective overlapNs parts) {t : Int} :
    (effective.startNs ≤ t ∧ t < effective.endNs) ↔ ∃ part ∈ parts,
      part.effectiveInterval.startNs ≤ t ∧ t < part.effectiveInterval.endNs := by
  constructor
  · rintro ⟨hstart, hend⟩
    obtain ⟨first, hfirst, hfirstNs, -⟩ := h.first
    obtain ⟨last, hlast, hlastNs, -⟩ := h.last
    obtain ⟨rest, rfl⟩ := List.head?_eq_some_iff.mp hfirst
    rw [List.getLast?_eq_some_getLast (List.cons_ne_nil _ _), Option.some.injEq] at hlast
    refine exists_mem_of_chain (·.effectiveInterval.startNs) (·.effectiveInterval.endNs)
      (h.adjacent.imp fun _ _ hfollows => hfollows.covered) (hfirstNs.le.trans hstart) ?_
    rw [hlast, hlastNs]
    exact hend
  · rintro ⟨part, hpart, hstart, hend⟩
    obtain ⟨hfrom, hto, -⟩ := h.inside part hpart
    exact ⟨hfrom.trans hstart, hend.trans_le hto⟩

/-- Cutting an interval neither loses a target nor moves one: a grid yields in the parts what it
yields in the interval. -/
theorem mem_targets_iff_part {requested effective : NanosecondInterval} {plan : SamplingPlan}
    {overlapNs : Option Int} {splitPolicy : Option DenseSplitPolicy} {purpose : SamplingPurpose}
    {parts : List IntervalPart}
    (h : planIntervalParts requested effective plan overlapNs splitPolicy purpose = .ok parts)
    (grid : SamplingGrid) (target : SamplingTarget) :
    target ∈ grid.iterUniqueTargets effective.startNs effective.endNs ↔ ∃ part ∈ parts,
      target ∈ grid.iterUniqueTargets part.effectiveInterval.startNs
        part.effectiveInterval.endNs := by
  obtain ⟨_, -, hsplit⟩ := planIntervalParts_split h
  have hexact : ∀ interval : NanosecondInterval,
      target ∈ grid.iterUniqueTargets interval.startNs interval.endNs ↔
        (interval.startNs ≤ target.targetNs ∧ target.targetNs < interval.endNs) ∧
          IsLeast { k | grid.targetNs k = target.targetNs } target.k := fun _ =>
    ((SamplingGrid.targetsFrom_exact rfl).mem_iff target).trans and_assoc.symm
  simp only [hexact, hsplit.exists_part, ← exists_and_right, and_assoc]

/-- The tie before the cut of the plan. -/
theorem mem_targets_iff_tie_part :
    let grid : SamplingGrid := ⟨0, ⟨1024, 1, by decide, by decide, by decide⟩⟩
    ⟨5, 4882812⟩ ∈ grid.iterUniqueTargets 2929688 6835938 ↔ ∃ part ∈ tieParts,
      ⟨5, 4882812⟩ ∈ grid.iterUniqueTargets part.effectiveInterval.startNs
        part.effectiveInterval.endNs := by
  have hparts : planIntervalParts tieInterval tieInterval tiePlan none none .actionDense =
      .ok tieParts := by decide +kernel
  exact mem_targets_iff_part hparts _ _

/-- From an odd origin the same plan keeps its promise. -/
theorem tie_plan_from_odd_origin :
    BudgetHolds tiePlan .actionDense 1 (tieParts.head (by decide)) ∧
      NoneSqueezes tiePlan .actionDense 1 (tieParts.head (by decide)) := by
  have hnone : NoneSqueezes tiePlan .actionDense 1 (tieParts.head (by decide)) := by
    have hodd : ¬ Squeezes 1 (tieParts.head (by decide)).effectiveInterval (1024, 1) := by decide
    intro rates hrates cameraId
    cases hrates
    exact hodd
  exact ⟨(planned_part_budget_iff tieInterval tieInterval tiePlan none none .actionDense tieParts
    (by decide +kernel) (tieParts.head (by decide)) (by decide) 1).mpr hnone, hnone⟩

end Robata.Sampling
