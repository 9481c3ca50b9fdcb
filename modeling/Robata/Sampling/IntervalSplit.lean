import Robata.Lib.Transaction
import Robata.Sampling.Dense

/-!
# Splitting an interval exactly

`plan_interval_parts` cuts an interval that exceeds the frame budget into parts of the longest span
that fits.  The frame counts grow with the duration, so the bisection finds that span; part `i`
then starts `i` strides after the interval does, and the last part takes what is left.
-/

namespace Robata.Sampling

open Contracts Lib List

/-! ## Rates of a projection -/

/-- What `_rate_fraction` guarantees. -/
structure ValidRate (rate : Int × Int) : Prop where
  numerator_pos : 0 < rate.1
  denominator_pos : 0 < rate.2
  reduced : Int.gcd rate.1 rate.2 = 1
  resolved : rate.1 ≤ nanosecondsPerSecond * rate.2

theorem rateFraction_valid {fps : Fps} {rate : Int × Int} (h : rateFraction fps = .ok rate) :
    ValidRate rate := by
  unfold rateFraction at h
  simp only [bind_eq_ok, refuse_eq_ok, decide_eq_false_iff_not] at h
  obtain ⟨-, hpos, -, hresolved, h⟩ := h
  cases h
  refine ⟨?_, ?_, ?_, ?_⟩
  · omega
  · show (0 : Int) < ((limitDenominator fps maxRateDenominator).den : Int)
    exact_mod_cast (limitDenominator fps maxRateDenominator).den_pos
  · exact (limitDenominator fps maxRateDenominator).reduced
  · show (limitDenominator fps maxRateDenominator).num ≤
      nanosecondsPerSecond * ((limitDenominator fps maxRateDenominator).den : Int)
    omega

theorem overrideRates_valid {overrides : List PerCameraOverride} :
    ∀ {before after : List (CameraId × Int × Int)},
      overrideRates overrides before = .ok after → (∀ entry ∈ before, ValidRate entry.2) →
      ∀ entry ∈ after, ValidRate entry.2 := by
  induction overrides with
  | nil =>
    intro before after h hbefore
    cases h
    exact hbefore
  | cons override rest ih =>
    intro before after h hbefore
    unfold overrideRates at h
    split at h
    · cases h
    · simp only [bind_eq_ok] at h
      obtain ⟨-, -, rate, hrate, h⟩ := h
      refine ih h ?_
      intro entry hentry
      rw [mem_append, mem_singleton] at hentry
      rcases hentry with hold | rfl
      · exact hbefore entry hold
      · exact rateFraction_valid hrate

variable {plan : SamplingPlan} {purpose : SamplingPurpose}

theorem purposeRates_valid {rates : CameraId → Int × Int}
    (h : purposeRates plan purpose = .ok rates) (cameraId : CameraId) :
    ValidRate (rates cameraId) := by
  have hoverrides : ∀ {rates : CameraId → Int × Int},
      (do
        let overrides ← overrideRates plan.perCamera []
        let globalRate ← rateFraction plan.denseSamplingRateFps
        .ok fun cameraId =>
          ((overrides.find? fun entry => entry.1 == cameraId).map fun entry => entry.2).getD
            globalRate : Except String (CameraId → Int × Int)) = .ok rates →
      ValidRate (rates cameraId) := by
    intro rates h
    simp only [bind_eq_ok] at h
    obtain ⟨overrides, hover, globalRate, hglobal, h⟩ := h
    cases h
    simp only
    cases hfind : overrides.find? fun entry => entry.1 == cameraId with
    | none => exact rateFraction_valid hglobal
    | some entry =>
      exact overrideRates_valid hover (forall_mem_nil _) entry
        (mem_of_find?_eq_some hfind)
  cases purpose with
  | qaCoarse | qaDense =>
    obtain ⟨globalRate, hglobal, h⟩ := bind_eq_ok.mp h
    cases h
    exact rateFraction_valid hglobal
  | eventProposal => cases h
  | actionDense | boundaryRefinement => exact hoverrides h

theorem samplingPlanProjection_valid {rates : CameraId → Int × Int}
    (h : samplingPlanProjection plan purpose = .ok rates) (cameraId : CameraId) :
    ValidRate (rates cameraId) := by
  unfold samplingPlanProjection at h
  simp only [bind_eq_ok] at h
  obtain ⟨rates', hrates, -, -, h⟩ := h
  cases h
  exact purposeRates_valid hrates cameraId

variable {d : Int}

theorem frameCount_mono {rate : Int × Int} (h : ValidRate rate) {d' : Int} (hd : d ≤ d') :
    frameCount d rate ≤ frameCount d' rate := by
  have hpos : 0 < nanosecondsPerSecond * rate.2 := Int.mul_pos (by decide) h.denominator_pos
  have hmul : d * rate.1 ≤ d' * rate.1 := Int.mul_le_mul_of_nonneg_right hd h.numerator_pos.le
  have hdiv := Int.ediv_le_ediv hpos (neg_le_neg hmul)
  unfold frameCount ceilDiv
  omega

variable {spec : BudgetSpec}

theorem fitsDuration_iff : fitsDuration d spec = true ↔
      (∀ cameraId, frameCount d (spec.rates cameraId) ≤ spec.maxFramesPerCamera) ∧
        (CameraId.all.map fun cameraId => frameCount d (spec.rates cameraId)).sum ≤
          spec.maxFramesTotal := by
  unfold fitsDuration
  simp only [Bool.and_eq_true, all_map, all_eq_true, Function.comp_apply, decide_eq_true_eq]
  constructor
  · intro h
    exact ⟨fun cameraId => h.1 cameraId cameraId.mem_all, h.2⟩
  · intro h
    exact ⟨fun cameraId _ => h.1 cameraId, h.2⟩

variable {durationNs : Int} (hrates : ∀ cameraId, ValidRate (spec.rates cameraId))

include hrates in
theorem fitsDuration_mono {d' : Int} (hd : d ≤ d') (h : fitsDuration d' spec = true) :
    fitsDuration d spec = true := by
  rw [fitsDuration_iff] at h ⊢
  refine ⟨fun cameraId => (frameCount_mono (hrates cameraId) hd).trans (h.1 cameraId), ?_⟩
  refine le_trans ?_ h.2
  exact sum_le_sum fun cameraId _ => frameCount_mono (hrates cameraId) hd

/-! ## The longest span -/

theorem fitsDuration_zero (spec : BudgetSpec) : fitsDuration 0 spec = true := by
  have hzero : ∀ rate, frameCount 0 rate = 0 := by
    simp [frameCount, ceilDiv]
  rw [fitsDuration_iff]
  simp [hzero]

include hrates in
/-- Bisection keeps a low end that fits and drops only durations that do not. -/
theorem bisectDuration_greatest (low high : Int) (hle : low ≤ high)
    (hlow : fitsDuration low spec = true) :
    IsGreatest {d | d ≤ high ∧ fitsDuration d spec = true} (bisectDuration spec low high) := by
  fun_induction bisectDuration spec low high with
  | case1 low high hlt middle hfits ih => exact ih (by omega) hfits
  | case2 low high hlt middle hfits ih =>
      obtain ⟨⟨hmiddle, hresult⟩, hupper⟩ := ih (by omega) hlow
      refine ⟨⟨by omega, hresult⟩, ?_⟩
      rintro d ⟨_, hd⟩
      have hbelow : d < middle := by
        by_contra hge
        exact hfits (fitsDuration_mono hrates (not_lt.mp hge) hd)
      exact hupper ⟨by omega, hd⟩
  | case3 low high hlt =>
      refine ⟨⟨hle, hlow⟩, ?_⟩
      rintro d ⟨hd, _⟩
      omega

include hrates in
theorem maximumFittingDuration_greatest (hduration : 0 ≤ durationNs) :
    IsGreatest {d | d ≤ durationNs ∧ fitsDuration d spec = true}
      (maximumFittingDuration durationNs spec) :=
  bisectDuration_greatest hrates 0 durationNs hduration (fitsDuration_zero spec)

/-! ## The coordinates -/

/-- The number of parts that the planner checks before it lays them out. -/
def estimatedParts (durationNs maximumSpan overlapNs : Int) : Int :=
  (durationNs - maximumSpan + (maximumSpan - overlapNs) - 1) / (maximumSpan - overlapNs) + 1

/-- The bounds of a part by its ordinal. -/
def coordinateAt (maximumSpan overlapNs endNs startNs : Int) (ordinal : Nat) : Int × Int :=
  let start := startNs + ordinal * (maximumSpan - overlapNs)
  (start, min (start + maximumSpan) endNs)

/-- The bounds of the parts of a layout. -/
def layoutCoordinates (maximumSpan overlapNs : Int) (effective : NanosecondInterval)
    (partCount : Nat) : List (Int × Int) :=
  (List.range partCount).map (coordinateAt maximumSpan overlapNs effective.endNs effective.startNs)

theorem stride_succ (maximumSpan overlapNs : Int) (ordinal : Nat) :
    ((ordinal + 1 : Nat) : Int) * (maximumSpan - overlapNs) =
      ordinal * (maximumSpan - overlapNs) + (maximumSpan - overlapNs) := by
  push_cast
  ring

theorem coordinateAt_succ (maximumSpan overlapNs endNs startNs : Int) (ordinal : Nat) :
    coordinateAt maximumSpan overlapNs endNs startNs (ordinal + 1) =
      coordinateAt maximumSpan overlapNs endNs (startNs + maximumSpan - overlapNs) ordinal := by
  have hstart : startNs + ((ordinal + 1 : Nat) : Int) * (maximumSpan - overlapNs) =
      startNs + maximumSpan - overlapNs + ordinal * (maximumSpan - overlapNs) := by
    rw [stride_succ]
    ring
  unfold coordinateAt
  simp only [hstart]

variable {requested effective : NanosecondInterval} {maximumSpan overlapNs : Int}

theorem estimatedParts_of_le (hspan : overlapNs < durationNs) (hle : durationNs ≤ maximumSpan) :
    estimatedParts durationNs maximumSpan overlapNs = 1 := by
  unfold estimatedParts
  rw [Int.ediv_eq_zero_of_lt (by omega) (by omega)]
  rfl

theorem estimatedParts_of_lt (hspan : overlapNs < maximumSpan) :
    estimatedParts durationNs maximumSpan overlapNs =
      estimatedParts (durationNs - (maximumSpan - overlapNs)) maximumSpan overlapNs + 1 := by
  have hstride : maximumSpan - overlapNs ≠ 0 := by omega
  have hsub := Int.add_mul_ediv_right
    (durationNs - (maximumSpan - overlapNs) - maximumSpan + (maximumSpan - overlapNs) - 1) 1 hstride
  unfold estimatedParts
  rw [← hsub]
  congr 2
  ring

theorem estimatedParts_pos (hspan : overlapNs < maximumSpan) (hduration : overlapNs < durationNs) :
    0 < estimatedParts durationNs maximumSpan overlapNs := by
  have := Int.ediv_nonneg (a := durationNs - maximumSpan + (maximumSpan - overlapNs) - 1)
    (b := maximumSpan - overlapNs) (by omega) (by omega)
  unfold estimatedParts
  omega

theorem splitCoordinates_eq {endNs startNs : Int} (hoverlap : 0 ≤ overlapNs)
    (hspan : overlapNs < maximumSpan) (hstart : overlapNs < endNs - startNs) :
    splitCoordinates maximumSpan overlapNs endNs startNs =
      .ok ((List.range (estimatedParts (endNs - startNs) maximumSpan overlapNs).toNat).map
        (coordinateAt maximumSpan overlapNs endNs startNs)) := by
  fun_induction splitCoordinates maximumSpan overlapNs endNs startNs with
  | case1 start _ currentEnd span hshort => omega
  | case2 start _ currentEnd span hlong hlast =>
      rw [estimatedParts_of_le hstart (by omega)]
      simp only [Int.toNat_one, range_one, map_singleton, coordinateAt, Nat.cast_zero,
        zero_mul, add_zero]
      rfl
  | case3 start _ currentEnd span hlong hlast nextStart hstuck => omega
  | case4 start _ currentEnd span hlong hlast nextStart hprogress ih =>
      have hnext : nextStart = start + maximumSpan - overlapNs := by omega
      have hrest : endNs - nextStart = endNs - start - (maximumSpan - overlapNs) := by omega
      have hpos := estimatedParts_pos hspan (by omega : overlapNs < endNs - nextStart)
      have hcount : (estimatedParts (endNs - start) maximumSpan overlapNs).toNat =
          (estimatedParts (endNs - nextStart) maximumSpan overlapNs).toNat + 1 := by
        rw [estimatedParts_of_lt hspan, ← hrest]
        omega
      rw [ih (by omega), ok_bind, hcount, range_succ_eq_map, map_cons, map_map]
      congr 2
      · simp only [coordinateAt, Nat.cast_zero, zero_mul, add_zero]
        rfl
      · refine map_congr_left ?_
        intro ordinal _
        rw [Function.comp_apply, coordinateAt_succ, hnext]
  | case5 start hdone => omega

/-! ## The parts -/

/-- What the parts of a layout are: `partCount` parts of the longest span, of which only the last
reaches the end of the interval. -/
structure Layout (requested effective : NanosecondInterval) (maximumSpan overlapNs : Int)
    (partCount : Nat) : Prop where
  overlap_nonneg : 0 ≤ overlapNs
  overlap_lt : overlapNs < maximumSpan
  inside : requested.startNs ≤ effective.startNs ∧ effective.endNs ≤ requested.endNs
  pos : 0 < partCount
  before : ∀ ordinal : Nat, ordinal + 1 < partCount →
    effective.startNs + ordinal * (maximumSpan - overlapNs) + maximumSpan < effective.endNs
  last : ∀ ordinal : Nat, ordinal + 1 = partCount →
    effective.startNs + ordinal * (maximumSpan - overlapNs) + overlapNs < effective.endNs ∧
      effective.endNs ≤ effective.startNs + ordinal * (maximumSpan - overlapNs) + maximumSpan

/-- A part at its ordinal. -/
structure PlacedAt (requested effective : NanosecondInterval) (maximumSpan overlapNs : Int)
    (partCount ordinal : Nat) (part : IntervalPart) : Prop where
  ordinal_eq : part.ordinal = ordinal
  partCount_eq : part.partCount = partCount
  start : part.effectiveInterval.startNs = effective.startNs + ordinal * (maximumSpan - overlapNs)
  stop : part.effectiveInterval.endNs = if ordinal + 1 = partCount then effective.endNs
    else effective.startNs + ordinal * (maximumSpan - overlapNs) + maximumSpan
  requestedStart : part.requestedInterval.startNs =
    if ordinal = 0 then requested.startNs else part.effectiveInterval.startNs
  requestedStop : part.requestedInterval.endNs =
    if ordinal + 1 = partCount then requested.endNs else part.effectiveInterval.endNs
  overlapBefore : part.overlapBeforeNs = if ordinal = 0 then 0 else overlapNs
  overlapAfter : part.overlapAfterNs = if ordinal + 1 = partCount then 0 else overlapNs

theorem layout_of_estimatedParts (hoverlap : 0 ≤ overlapNs) (hspan : overlapNs < maximumSpan)
    (hduration : overlapNs < duration effective)
    (hinside : requested.startNs ≤ effective.startNs ∧ effective.endNs ≤ requested.endNs) :
    Layout requested effective maximumSpan overlapNs
      (estimatedParts (duration effective) maximumSpan overlapNs).toNat := by
  have hpos := estimatedParts_pos hspan hduration
  have hstride : 0 < maximumSpan - overlapNs := by omega
  -- the estimate counts the strides in what is left of the interval after the overlap
  have hbounds : ∀ ordinal : Nat,
      (ordinal : Int) + 1 ≤ estimatedParts (duration effective) maximumSpan overlapNs ↔
        ordinal * (maximumSpan - overlapNs) ≤ duration effective - overlapNs - 1 := by
    intro ordinal
    rw [← Int.le_ediv_iff_mul_le hstride]
    unfold estimatedParts
    rw [show duration effective - maximumSpan + (maximumSpan - overlapNs) - 1 =
      duration effective - overlapNs - 1 by ring]
    omega
  have hduration' : duration effective = effective.endNs - effective.startNs := rfl
  refine ⟨hoverlap, hspan, hinside, by omega, ?_, ?_⟩
  · intro ordinal hlt
    have hroom := (hbounds (ordinal + 1)).mp (by omega)
    rw [stride_succ] at hroom
    omega
  · intro ordinal hlast
    have hroom := (hbounds ordinal).mp (by omega)
    have hfull := (hbounds (ordinal + 1)).not.mp (by omega)
    rw [stride_succ] at hfull
    omega

theorem nanosecondInterval_completes {startNs endNs : Int} (hlower : int64Min ≤ startNs)
    (hupper : endNs ≤ int64Max) (hnonempty : startNs < endNs) :
    ∃ interval, nanosecondInterval startNs endNs = .ok interval ∧
      interval.startNs = startNs ∧ interval.endNs = endNs := by
  obtain ⟨interval, hmake, hstart, hend⟩ :=
    NanosecondInterval.make?_completes hlower hupper hnonempty
  refine ⟨interval, ?_, hstart, hend⟩
  unfold nanosecondInterval
  rw [hmake]

namespace Layout

variable {partCount : Nat} (h : Layout requested effective maximumSpan overlapNs partCount)
include h

theorem stride_nonneg (ordinal : Nat) : 0 ≤ (ordinal : Int) * (maximumSpan - overlapNs) :=
  Int.mul_nonneg (Int.natCast_nonneg _) (by have := h.overlap_lt; omega)

theorem stop_eq {ordinal : Nat} (hordinal : ordinal < partCount) :
    (coordinateAt maximumSpan overlapNs effective.endNs effective.startNs ordinal).2 =
      if ordinal + 1 = partCount then effective.endNs
      else effective.startNs + ordinal * (maximumSpan - overlapNs) + maximumSpan := by
  split_ifs with hlast
  · exact min_eq_right (h.last ordinal hlast).2
  · exact min_eq_left (h.before ordinal (by omega)).le

theorem partAt_placed {ordinal : Nat} (hordinal : ordinal < partCount) :
    ∃ part, partAt requested (layoutCoordinates maximumSpan overlapNs effective partCount) ordinal
        (coordinateAt maximumSpan overlapNs effective.endNs effective.startNs ordinal) = .ok part ∧
      PlacedAt requested effective maximumSpan overlapNs partCount ordinal part := by
  have hstart : (coordinateAt maximumSpan overlapNs effective.endNs effective.startNs ordinal).1 =
      effective.startNs + ordinal * (maximumSpan - overlapNs) := rfl
  have hstop := h.stop_eq hordinal
  have hnonneg := h.stride_nonneg ordinal
  have hoverlap := h.overlap_nonneg
  have hspan := h.overlap_lt
  have hinside := h.inside
  have hbefore := h.before ordinal
  have hlast := h.last ordinal
  have hlower := requested.lower
  have hupper := requested.upper
  generalize hcoordinate :
    coordinateAt maximumSpan overlapNs effective.endNs effective.startNs ordinal = c
    at hstart hstop ⊢
  obtain ⟨interval, hinterval, hs, he⟩ := nanosecondInterval_completes
    (by omega : int64Min ≤ c.1) (by split_ifs at hstop <;> omega : c.2 ≤ int64Max)
    (by split_ifs at hstop <;> omega)
  have hlow : int64Min ≤ if ordinal = 0 then requested.startNs else c.1 := by
    split_ifs <;> omega
  have hhigh : (if ordinal + 1 = partCount then requested.endNs else c.2) ≤ int64Max := by
    split_ifs at hstop ⊢ <;> omega
  obtain ⟨outer, houter, hos, hoe⟩ := nanosecondInterval_completes hlow hhigh
    (by split_ifs at hstop ⊢ <;> omega)
  unfold partAt layoutCoordinates
  simp only [length_map, length_range, beq_iff_eq]
  rw [hinterval, houter]
  refine ⟨_, rfl, rfl, rfl, by rw [← hstart]; exact hs, by rw [← hstop]; exact he,
    by rw [hs]; exact hos, by rw [he]; exact hoe, ?_, ?_⟩
  · by_cases hzero : ordinal = 0
    · rw [if_neg (by omega), if_pos hzero]
    · have hprevious : ordinal - 1 < partCount := by omega
      have hstride := stride_succ maximumSpan overlapNs (ordinal - 1)
      rw [Nat.sub_add_cancel (by omega)] at hstride
      rw [if_pos (by omega), if_neg hzero, getElem?_map, getElem?_range hprevious]
      show (coordinateAt _ _ _ _ (ordinal - 1)).2 - c.1 = overlapNs
      rw [h.stop_eq hprevious]
      omega
  · show (if ordinal + 1 = partCount then (0 : Int) else _) = _
    split_ifs with hfinal
    · rfl
    · have hstride := stride_succ maximumSpan overlapNs ordinal
      rw [getElem?_map, getElem?_range (by omega : ordinal + 1 < partCount)]
      show c.2 - (effective.startNs + ((ordinal + 1 : Nat) : Int) * (maximumSpan - overlapNs)) = _
      omega

theorem mapM_partAt :
    ∃ parts, (layoutCoordinates maximumSpan overlapNs effective partCount).zipIdx.mapM
        (fun entry => partAt requested
          (layoutCoordinates maximumSpan overlapNs effective partCount) entry.2 entry.1) =
        .ok parts ∧
      parts.length = partCount ∧ ∀ ordinal part, parts[ordinal]? = some part →
        PlacedAt requested effective maximumSpan overlapNs partCount ordinal part := by
  have hpart : ∀ entry ∈ (layoutCoordinates maximumSpan overlapNs effective partCount).zipIdx,
      ∃ part, partAt requested (layoutCoordinates maximumSpan overlapNs effective partCount)
          entry.2 entry.1 = .ok part ∧
        PlacedAt requested effective maximumSpan overlapNs partCount entry.2 part := by
    rintro ⟨c, ordinal⟩ hentry
    rw [mk_mem_zipIdx_iff_getElem?, layoutCoordinates, getElem?_map,
      Option.map_eq_some_iff] at hentry
    obtain ⟨k, hk, rfl⟩ := hentry
    obtain ⟨hlt, hget⟩ := List.getElem?_eq_some_iff.mp hk
    rw [getElem_range] at hget
    rw [length_range] at hlt
    subst hget
    exact h.partAt_placed hlt
  obtain ⟨parts, hparts, hall⟩ := mapM_completes hpart
  obtain ⟨hlength, hplaced⟩ := forall₂_iff_get.mp hall
  simp only [layoutCoordinates, length_zipIdx, length_map, length_range] at hlength
  refine ⟨parts, hparts, hlength.symm, ?_⟩
  intro ordinal part hpart
  obtain ⟨hlt, rfl⟩ := List.getElem?_eq_some_iff.mp hpart
  have hat := hplaced ordinal (by simpa [layoutCoordinates, hlength] using hlt) hlt
  simpa [layoutCoordinates] using hat

end Layout

/-! ## The package set -/

/-- The coordinates of a `TemporalPackageSetMember`. -/
structure TemporalPackageSetMember where
  (ordinal partCount : Nat)
  (requestedStartNs requestedEndNs startNs endNs overlapBeforeNs overlapAfterNs : Int)

def memberFromPart (part : IntervalPart) : TemporalPackageSetMember where
  ordinal := part.ordinal
  partCount := part.partCount
  requestedStartNs := part.requestedInterval.startNs
  requestedEndNs := part.requestedInterval.endNs
  startNs := part.effectiveInterval.startNs
  endNs := part.effectiveInterval.endNs
  overlapBeforeNs := part.overlapBeforeNs
  overlapAfterNs := part.overlapAfterNs

/-- The coordinates of a `TemporalPackageSet`. -/
structure TemporalPackageSet where
  (requestedStartNs requestedEndNs startNs endNs : Int)
  members : List TemporalPackageSetMember

/-- The package set of a split window. -/
def packageSetOf (requested effective : NanosecondInterval) (parts : List IntervalPart) :
    TemporalPackageSet where
  requestedStartNs := requested.startNs
  requestedEndNs := requested.endNs
  startNs := effective.startNs
  endNs := effective.endNs
  members := parts.map memberFromPart

def checkMember (packageSet : TemporalPackageSet) (member : TemporalPackageSetMember) :
    Except String Unit := do
  refuse (decide (member.startNs < packageSet.startNs ∨ packageSet.endNs < member.endNs))
    "member effective interval must lie within the package set"
  refuse (decide (member.requestedStartNs < packageSet.requestedStartNs ∨
      packageSet.requestedEndNs < member.requestedEndNs))
    "member requested interval must lie within the package set"

/-- The checks on two adjacent members. -/
def checkAdjacent (previous current : TemporalPackageSetMember) : Except String Unit := do
  refuse (decide (current.startNs ≤ previous.startNs ∨ current.endNs ≤ previous.endNs))
    "member intervals must make strict temporal progress"
  refuse (decide (previous.endNs < current.startNs))
    "member effective intervals must cover without gaps"
  let overlap := previous.endNs - current.startNs
  refuse (decide (previous.overlapAfterNs ≠ overlap ∨ current.overlapBeforeNs ≠ overlap))
    "adjacent member overlap metadata is inconsistent"

/-- `validate_package_set`, as far as it reads coordinates. -/
def validatePackageSet (packageSet : TemporalPackageSet) : Except String Unit := do
  let members := packageSet.members
  refuse (decide (packageSet.requestedEndNs ≤ packageSet.requestedStartNs))
    "package-set requested interval must be nonempty"
  refuse (decide (packageSet.endNs ≤ packageSet.startNs))
    "package-set effective interval must be nonempty"
  refuse (decide (packageSet.startNs < packageSet.requestedStartNs ∨
      packageSet.requestedEndNs < packageSet.endNs))
    "package-set effective interval must be contained by requested interval"
  refuse members.isEmpty "package set must contain at least one member"
  refuse (decide (members.map (·.ordinal) ≠ List.range members.length))
    "member ordinals must be consecutive and stored in order"
  refuse (members.any (·.partCount != members.length))
    "every member part_count must equal the package-set size"
  refuse (members.head?.any (·.startNs != packageSet.startNs))
    "first member must start at the package-set effective start"
  refuse (members.getLast?.any (·.endNs != packageSet.endNs))
    "last member must end at the package-set effective end"
  refuse (members.head?.any (·.overlapBeforeNs != 0)) "first member cannot have overlap_before_ns"
  refuse (members.getLast?.any (·.overlapAfterNs != 0)) "last member cannot have overlap_after_ns"
  members.forM (checkMember packageSet)
  (members.zip members.tail).forM fun pair => checkAdjacent pair.1 pair.2
  refuse (members.length == 1 && members.head?.any fun member =>
      member.overlapBeforeNs != 0 || member.overlapAfterNs != 0)
    "the unsplit member cannot have overlap"

/-- A part and the next one. -/
structure Follows (overlapNs : Int) (previous current : IntervalPart) : Prop where
  start : previous.effectiveInterval.startNs < current.effectiveInterval.startNs
  stop : previous.effectiveInterval.endNs < current.effectiveInterval.endNs
  covered : current.effectiveInterval.startNs ≤ previous.effectiveInterval.endNs
  overlap : previous.effectiveInterval.endNs - current.effectiveInterval.startNs = overlapNs
  recordedAfter : previous.overlapAfterNs = overlapNs
  recordedBefore : current.overlapBeforeNs = overlapNs

/-- An interval cut without gaps into overlapping parts. -/
structure ExactSplit (requested effective : NanosecondInterval) (overlapNs : Int)
    (parts : List IntervalPart) : Prop where
  ordinals : parts.map (·.ordinal) = List.range parts.length
  partCounts : ∀ part ∈ parts, part.partCount = parts.length
  first : ∃ part, parts.head? = some part ∧
    part.effectiveInterval.startNs = effective.startNs ∧ part.overlapBeforeNs = 0
  last : ∃ part, parts.getLast? = some part ∧
    part.effectiveInterval.endNs = effective.endNs ∧ part.overlapAfterNs = 0
  adjacent : parts.IsChain (Follows overlapNs)
  inside : ∀ part ∈ parts, effective.startNs ≤ part.effectiveInterval.startNs ∧
    part.effectiveInterval.endNs ≤ effective.endNs ∧
    requested.startNs ≤ part.requestedInterval.startNs ∧
    part.requestedInterval.endNs ≤ requested.endNs

variable {parts : List IntervalPart}

theorem ExactSplit.accepted (h : ExactSplit requested effective overlapNs parts)
    (hinside : requested.startNs ≤ effective.startNs ∧ effective.endNs ≤ requested.endNs) :
    validatePackageSet (packageSetOf requested effective parts) = .ok () := by
  obtain ⟨first, hfirst, hstart, hbefore⟩ := h.first
  obtain ⟨last, hlast, hend, hafter⟩ := h.last
  have hmember : ∀ part ∈ parts,
      checkMember (packageSetOf requested effective parts) (memberFromPart part) = .ok () := by
    intro part hpart
    have hinside := h.inside part hpart
    simp only [checkMember, bind_eq_ok, refuse_eq_ok, decide_eq_false_iff_not, exists_const]
    simp only [packageSetOf, memberFromPart]
    omega
  have hadjacent : ∀ previous current, Follows overlapNs previous current →
      checkAdjacent (memberFromPart previous) (memberFromPart current) = .ok () := by
    intro previous current hfollows
    obtain ⟨hs, he, hcovered, hoverlap, hrecordedAfter, hrecordedBefore⟩ := hfollows
    simp only [checkAdjacent, bind_eq_ok, refuse_eq_ok, decide_eq_false_iff_not, exists_const]
    simp only [memberFromPart]
    omega
  have hsingle : parts.length = 1 → first.overlapAfterNs = 0 := by
    intro hone
    obtain ⟨only, rfl⟩ := length_eq_one_iff.mp hone
    cases hfirst
    cases hlast
    exact hafter
  have hrequested := requested.nonempty
  have heffective := effective.nonempty
  have hfirstMember : (parts.map memberFromPart).head? = some (memberFromPart first) := by
    rw [head?_map, hfirst]
    rfl
  have hlastMember : (parts.map memberFromPart).getLast? = some (memberFromPart last) := by
    rw [getLast?_map, hlast]
    rfl
  have hnonempty : parts.isEmpty = false := by
    cases parts with
    | nil => cases hfirst
    | cons => rfl
  unfold validatePackageSet
  simp only [bind_eq_ok, refuse_eq_ok, decide_eq_false_iff_not, exists_const]
  refine ⟨not_le.mpr hrequested, not_le.mpr heffective, not_or.mpr ⟨hinside.1.not_gt,
    hinside.2.not_gt⟩, ?_, ?_, ?_, ?_, ?_, ?_, ?_, (), ?_, (), ?_, ?_⟩
  · exact isEmpty_map.trans hnonempty
  · rw [not_not, packageSetOf, map_map, length_map]
    exact h.ordinals
  · simp only [packageSetOf, any_map, any_eq_false]
    intro part hpart
    simpa [memberFromPart] using h.partCounts part hpart
  · simp [packageSetOf, hfirstMember, memberFromPart, hstart]
  · simp [packageSetOf, hlastMember, memberFromPart, hend]
  · simp [packageSetOf, hfirstMember, memberFromPart, hbefore]
  · simp [packageSetOf, hlastMember, memberFromPart, hafter]
  · refine forM_eq_ok_iff.mpr ?_
    intro member hmem
    obtain ⟨part, hpart, rfl⟩ := mem_map.mp hmem
    exact hmember part hpart
  · refine forM_eq_ok_iff.mpr ?_
    rintro ⟨previous, current⟩ hpair
    obtain ⟨ordinal, hget⟩ := mem_iff_getElem?.mp hpair
    rw [getElem?_zip_eq_some, getElem?_tail] at hget
    simp only [packageSetOf, getElem?_map, Option.map_eq_some_iff] at hget
    obtain ⟨⟨left, hleft, rfl⟩, right, hright, rfl⟩ := hget
    obtain ⟨_, rfl⟩ := List.getElem?_eq_some_iff.mp hleft
    obtain ⟨hlt, rfl⟩ := List.getElem?_eq_some_iff.mp hright
    exact hadjacent _ _ (isChain_iff_getElem.mp h.adjacent ordinal hlt)
  · by_cases hone : parts.length = 1
    · simp [packageSetOf, hfirstMember, memberFromPart, hbefore, hsingle hone]
    · simp [packageSetOf, hone]

theorem Layout.exactSplit
    (h : Layout requested effective maximumSpan overlapNs parts.length)
    (hplaced : ∀ ordinal part, parts[ordinal]? = some part →
      PlacedAt requested effective maximumSpan overlapNs parts.length ordinal part) :
    ExactSplit requested effective overlapNs parts := by
  -- what a place says about a part
  have hbounds : ∀ (ordinal : Nat) (part : IntervalPart), parts[ordinal]? = some part →
      effective.startNs ≤ part.effectiveInterval.startNs ∧
        part.effectiveInterval.endNs ≤ effective.endNs := by
    intro ordinal part hpart
    obtain ⟨hlt, -⟩ := List.getElem?_eq_some_iff.mp hpart
    have hat := hplaced ordinal part hpart
    have hnonneg := h.stride_nonneg ordinal
    have hbefore := h.before ordinal
    have hstart := hat.start
    have hstop := hat.stop
    split_ifs at hstop <;> omega
  have hinside := h.inside
  refine ⟨?_, ?_, ?_, ?_, ?_, ?_⟩
  · refine ext_getElem (by simp) ?_
    intro ordinal hlt _
    rw [length_map] at hlt
    rw [getElem_map, getElem_range]
    exact (hplaced ordinal _ (getElem?_eq_getElem hlt)).ordinal_eq
  · intro part hpart
    obtain ⟨ordinal, hget⟩ := mem_iff_getElem?.mp hpart
    exact (hplaced ordinal part hget).partCount_eq
  · have hat := hplaced 0 _ (getElem?_eq_getElem h.pos)
    refine ⟨_, head?_eq_getElem?.trans (getElem?_eq_getElem h.pos), ?_, ?_⟩
    · rw [hat.start, Nat.cast_zero, zero_mul, add_zero]
    · exact hat.overlapBefore
  · have hlt : parts.length - 1 < parts.length := Nat.sub_lt h.pos Nat.one_pos
    have hfinal : parts.length - 1 + 1 = parts.length := Nat.sub_add_cancel h.pos
    have hat := hplaced _ _ (getElem?_eq_getElem hlt)
    refine ⟨_, getLast?_eq_getElem?.trans (getElem?_eq_getElem hlt), ?_, ?_⟩
    · rw [hat.stop, if_pos hfinal]
    · rw [hat.overlapAfter, if_pos hfinal]
  · rw [isChain_iff_getElem]
    intro ordinal hlt
    have hat := hplaced ordinal _ (getElem?_eq_getElem (by omega))
    have hnext := hplaced (ordinal + 1) _ (getElem?_eq_getElem hlt)
    have hbefore := h.before ordinal hlt
    have hstride := stride_succ maximumSpan overlapNs ordinal
    have hoverlap := h.overlap_nonneg
    have hspan := h.overlap_lt
    have hstop := hat.stop
    have hstopNext := hnext.stop
    rw [if_neg (by omega)] at hstop
    refine ⟨?_, ?_, ?_, ?_, ?_, ?_⟩
    · rw [hat.start, hnext.start]
      omega
    · rw [hstopNext]
      split_ifs <;> omega
    · rw [hnext.start]
      omega
    · rw [hnext.start]
      omega
    · rw [hat.overlapAfter, if_neg (by omega)]
    · rw [hnext.overlapBefore, if_neg (by omega)]
  · intro part hpart
    obtain ⟨ordinal, hget⟩ := mem_iff_getElem?.mp hpart
    have hat := hplaced ordinal part hget
    have hwithin := hbounds ordinal part hget
    have hrequestedStart := hat.requestedStart
    have hrequestedStop := hat.requestedStop
    refine ⟨hwithin.1, hwithin.2, ?_, ?_⟩
    · split_ifs at hrequestedStart <;> omega
    · split_ifs at hrequestedStop <;> omega

/-! ## The planner -/

/-- What a call checks before it compares the interval with the budget. -/
def callSpec (requested effective : NanosecondInterval) (plan : SamplingPlan)
    (overlapNs : Option Int) (splitPolicy : Option DenseSplitPolicy) (purpose : SamplingPurpose) :
    Except String BudgetSpec := do
  refuse (decide (effective.startNs < requested.startNs))
    "effective interval must be contained by requested_interval"
  refuse (decide (requested.endNs < effective.endNs))
    "effective interval must be contained by requested_interval"
  let policy ← resolvePolicy plan overlapNs splitPolicy
  budgetSpec plan policy purpose

/-- Splitting is needed and is impossible. -/
def Unsplittable (durationNs : Int) (spec : BudgetSpec) : Prop :=
  fitsDuration durationNs spec = false ∧
    (spec.overflowPolicy ≠ .splitWindow ∨ fitsDuration 1 spec = false ∨
      maximumFittingDuration durationNs spec ≤ spec.overlapNs ∨
      maxSplitParts < estimatedParts durationNs (maximumFittingDuration durationNs spec)
        spec.overlapNs)

/-- The refusals that come before the layout; none is of the loop. -/
def splitRefusals : List String :=
  ["frame budget exceeded and overflow policy does not permit provider-neutral splitting",
    "frame budget cannot admit even a one-nanosecond dense window",
    "overlap_ns must be strictly less than the split span",
    "dense split would exceed the maximum supported part count"]

/-- An exact split into the fewest parts that the budget admits. -/
structure FittingSplit (requested effective : NanosecondInterval) (spec : BudgetSpec)
    (parts : List IntervalPart) : Prop
    extends ExactSplit requested effective spec.overlapNs parts where
  fits : ∀ part ∈ parts, fitsDuration (duration part.effectiveInterval) spec = true
  longest : ∀ part ∈ parts.head?, ∀ d, duration part.effectiveInterval < d →
    d ≤ duration effective → fitsDuration d spec = false
  unsplit : fitsDuration (duration effective) spec = true → parts.length = 1
  estimate : fitsDuration (duration effective) spec = false → (parts.length : Int) =
    estimatedParts (duration effective) (maximumFittingDuration (duration effective) spec)
      spec.overlapNs

theorem planIntervalParts_eq (plan : SamplingPlan) (overlapNs : Option Int)
    (splitPolicy : Option DenseSplitPolicy) (purpose : SamplingPurpose) :
    planIntervalParts requested effective plan overlapNs splitPolicy purpose =
      (callSpec requested effective plan overlapNs splitPolicy purpose >>= fun spec =>
        if fitsDuration (duration effective) spec then
          .ok [⟨requested, effective, 0, 1, 0, 0⟩]
        else
          splitParts requested effective spec) := by
  unfold planIntervalParts callSpec
  simp only [bind_assoc]

theorem callSpec_valid {overlapNs : Option Int} {splitPolicy : Option DenseSplitPolicy}
    (h : callSpec requested effective plan overlapNs splitPolicy purpose = .ok spec) :
    (∀ cameraId, ValidRate (spec.rates cameraId)) ∧ 0 ≤ spec.overlapNs ∧
      requested.startNs ≤ effective.startNs ∧ effective.endNs ≤ requested.endNs := by
  unfold callSpec budgetSpec at h
  simp only [bind_eq_ok, refuse_eq_ok, decide_eq_false_iff_not] at h
  obtain ⟨-, hstart, -, hend, policy, -, rates, hrates, -, -, -, -, hspec⟩ := h
  cases hspec
  exact ⟨samplingPlanProjection_valid hrates, policy.overlap_nonneg, not_lt.mp hstart,
    not_lt.mp hend⟩

theorem fittingSplit_whole (hfits : fitsDuration (duration effective) spec = true) :
    FittingSplit requested effective spec [⟨requested, effective, 0, 1, 0, 0⟩] where
  ordinals := rfl
  partCounts := by simp
  first := ⟨_, rfl, rfl, rfl⟩
  last := ⟨_, rfl, rfl, rfl⟩
  adjacent := .singleton _
  inside := by simp
  fits := by simpa using hfits
  longest := by
    intro part hpart d hlt hle
    cases hpart
    exact absurd hle (not_le.mpr hlt)
  unsplit := fun _ => rfl
  estimate := by simp [hfits]

include hrates in
theorem Layout.fittingSplit
    (hgreatest : IsGreatest {d | d ≤ duration effective ∧ fitsDuration d spec = true}
      (maximumFittingDuration (duration effective) spec))
    (hexceeds : fitsDuration (duration effective) spec = false)
    (hspan : maximumSpan = maximumFittingDuration (duration effective) spec)
    (hlength : (parts.length : Int) =
      estimatedParts (duration effective) maximumSpan spec.overlapNs)
    (h : Layout requested effective maximumSpan spec.overlapNs parts.length)
    (hplaced : ∀ ordinal part, parts[ordinal]? = some part →
      PlacedAt requested effective maximumSpan spec.overlapNs parts.length ordinal part) :
    FittingSplit requested effective spec parts where
  toExactSplit := h.exactSplit hplaced
  fits := by
    intro part hpart
    obtain ⟨ordinal, hget⟩ := mem_iff_getElem?.mp hpart
    have hat := hplaced ordinal part hget
    have hstart := hat.start
    have hstop := hat.stop
    have hlast := h.last ordinal
    refine fitsDuration_mono hrates ?_ hgreatest.1.2
    rw [← hspan]
    unfold duration
    split_ifs at hstop <;> omega
  longest := by
    intro part hpart d hlt hle
    have hget : parts[0]? = some part := head?_eq_getElem?.symm.trans hpart
    have hstart := (hplaced 0 part hget).start
    have hstop := (hplaced 0 part hget).stop
    rw [Bool.eq_false_iff]
    intro hfits
    have hmax := hgreatest.2 ⟨hle, hfits⟩
    unfold duration at hlt hle
    split_ifs at hstop <;> omega
  unsplit := by simp [hexceeds]
  estimate := fun _ => hspan ▸ hlength

theorem splitParts_eq (hpolicy : spec.overflowPolicy = .splitWindow)
    (hempty : ¬ maximumFittingDuration (duration effective) spec ≤ 0)
    (hspan : ¬ maximumFittingDuration (duration effective) spec ≤ spec.overlapNs) :
    splitParts requested effective spec = (do
      refuse (decide (maxSplitParts < estimatedParts (duration effective)
          (maximumFittingDuration (duration effective) spec) spec.overlapNs))
        "dense split would exceed the maximum supported part count"
      let coordinates ← splitCoordinates (maximumFittingDuration (duration effective) spec)
        spec.overlapNs effective.endNs effective.startNs
      coordinates.zipIdx.mapM fun entry => partAt requested coordinates entry.2 entry.1) := by
  simp only [splitParts]
  rw [decide_eq_false (not_not.mpr hpolicy), decide_eq_false hempty, decide_eq_false hspan]
  rfl

include hrates in
theorem splitParts_spec (hoverlap : 0 ≤ spec.overlapNs)
    (hinside : requested.startNs ≤ effective.startNs ∧ effective.endNs ≤ requested.endNs)
    (hexceeds : fitsDuration (duration effective) spec = false) :
    (Unsplittable (duration effective) spec ∧
        ∃ e ∈ splitRefusals, splitParts requested effective spec = .error e) ∨
      (¬ Unsplittable (duration effective) spec ∧
        ∃ parts, splitParts requested effective spec = .ok parts ∧
          FittingSplit requested effective spec parts) := by
  have hnonneg : 0 ≤ duration effective := Int.sub_nonneg.mpr effective.nonempty.le
  have hgreatest := maximumFittingDuration_greatest hrates hnonneg
  have hnone : fitsDuration 1 spec = false ↔
      maximumFittingDuration (duration effective) spec ≤ 0 := by
    rw [Bool.eq_false_iff, ← not_lt, not_iff_not]
    constructor
    · intro hfits
      exact hgreatest.2 ⟨Int.sub_pos.mpr effective.nonempty, hfits⟩
    · intro hpos
      exact fitsDuration_mono hrates hpos hgreatest.1.2
  unfold Unsplittable
  rw [hnone]
  by_cases hpolicy : spec.overflowPolicy = .splitWindow
  · by_cases hempty : maximumFittingDuration (duration effective) spec ≤ 0
    · refine .inl ⟨⟨hexceeds, .inr (.inl hempty)⟩, _, .tail _ (.head _), ?_⟩
      simp [splitParts, refuse, hpolicy, hempty]
    · by_cases hspan : maximumFittingDuration (duration effective) spec ≤ spec.overlapNs
      · refine .inl ⟨⟨hexceeds, .inr (.inr (.inl hspan))⟩, _, .tail _ (.tail _ (.head _)), ?_⟩
        simp [splitParts, refuse, hpolicy, hempty, hspan]
      · by_cases hcount : maxSplitParts < estimatedParts (duration effective)
            (maximumFittingDuration (duration effective) spec) spec.overlapNs
        · refine .inl ⟨⟨hexceeds, .inr (.inr (.inr hcount))⟩, _,
            .tail _ (.tail _ (.tail _ (.head _))), ?_⟩
          rw [splitParts_eq hpolicy hempty hspan, decide_eq_true hcount]
          rfl
        · right
          have hfull : spec.overlapNs < duration effective := by
            have := hgreatest.1.1
            omega
          have hlayout := layout_of_estimatedParts hoverlap (not_le.mp hspan) hfull hinside
          have hpositive := estimatedParts_pos (not_le.mp hspan) hfull
          obtain ⟨parts, hparts, hlength, hplaced⟩ := hlayout.mapM_partAt
          rw [← hlength] at hlayout hplaced
          refine ⟨by tauto, parts, ?_, ?_⟩
          · rw [splitParts_eq hpolicy hempty hspan, decide_eq_false hcount]
            rw [splitCoordinates_eq hoverlap (not_le.mp hspan) hfull]
            exact hparts
          · exact hlayout.fittingSplit hrates hgreatest hexceeds rfl (by omega) hplaced
  · refine .inl ⟨⟨hexceeds, .inl hpolicy⟩, _, .head _, ?_⟩
    simp [splitParts, refuse, hpolicy]

/-- A call with well-formed arguments answers unless the interval cannot be cut. -/
theorem planIntervalParts_spec {overlapNs : Option Int} {splitPolicy : Option DenseSplitPolicy}
    (hspec : callSpec requested effective plan overlapNs splitPolicy purpose = .ok spec) :
    (Unsplittable (duration effective) spec ∧ ∃ e ∈ splitRefusals,
        planIntervalParts requested effective plan overlapNs splitPolicy purpose = .error e) ∨
      (¬ Unsplittable (duration effective) spec ∧ ∃ parts,
        planIntervalParts requested effective plan overlapNs splitPolicy purpose = .ok parts ∧
          FittingSplit requested effective spec parts) := by
  obtain ⟨hrates, hoverlap, hinside⟩ := callSpec_valid hspec
  rw [planIntervalParts_eq, hspec, ok_bind]
  by_cases hfits : fitsDuration (duration effective) spec = true
  · rw [if_pos hfits]
    refine .inr ⟨?_, _, rfl, fittingSplit_whole hfits⟩
    rintro ⟨hexceeds, _⟩
    exact absurd hfits (Bool.eq_false_iff.mp hexceeds)
  · rw [if_neg hfits]
    exact splitParts_spec hrates hoverlap hinside (Bool.eq_false_iff.mpr hfits)

/-- The planner cuts an interval exactly, and refuses only an interval that cannot be cut. -/
theorem planIntervalParts_exact (requested effective : NanosecondInterval) (plan : SamplingPlan)
    (overlapNs : Option Int) (splitPolicy : Option DenseSplitPolicy) (purpose : SamplingPurpose) :
    (∀ e, callSpec requested effective plan overlapNs splitPolicy purpose = .error e →
      planIntervalParts requested effective plan overlapNs splitPolicy purpose = .error e) ∧
    ∀ spec, callSpec requested effective plan overlapNs splitPolicy purpose = .ok spec →
      IsGreatest {d | d ≤ duration effective ∧ fitsDuration d spec = true}
        (maximumFittingDuration (duration effective) spec) ∧
      ((∃ e, planIntervalParts requested effective plan overlapNs splitPolicy purpose =
        .error e) ↔ Unsplittable (duration effective) spec) ∧
      (∀ e, planIntervalParts requested effective plan overlapNs splitPolicy purpose = .error e →
        e ∈ splitRefusals) ∧
      ∀ parts, planIntervalParts requested effective plan overlapNs splitPolicy purpose =
          .ok parts →
        FittingSplit requested effective spec parts ∧
          validatePackageSet (packageSetOf requested effective parts) = .ok () := by
  refine ⟨?_, ?_⟩
  · intro e he
    rw [planIntervalParts_eq, he, error_bind]
  intro spec hspec
  obtain ⟨hrates, _, hinside⟩ := callSpec_valid hspec
  have hnonneg : 0 ≤ duration effective := Int.sub_nonneg.mpr effective.nonempty.le
  refine ⟨maximumFittingDuration_greatest hrates hnonneg, ?_⟩
  obtain ⟨hunsplittable, e, hmem, he⟩ | ⟨hsplittable, parts, hparts, hsplit⟩ :=
    planIntervalParts_spec hspec
  · rw [he]
    refine ⟨⟨fun _ => hunsplittable, fun _ => ⟨e, rfl⟩⟩, ?_, ?_⟩
    · intro e' he'
      cases he'
      exact hmem
    · intro parts hcontra
      cases hcontra
  · rw [hparts]
    refine ⟨⟨?_, ?_⟩, ?_, ?_⟩
    · rintro ⟨_, hcontra⟩
      cases hcontra
    · intro hunsplittable
      exact absurd hunsplittable hsplittable
    · intro e hcontra
      cases hcontra
    · intro parts' hparts'
      cases hparts'
      exact ⟨hsplit, hsplit.accepted hinside⟩

end Robata.Sampling
