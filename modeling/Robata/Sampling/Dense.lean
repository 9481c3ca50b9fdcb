import Robata.Sampling.Grid

/-!
# Provider-neutral window planning under a frame budget

`plan_interval_parts` splits one half-open interval so that the frame budget of
a sampling plan holds in every part.  Its frame counts are
`ceil(duration * fps)`, one for each of the six cameras.

A rate of the plan is a float; what the code reads of it is the rational its
decimal text spells, so a rate is a positive rational here.  The exceptions are
`ValueError`s and are kept as their texts.
-/

namespace Robata.Sampling

open Contracts Lib

def maxRateDenominator : Nat := 1000000

def maxSplitParts : Int := 1000000

inductive SamplingPurpose
  | qaCoarse
  | qaDense
  | eventProposal
  | actionDense
  | boundaryRefinement

/-- Policy when the frame budget is exceeded. -/
inductive OverflowPolicy
  | splitWindow
  | dropFrames
  | fail
  deriving DecidableEq

structure FrameBudget where
  (maxFramesPerCamera maxFramesTotal : Nat)
  overflowPolicy : OverflowPolicy
  perCamera_pos : 0 < maxFramesPerCamera
  total_pos : 0 < maxFramesTotal

/-- A finite positive float rate, as the rational its text spells. -/
abbrev Fps := { fps : ℚ // 0 < fps }

structure PerCameraOverride where
  cameraId : String
  denseSamplingRateFps : Fps

structure SamplingPlan where
  version : SchemaVersion
  (qaSamplingRateFps denseSamplingRateFps : Fps)
  perCamera : List PerCameraOverride
  frameBudget : FrameBudget

structure DenseSplitPolicy where
  version : SchemaVersion
  overlapNs : Int
  (maxFramesPerCamera maxFramesTotal : Option Nat)
  overlap_nonneg : 0 ≤ overlapNs
  overlap_int64 : overlapNs ≤ int64Max
  together : maxFramesPerCamera.isNone = maxFramesTotal.isNone

structure IntervalPart where
  (requestedInterval effectiveInterval : NanosecondInterval)
  (ordinal partCount : Nat)
  (overlapBeforeNs overlapAfterNs : Int)
  deriving DecidableEq

/-- `NanosecondInterval.duration_ns`. -/
def duration (interval : NanosecondInterval) : Int := interval.endNs - interval.startNs

/-- Raise a `ValueError` when a check finds its condition. -/
def refuse (found : Bool) (message : String) : Except String Unit :=
  if found then .error message else .ok ()

theorem refuse_eq_ok {found : Bool} {message : String} {u : Unit} :
    refuse found message = .ok u ↔ found = false := by
  cases found <;> simp [refuse]

/-! ## Rates -/

/-- The loop of `Fraction.limit_denominator`: the last two convergents with a
denominator within the bound, and the remainder. -/
def convergents (bound : Nat) (p₀ q₀ p₁ q₁ n d : Nat) : Nat × Nat × Nat × Nat × Nat :=
  if hd : d = 0 then
    (p₀, q₀, p₁, q₁, d)
  else
    let a := n / d
    let q₂ := q₀ + a * q₁
    if bound < q₂ then (p₀, q₀, p₁, q₁, d)
    else convergents bound p₁ q₁ (p₀ + a * p₁) q₂ d (n - a * d)
termination_by d
decreasing_by
  have hmod : n - n / d * d = n % d := by
    rw [Nat.mod_eq_sub_div_mul]
  rw [hmod]
  exact Nat.mod_lt n (Nat.pos_of_ne_zero hd)

def limitDenominator (fps : Fps) (bound : Nat) : ℚ :=
  if fps.val.den ≤ bound then fps.val
  else
    let (p₀, q₀, p₁, q₁, d) := convergents bound 0 1 1 0 fps.val.num.toNat fps.val.den
    let k := (bound - q₀) / q₁
    if 2 * d * (q₀ + k * q₁) ≤ fps.val.den then (p₁ : ℚ) / (q₁ : ℚ)
    else ((p₀ + k * p₁ : Nat) : ℚ) / ((q₀ + k * q₁ : Nat) : ℚ)

/-- `_rate_fraction`: one bounded, reduced rational of at most one target per
nanosecond. -/
def rateFraction (fps : Fps) : Except String (Int × Int) := do
  let fraction := limitDenominator fps maxRateDenominator
  refuse (decide (fraction.num ≤ 0)) "sampling rates must be finite positive numbers"
  refuse (decide (nanosecondsPerSecond * fraction.den < fraction.num))
    "sampling rate exceeds one distinct target per nanosecond"
  .ok (fraction.num, fraction.den)

/-- The overrides of a plan, in order; a later rate of the same camera is
refused. -/
def overrideRates : List PerCameraOverride → List (CameraId × Int × Int) →
    Except String (List (CameraId × Int × Int))
  | [], overrides => .ok overrides
  | override :: rest, overrides =>
    match CameraId.all.find? fun cameraId => cameraId.value == override.cameraId with
    | none => .error ("unknown camera override: '" ++ override.cameraId ++ "'")
    | some cameraId => do
        refuse (overrides.any fun entry => entry.1 == cameraId)
          ("duplicate camera override: '" ++ override.cameraId ++ "'")
        let rate ← rateFraction override.denseSamplingRateFps
        overrideRates rest (overrides ++ [(cameraId, rate)])

/-- `rates[camera_id]` for every camera, by purpose. -/
def purposeRates (plan : SamplingPlan) : SamplingPurpose → Except String (CameraId → Int × Int)
  | .qaCoarse => do
      let globalRate ← rateFraction plan.qaSamplingRateFps
      .ok fun _ => globalRate
  | .qaDense => do
      let globalRate ← rateFraction plan.denseSamplingRateFps
      .ok fun _ => globalRate
  | .actionDense | .boundaryRefinement => do
      let overrides ← overrideRates plan.perCamera []
      let globalRate ← rateFraction plan.denseSamplingRateFps
      .ok fun cameraId =>
        ((overrides.find? fun entry => entry.1 == cameraId).map fun entry => entry.2).getD
          globalRate
  | .eventProposal =>
    .error ("provider-neutral planning currently supports only QA_COARSE, " ++
      "QA_DENSE, ACTION_DENSE, and BOUNDARY_REFINEMENT")

/-- `sampling_plan_projection`, reduced to the entry `per_camera` that the
planner and the materializer read. -/
def samplingPlanProjection (plan : SamplingPlan) (purpose : SamplingPurpose) :
    Except String (CameraId → Int × Int) := do
  let rates ← purposeRates plan purpose
  refuse (decide (plan.frameBudget.maxFramesTotal < CameraId.all.length))
    "max_frames_total must allow at least one frame per camera"
  .ok rates

structure BudgetSpec where
  rates : CameraId → Int × Int
  (maxFramesPerCamera maxFramesTotal : Nat)
  overflowPolicy : OverflowPolicy
  overlapNs : Int

def budgetSpec (plan : SamplingPlan) (policy : DenseSplitPolicy) (purpose : SamplingPurpose) :
    Except String BudgetSpec := do
  let rates ← samplingPlanProjection plan purpose
  let budget := plan.frameBudget
  refuse (policy.maxFramesPerCamera.any fun n => n != budget.maxFramesPerCamera)
    "DenseSplitPolicy and SamplingPlan per-camera budgets disagree"
  refuse (policy.maxFramesPerCamera.isSome && policy.maxFramesTotal != some budget.maxFramesTotal)
    "DenseSplitPolicy and SamplingPlan total budgets disagree"
  .ok {
    rates := rates
    maxFramesPerCamera := budget.maxFramesPerCamera
    maxFramesTotal := budget.maxFramesTotal
    overflowPolicy := budget.overflowPolicy
    overlapNs := policy.overlapNs }

/-! ## Frame counts -/

def ceilDiv (numerator denominator : Int) : Int := -(-numerator / denominator)

/-- The frames one rate needs for a duration. -/
def frameCount (durationNs : Int) (rate : Int × Int) : Int :=
  ceilDiv (durationNs * rate.1) (nanosecondsPerSecond * rate.2)

def frameCountsForInterval (interval : NanosecondInterval) (plan : SamplingPlan)
    (purpose : SamplingPurpose) : Except String (CameraId → Int) := do
  let rates ← samplingPlanProjection plan purpose
  .ok fun cameraId => frameCount (duration interval) (rates cameraId)

def fitsDuration (durationNs : Int) (spec : BudgetSpec) : Bool :=
  let counts := CameraId.all.map fun cameraId => frameCount durationNs (spec.rates cameraId)
  counts.all (fun count => decide (count ≤ spec.maxFramesPerCamera)) &&
    decide (counts.sum ≤ spec.maxFramesTotal)

/-- The bisection of `_maximum_fitting_duration`. -/
def bisectDuration (spec : BudgetSpec) (low high : Int) : Int :=
  if low < high then
    let middle := (low + high + 1) / 2
    if fitsDuration middle spec then bisectDuration spec middle high
    else bisectDuration spec low (middle - 1)
  else
    low
termination_by (high - low).toNat
decreasing_by all_goals omega

def maximumFittingDuration (durationNs : Int) (spec : BudgetSpec) : Int :=
  bisectDuration spec 0 durationNs

/-! ## Splitting -/

/-- The loop that lays out the parts from `current_start` on. -/
def splitCoordinates (maximumSpan overlapNs endNs currentStart : Int) :
    Except String (List (Int × Int)) :=
  if currentStart < endNs then
    let currentEnd := min (currentStart + maximumSpan) endNs
    let span := currentEnd - currentStart
    if span ≤ 0 ∨ span ≤ overlapNs then
      .error "overlap_ns must be strictly less than every split span"
    else if currentEnd = endNs then
      .ok [(currentStart, currentEnd)]
    else
      let nextStart := currentEnd - overlapNs
      if nextStart ≤ currentStart then
        .error "dense split did not make strict progress"
      else do
        let rest ← splitCoordinates maximumSpan overlapNs endNs nextStart
        .ok ((currentStart, currentEnd) :: rest)
  else
    .ok []
termination_by (endNs - currentStart).toNat
decreasing_by omega

def nanosecondInterval (startNs endNs : Int) : Except String NanosecondInterval :=
  match NanosecondInterval.make? startNs endNs with
  | some interval => .ok interval
  | none => .error "interval bounds are invalid"

/-- One `IntervalPart` of the coordinates.  The outer parts keep the padding of
the requested interval. -/
def partAt (requested : NanosecondInterval) (coordinates : List (Int × Int)) (ordinal : Nat)
    (coordinate : Int × Int) : Except String IntervalPart := do
  let previousEnd := (coordinates[ordinal - 1]?.map fun c => c.2).getD coordinate.1
  let nextStart := (coordinates[ordinal + 1]?.map fun c => c.1).getD coordinate.2
  let isLast : Bool := ordinal + 1 == coordinates.length
  let effective ← nanosecondInterval coordinate.1 coordinate.2
  let outer ← nanosecondInterval (if ordinal = 0 then requested.startNs else coordinate.1)
    (if isLast then requested.endNs else coordinate.2)
  .ok {
    requestedInterval := outer
    effectiveInterval := effective
    ordinal := ordinal
    partCount := coordinates.length
    overlapBeforeNs := if 0 < ordinal then previousEnd - coordinate.1 else 0
    overlapAfterNs := if isLast then 0 else coordinate.2 - nextStart }

/-- The policy of a call: the one supplied, or one made of the overlap. -/
def resolvePolicy (plan : SamplingPlan) (overlapNs : Option Int)
    (splitPolicy : Option DenseSplitPolicy) : Except String DenseSplitPolicy :=
  let resolvedOverlap := overlapNs.getD ((splitPolicy.map (·.overlapNs)).getD 0)
  if hnonneg : 0 ≤ resolvedOverlap then
    match splitPolicy with
    | some policy =>
      if policy.overlapNs = resolvedOverlap then .ok policy
      else .error "overlap_ns disagrees with split policy"
    | none =>
      if hint64 : resolvedOverlap ≤ int64Max then
        .ok ⟨plan.version, resolvedOverlap, none, none, hnonneg, hint64, rfl⟩
      else .error "overlap_ns must fit in a signed 64-bit integer"
  else
    .error "overlap_ns must be a nonnegative integer"

/-- The branch of `plan_interval_parts` that splits. -/
def splitParts (requested effective : NanosecondInterval) (spec : BudgetSpec) :
    Except String (List IntervalPart) := do
  let fullDuration := duration effective
  refuse (decide (spec.overflowPolicy ≠ .splitWindow))
    "frame budget exceeded and overflow policy does not permit provider-neutral splitting"
  let maximumSpan := maximumFittingDuration fullDuration spec
  refuse (decide (maximumSpan ≤ 0)) "frame budget cannot admit even a one-nanosecond dense window"
  refuse (decide (maximumSpan ≤ spec.overlapNs))
    "overlap_ns must be strictly less than the split span"
  let stride := maximumSpan - spec.overlapNs
  let estimatedParts := (fullDuration - maximumSpan + stride - 1) / stride + 1
  refuse (decide (maxSplitParts < estimatedParts))
    "dense split would exceed the maximum supported part count"
  let coordinates ← splitCoordinates maximumSpan spec.overlapNs effective.endNs effective.startNs
  coordinates.zipIdx.mapM fun entry => partAt requested coordinates entry.2 entry.1

def planIntervalParts (requested effective : NanosecondInterval) (plan : SamplingPlan)
    (overlapNs : Option Int) (splitPolicy : Option DenseSplitPolicy) (purpose : SamplingPurpose) :
    Except String (List IntervalPart) := do
  refuse (decide (effective.startNs < requested.startNs))
    "effective interval must be contained by requested_interval"
  refuse (decide (requested.endNs < effective.endNs))
    "effective interval must be contained by requested_interval"
  let policy ← resolvePolicy plan overlapNs splitPolicy
  let spec ← budgetSpec plan policy purpose
  if fitsDuration (duration effective) spec then
    .ok [{
      requestedInterval := requested
      effectiveInterval := effective
      ordinal := 0
      partCount := 1
      overlapBeforeNs := 0
      overlapAfterNs := 0 }]
  else
    splitParts requested effective spec

end Robata.Sampling
