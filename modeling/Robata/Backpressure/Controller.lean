import Mathlib.Algebra.Order.Floor.Semiring
import Mathlib.Data.NNRat.Defs
import Mathlib.Data.Rat.Floor
import Robata.Queue.Models

/-!
# The backpressure controller

`BackpressureController` of `backpressure.py`: thresholds on a snapshot of queue health, and a
limit that is increased by a constant and decreased by a factor.  `evaluate` is a function of the
configuration, the observation and the state that the call before it returned.  Rates, slopes and
utilisations are the exact quotients that the code computes in floating point.
-/

namespace Robata.Backpressure

open Lib
open Queue (NonEmptyString)

inductive PressureClass
  | normal
  | elevated
  | throttled

inductive BackpressureControllerMode
  | fixed
  | aimd

/-- Tunable thresholds for backpressure decisions, with what the contract checks of them. -/
structure BackpressureConfig where
  version : NonEmptyString
  (queueDepthThreshold oldestAgeThresholdMs : Nat)
  backlogSlopeThreshold : ℚ≥0
  minimumRateObservationIntervalMs : Nat
  (controllerVersion controllerKey : NonEmptyString)
  controllerMode : BackpressureControllerMode
  (minimumLimit maximumLimit additiveIncrease : Nat)
  multiplicativeDecrease : ℚ≥0
  cooldownMs : Nat
  workerUtilizationThreshold : ℚ≥0
  minimumPositive : 0 < minimumLimit
  bounds : minimumLimit ≤ maximumLimit
  increasePositive : 0 < additiveIncrease
  decreasePositive : 0 < multiplicativeDecrease
  decreaseBelowOne : multiplicativeDecrease < 1

/-- A policy with the default values of the fields that have one. -/
def BackpressureConfig.withDefaults (version : NonEmptyString)
    (queueDepthThreshold oldestAgeThresholdMs : Nat) (backlogSlopeThreshold : ℚ≥0) :
    BackpressureConfig where
  version := version
  queueDepthThreshold := queueDepthThreshold
  oldestAgeThresholdMs := oldestAgeThresholdMs
  backlogSlopeThreshold := backlogSlopeThreshold
  minimumRateObservationIntervalMs := 1000
  controllerVersion := ⟨"fixed-backpressure-controller-v1", by decide⟩
  controllerKey := ⟨"stream-window-admission", by decide⟩
  controllerMode := .fixed
  minimumLimit := 1
  maximumLimit := 256
  additiveIncrease := 1
  multiplicativeDecrease := 1 / 2
  cooldownMs := 0
  workerUtilizationThreshold := 1
  minimumPositive := by decide
  bounds := by decide
  increasePositive := by decide
  decreasePositive := by norm_num
  decreaseBelowOne := by norm_num

/-- Snapshot of measured or unavailable queue health. -/
structure QueueMetrics where
  (depth oldestAgeMs : Nat)
  (arrivalRate serviceRate : Option ℚ≥0)
  backlogSlope : Option ℚ
  providerQuota : Option Nat
  workerUtilization : Option ℚ≥0

structure AdmissionDecision where
  admitted : Bool
  policyVersion : NonEmptyString
  pressureClass : PressureClass
  (signals sheddingActions : List String)
  reason : Option String
  (suggestedDelayMs controllerLimit : Option Nat)
  controllerMode : BackpressureControllerMode

/-- Restartable state of one controller; the field `binding` is `validate_policy_binding`. -/
structure BackpressureControllerState where
  (controllerKey policyVersion controllerVersion : NonEmptyString)
  (currentLimit decisionCount : Nat)
  lastObservedAtMs : Option Nat
  lastMetrics : Option QueueMetrics
  (lastArrivalCount lastServiceCount lastBacklogDepth : Option Nat)
  lastDecision : Option AdmissionDecision
  binding : ∀ d, lastDecision = some d → d.policyVersion = policyVersion

variable (config : BackpressureConfig)

def initialState (controllerKey : NonEmptyString) : BackpressureControllerState where
  controllerKey := controllerKey
  policyVersion := config.version
  controllerVersion := config.controllerVersion
  currentLimit := max config.minimumLimit (min config.maximumLimit
    (if config.queueDepthThreshold = 0 then config.minimumLimit else config.queueDepthThreshold))
  decisionCount := 0
  lastObservedAtMs := none
  lastMetrics := none
  lastArrivalCount := none
  lastServiceCount := none
  lastBacklogDepth := none
  lastDecision := none
  binding := fun _ h => (by cases h)

/-! ## Thresholds -/

/-- One threshold: the signal it raises and the delay it suggests. -/
def signalWhen (raised : Bool) (signal : String) (delayMs : Nat) : List (String × Nat) :=
  if raised then [(signal, delayMs)] else []

/-- Arrivals outrun services and the backlog grows. -/
def arrivalExceedsService (metrics : QueueMetrics) : Bool :=
  match metrics.arrivalRate, metrics.serviceRate, metrics.backlogSlope with
  | some arrival, some service, some slope => decide (service < arrival) && decide (0 < slope)
  | _, _, _ => false

/-- The signals of the thresholds that are passed, in the order of the checks. -/
def pressureSignals (metrics : QueueMetrics) : List (String × Nat) :=
  signalWhen (decide (config.queueDepthThreshold < metrics.depth)) "QUEUE_DEPTH" 1000 ++
    signalWhen (decide (config.oldestAgeThresholdMs < metrics.oldestAgeMs)) "OLDEST_AGE" 500 ++
    signalWhen (metrics.workerUtilization.any fun utilization =>
      decide (config.workerUtilizationThreshold ≤ utilization)) "WORKER_UTILIZATION" 500 ++
    signalWhen (metrics.backlogSlope.any fun slope =>
      decide ((config.backlogSlopeThreshold : ℚ) < slope)) "BACKLOG_SLOPE" 2000 ++
    signalWhen (decide (metrics.providerQuota = some 0)) "PROVIDER_QUOTA" 1000 ++
    signalWhen (arrivalExceedsService metrics) "ARRIVAL_EXCEEDS_SERVICE" 1500

def atLeastThreeQuarters (value threshold : ℚ) : Bool :=
  decide (0 < threshold) && decide (threshold * 3 ≤ value * 4)

/-- A value is close to its threshold. -/
def isElevated (metrics : QueueMetrics) : Bool :=
  atLeastThreeQuarters metrics.depth config.queueDepthThreshold ||
    atLeastThreeQuarters metrics.oldestAgeMs config.oldestAgeThresholdMs ||
    metrics.backlogSlope.any fun slope => atLeastThreeQuarters slope config.backlogSlopeThreshold

/-- `should_admit`, for a stage with the given value. -/
def shouldAdmit (stage : String) (metrics : QueueMetrics) : AdmissionDecision :=
  let signals := pressureSignals config metrics
  if !signals.isEmpty then
    { admitted := false
      policyVersion := config.version
      pressureClass := .throttled
      signals := signals.map (·.1)
      sheddingActions := ["THROTTLE_LEDGER"]
      reason := some (stage ++ " admission is throttled by " ++ ",".intercalate (signals.map (·.1)))
      suggestedDelayMs := (signals.map (·.2)).max?
      controllerLimit := none
      controllerMode := config.controllerMode }
  else if isElevated config metrics then
    { admitted := true
      policyVersion := config.version
      pressureClass := .elevated
      signals := ["APPROACHING_LIMIT"]
      sheddingActions := ["STOP_OPTIONAL_DEEP"]
      reason := some (stage ++ " admission is approaching a pressure limit")
      suggestedDelayMs := none
      controllerLimit := none
      controllerMode := config.controllerMode }
  else
    { admitted := true
      policyVersion := config.version
      pressureClass := .normal
      signals := []
      sheddingActions := []
      reason := none
      suggestedDelayMs := none
      controllerLimit := none
      controllerMode := config.controllerMode }

/-! ## Evaluation -/

/-- The arguments of one call of `evaluate` but the state. -/
structure Observation where
  stage : String
  metrics : QueueMetrics
  observedAtMs : Int

def Observation.Admitted (call : Observation) : Prop :=
  (shouldAdmit config call.stage call.metrics).admitted = true

instance Observation.decidableAdmitted (call : Observation) : Decidable (call.Admitted config) :=
  inferInstanceAs (Decidable (_ = true))

/-- `cooldown_elapsed`: counted from the last call, whatever it decided. -/
def cooldownElapsed (state : BackpressureControllerState) (observedAtMs : Int) : Bool :=
  state.lastObservedAtMs.all fun last : Nat =>
    decide ((last : Int) + config.cooldownMs ≤ observedAtMs)

/-- The limit after a call. -/
def nextLimit (state : BackpressureControllerState) (call : Observation) : Nat :=
  match config.controllerMode with
  | .fixed => state.currentLimit
  | .aimd =>
    if (shouldAdmit config call.stage call.metrics).admitted = false then
      max config.minimumLimit ⌊(state.currentLimit : ℚ) * config.multiplicativeDecrease⌋₊
    else if cooldownElapsed config state call.observedAtMs then
      min config.maximumLimit (state.currentLimit + config.additiveIncrease)
    else
      state.currentLimit

/-- The decision of a call: that of the thresholds, unless the queue is deeper than the limit. -/
def decision (state : BackpressureControllerState) (call : Observation) : AdmissionDecision :=
  let fixed := shouldAdmit config call.stage call.metrics
  let limit := nextLimit config state call
  if fixed.admitted && decide (limit < call.metrics.depth) then
    { admitted := false
      policyVersion := config.version
      pressureClass := .throttled
      signals := ["CONTROLLER_LIMIT"]
      sheddingActions := ["THROTTLE_LEDGER"]
      reason := some (call.stage ++ " admission is throttled by CONTROLLER_LIMIT")
      suggestedDelayMs := some 1000
      controllerLimit := some limit
      controllerMode := config.controllerMode }
  else
    { fixed with controllerLimit := some limit, controllerMode := config.controllerMode }

theorem policyVersion_decision (state : BackpressureControllerState) (call : Observation) :
    (decision config state call).policyVersion = config.version := by
  have hfixed : (shouldAdmit config call.stage call.metrics).policyVersion = config.version := by
    unfold shouldAdmit
    simp only
    split
    · rfl
    · split <;> rfl
  unfold decision
  simp only
  split
  · rfl
  · exact hfixed

/-- What `evaluate` checks of its arguments once the policy versions agree. -/
def checkCall (state : BackpressureControllerState) (observedAtMs : Int) : Except String Unit :=
  if state.controllerVersion ≠ config.controllerVersion then
    .error "controller state version does not match configuration"
  else if ¬(config.minimumLimit ≤ state.currentLimit ∧
      state.currentLimit ≤ config.maximumLimit) then
    .error "controller state current_limit is outside configuration bounds"
  else if observedAtMs < 0 then
    .error "observed_at_ms must be nonnegative"
  else if state.lastObservedAtMs.any fun last : Nat => decide (observedAtMs < (last : Int)) then
    .error "observed_at_ms must not precede the persisted observation"
  else .ok ()

def nextState (state : BackpressureControllerState) (call : Observation)
    (hversion : state.policyVersion = config.version) : BackpressureControllerState where
  controllerKey := state.controllerKey
  policyVersion := state.policyVersion
  controllerVersion := state.controllerVersion
  currentLimit := nextLimit config state call
  decisionCount := state.decisionCount + 1
  lastObservedAtMs := some call.observedAtMs.toNat
  lastMetrics := some call.metrics
  lastArrivalCount := state.lastArrivalCount
  lastServiceCount := state.lastServiceCount
  lastBacklogDepth := state.lastBacklogDepth
  lastDecision := some (decision config state call)
  binding := by
    rintro d ⟨⟩
    rw [hversion]
    exact policyVersion_decision config state call

def evaluate (state : BackpressureControllerState) (call : Observation) :
    Except String (AdmissionDecision × BackpressureControllerState) :=
  if hversion : state.policyVersion = config.version then do
    checkCall config state call.observedAtMs
    pure (decision config state call, nextState config state call hversion)
  else .error "controller state policy_version does not match configuration"

/-! ## When the controller answers -/

/-- A controller state that belongs to a configuration. -/
structure Accepts (config : BackpressureConfig) (state : BackpressureControllerState) : Prop where
  policyVersion : state.policyVersion = config.version
  controllerVersion : state.controllerVersion = config.controllerVersion
  minimum_le : config.minimumLimit ≤ state.currentLimit
  le_maximum : state.currentLimit ≤ config.maximumLimit

/-- An observation that is not before the last one. -/
def BackpressureControllerState.Observes (state : BackpressureControllerState)
    (observedAtMs : Int) : Prop :=
  0 ≤ observedAtMs ∧ ∀ last, state.lastObservedAtMs = some last → (last : Int) ≤ observedAtMs

variable {config} {state state' : BackpressureControllerState} {call : Observation}
  {decided : AdmissionDecision}

theorem accepts_initialState (controllerKey : NonEmptyString) :
    Accepts config (initialState config controllerKey) :=
  ⟨rfl, rfl, le_max_left _ _, max_le config.bounds (min_le_left _ _)⟩

theorem floor_decrease_lt (config : BackpressureConfig) {limit : Nat} (h : 0 < limit) :
    ⌊(limit : ℚ) * config.multiplicativeDecrease⌋₊ < limit := by
  have hpos : (0 : ℚ) < limit := by exact_mod_cast h
  rw [Nat.floor_lt (by positivity)]
  calc (limit : ℚ) * config.multiplicativeDecrease
      < limit * 1 := mul_lt_mul_of_pos_left (by exact_mod_cast config.decreaseBelowOne) hpos
    _ = limit := mul_one _

theorem Accepts.limit_pos (h : Accepts config state) : 0 < state.currentLimit :=
  config.minimumPositive.trans_le h.minimum_le

theorem Accepts.nextState (h : Accepts config state) (call : Observation) :
    Accepts config (nextState config state call h.policyVersion) := by
  have hfloor := floor_decrease_lt config h.limit_pos
  have hlower := h.minimum_le
  have hupper := h.le_maximum
  have hlimit : config.minimumLimit ≤ nextLimit config state call ∧
      nextLimit config state call ≤ config.maximumLimit := by
    unfold nextLimit
    split
    · exact ⟨hlower, hupper⟩
    · split
      · omega
      · split <;> omega
  exact ⟨h.policyVersion, h.controllerVersion, hlimit.1, hlimit.2⟩

theorem checkCall_eq_ok {observedAtMs : Int} : checkCall config state observedAtMs = .ok () ↔
    state.controllerVersion = config.controllerVersion ∧
      (config.minimumLimit ≤ state.currentLimit ∧ state.currentLimit ≤ config.maximumLimit) ∧
      state.Observes observedAtMs := by
  unfold checkCall BackpressureControllerState.Observes
  cases state.lastObservedAtMs <;> grind

theorem evaluate_eq_ok (h : Accepts config state) (hobserves : state.Observes call.observedAtMs) :
    evaluate config state call =
      .ok (decision config state call, nextState config state call h.policyVersion) := by
  unfold evaluate
  rw [dif_pos h.policyVersion,
    checkCall_eq_ok.mpr ⟨h.controllerVersion, ⟨h.minimum_le, h.le_maximum⟩, hobserves⟩]
  rfl

theorem evaluate_spec (h : evaluate config state call = .ok (decided, state')) :
    Accepts config state ∧ state.Observes call.observedAtMs ∧
      decided = decision config state call ∧ Accepts config state' ∧
      state'.lastObservedAtMs = some call.observedAtMs.toNat := by
  unfold evaluate at h
  split at h
  case isFalse => cases h
  rename_i hversion
  obtain ⟨⟨⟩, hcheck, h⟩ := bind_eq_ok.mp h
  obtain ⟨hcontroller, hlimit, hobserves⟩ := checkCall_eq_ok.mp hcheck
  have haccepts : Accepts config state := ⟨hversion, hcontroller, hlimit.1, hlimit.2⟩
  cases h
  exact ⟨haccepts, hobserves, rfl, haccepts.nextState call, rfl⟩

end Robata.Backpressure
