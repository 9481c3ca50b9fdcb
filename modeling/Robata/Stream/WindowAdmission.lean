import Robata.Stream.ControllerLedger

/-!
# Admission of further windows

Before a batch of windows is appended the scheduler reads the backlog of its plan, turns it
into an observation, lets the controller decide, and saves the successor state.  Each new
window of the batch is decided on with the depth the windows before it will have caused.
-/

namespace Robata.Stream

open Backpressure (BackpressureConfig BackpressureControllerState QueueMetrics AdmissionDecision
  evaluate_spec evaluate_eq_ok)
open Lib
open Queue (WorkItemState parseTimestamp)

def windowDagStages : List StreamStage :=
  [.window, .qaCoarse, .qaDense, .eventProposal, .windowReduction]

/-- The text of `_STAGE_EXECUTION_PROJECTION[StreamStage.WINDOW]`. -/
def windowStageText : String := "QA_COARSE_PLAN"

/-- `TERMINAL_WORK_STATES`, sorted by their texts. -/
def terminalWorkStates : List WorkItemState :=
  [.cancelled, .expired, .failedPermanent, .invalidated, .skippedNotNeeded, .skippedPolicy,
    .succeeded]

theorem contains_terminalWorkStates (state : WorkItemState) :
    terminalWorkStates.contains state = state.isTerminal := by
  cases state <;> rfl

/-! ## The backlog of a plan -/

/-- `StreamBacklogSnapshot`; the age is in microseconds. -/
structure StreamBacklogSnapshot where
  stateCounts : List (String × Nat)
  activeBacklog : Nat
  oldestActiveAge : Option Nat
  declaredWindowCount : Nat
  expectedPlanSealed : Bool
  terminalMemberCount : Nat
  (exportBarrierComplete finalizationPublished : Bool)

def LedgerDb.backlog (ldb : LedgerDb) (planKey : String) (now : Int) :
    Except StreamError StreamBacklogSnapshot := do
  let projection ← ldb.backlogProjection .sqlite planKey terminalWorkStates .finalization
  .ok
    { stateCounts := projection.stateCounts
      activeBacklog := projection.activeBacklog
      oldestActiveAge := projection.oldestActiveCreatedAt.map fun created =>
        (now - parseTimestamp created).toNat
      declaredWindowCount := projection.declaredWindowCount
      expectedPlanSealed := projection.expectedPlanSealed
      terminalMemberCount := projection.terminalMemberCount
      exportBarrierComplete := projection.exportManifest.any fun manifest =>
        manifest.2 == Contracts.CameraId.all.length
      finalizationPublished := projection.finalizationPublished }

/-! ## The scheduler's controller -/

/-- What the scheduler holds of its controller.  The fields are the checks that
`_claim_backpressure_controller` makes on what it has claimed. -/
structure BackpressureSession where
  planKey : String
  config : BackpressureConfig
  controller : StoredStreamBackpressureController
  state : BackpressureControllerState
  accepts : Backpressure.Accepts config state

/-- The checks of `_claim_backpressure_controller` on a claimed controller. -/
def sessionOf (planKey : String) (config : BackpressureConfig)
    (controller : StoredStreamBackpressureController) : Except StreamError BackpressureSession :=
  let state := controller.stateJson
  if hmatch : controller.planKey = planKey ∧ controller.controllerKey = config.controllerKey.val ∧
      controller.policyVersion = config.version.val ∧ state.controllerKey = config.controllerKey ∧
      state.policyVersion = config.version ∧ state.controllerVersion = config.controllerVersion then
    if hlimit : config.minimumLimit ≤ state.currentLimit ∧
        state.currentLimit ≤ config.maximumLimit then
      .ok ⟨planKey, config, controller, state,
        ⟨hmatch.2.2.2.2.1, hmatch.2.2.2.2.2, hlimit.1, hlimit.2⟩⟩
    else
      .error (.composition "persisted backpressure controller limit is outside policy bounds")
  else
    .error (.composition "persisted backpressure controller does not match composition policy")

/-- `_claim_backpressure_controller`: the claim is committed before it is checked. -/
def openSession (ldb : LedgerDb) (planKey : String) (config : BackpressureConfig)
    (ownerId : String) : Except StreamError BackpressureSession × LedgerDb :=
  match ldb.claimBackpressureController planKey config.controllerKey.val config.version.val ownerId
      (Backpressure.initialState config config.controllerKey) with
  | .error e => (.error e, ldb)
  | .ok (controller, ldb') => (sessionOf planKey config controller, ldb')

structure BackpressureRuntimeSignals where
  providerQuota : Option Nat
  workerUtilization : Option ℚ≥0

/-- `_durable_backpressure_metrics` with the runtime signals, and the counts it is made of. -/
def BackpressureSession.metrics (session : BackpressureSession) (backlog : StreamBacklogSnapshot)
    (signals : BackpressureRuntimeSignals) (observedAtMs : Int) : QueueMetrics × Nat × Nat :=
  let totalWorkCount := (backlog.stateCounts.map Prod.snd).sum
  let terminalWorkCount := totalWorkCount - backlog.activeBacklog
  let rates : Option (ℚ × ℚ × ℚ) := do
    let last ← session.state.lastObservedAtMs
    let arrivals ← session.state.lastArrivalCount
    let services ← session.state.lastServiceCount
    let depth ← session.state.lastBacklogDepth
    let elapsedMs := observedAtMs - (last : Int)
    if (session.config.minimumRateObservationIntervalMs : Int) ≤ elapsedMs then
      let elapsedSeconds := (elapsedMs : ℚ) / 1000
      some (((totalWorkCount : ℚ) - arrivals) / elapsedSeconds,
        ((terminalWorkCount : ℚ) - services) / elapsedSeconds,
        ((backlog.activeBacklog : ℚ) - depth) / elapsedSeconds)
    else none
  ({ depth := backlog.activeBacklog
     oldestAgeMs := (backlog.oldestActiveAge.getD 0) / 1000
     arrivalRate := rates.map fun r => r.1.toNNRat
     serviceRate := rates.map fun r => r.2.1.toNNRat
     backlogSlope := rates.map fun r => r.2.2
     providerQuota := signals.providerQuota
     workerUtilization := signals.workerUtilization },
    totalWorkCount, terminalWorkCount)

structure StreamBackpressureSnapshot where
  metrics : QueueMetrics
  decision : AdmissionDecision

/-- `int(checked_now.timestamp() * 1_000)`. -/
def observedMs (now : Int) : Int := now.tdiv 1000

def BackpressureSession.backpressureSnapshot (session : BackpressureSession) (ldb : LedgerDb)
    (signals : BackpressureRuntimeSignals) (now : Int) :
    Except StreamError (StreamBackpressureSnapshot × BackpressureSession × LedgerDb) := do
  let backlog ← ldb.backlog session.planKey now
  let measured := session.metrics backlog signals (observedMs now)
  match h : Backpressure.evaluate session.config session.state
      ⟨windowStageText, measured.1, observedMs now⟩ with
  | .error message => .error (.value message)
  | .ok (decision, next) =>
    let nextState : BackpressureControllerState :=
      { next with
        lastArrivalCount := some measured.2.1
        lastServiceCount := some measured.2.2
        lastBacklogDepth := some backlog.activeBacklog }
    match ldb.saveBackpressureController session.controller nextState with
    | .error _ => .error (.composition "backpressure controller ownership changed")
    | .ok (controller, ldb') =>
      .ok (⟨measured.1, decision⟩,
        { session with
          controller := controller
          state := nextState
          accepts := by
            obtain ⟨_, _, _, haccepts, _⟩ := evaluate_spec h
            exact ⟨haccepts.policyVersion, haccepts.controllerVersion, haccepts.minimum_le,
              haccepts.le_maximum⟩ },
        ldb')

/-- The two ways `_admit_window_batch` ends: it returns, or raises
`StreamBackpressureThrottle` with the decision that refused. -/
inductive AdmissionOutcome
  | admitted
  | throttled (decision : AdmissionDecision)

/-- The loop of `_admit_window_batch` after a decision, with the windows still to decide on. -/
def admitRemaining (config : BackpressureConfig) (observedAtMs : Int) :
    Nat → QueueMetrics → BackpressureControllerState → AdmissionDecision →
      Except StreamError AdmissionOutcome
  | 0, _, _, decision => .ok (if decision.admitted then .admitted else .throttled decision)
  | remaining + 1, metrics, state, decision =>
    if decision.admitted then do
      let projected := { metrics with depth := metrics.depth + windowDagStages.length }
      let decided ← (Backpressure.evaluate config state
        ⟨windowStageText, projected, observedAtMs⟩).mapError .value
      admitRemaining config observedAtMs remaining projected decided.2 decided.1
    else .ok (.throttled decision)

def BackpressureSession.admitWindowBatch (session : BackpressureSession) (ldb : LedgerDb)
    (signals : BackpressureRuntimeSignals) (now : Int) (newWindowCount : Nat) :
    Except StreamError (AdmissionOutcome × BackpressureSession × LedgerDb) :=
  match newWindowCount with
  | 0 => .ok (.admitted, session, ldb)
  | remaining + 1 => do
      let (pressure, session', ldb') ← session.backpressureSnapshot ldb signals now
      match session'.state.lastObservedAtMs with
      | none => .error (.composition "backpressure observation was not persisted")
      | some observedAtMs => do
          let outcome ← admitRemaining session'.config observedAtMs remaining pressure.metrics
            session'.state pressure.decision
          .ok (outcome, session', ldb')

/-! ## When they answer -/

section Answers

variable {ldb ldb' : LedgerDb} {planKey : String} {now : Int} {session session' : BackpressureSession}
  {signals : BackpressureRuntimeSignals} {snapshot : StreamBackpressureSnapshot}

theorem backlog_completes_iff :
    (∃ b, ldb.backlog planKey now = .ok b) ↔
      (∃ plan, ldb.plans.find? planKey = some plan) ∧ ldb.PlannedRows planKey := by
  unfold LedgerDb.backlog
  constructor
  · rintro ⟨b, h⟩
    obtain ⟨projection, hprojection, _⟩ := bind_eq_ok.mp h
    obtain ⟨_, hplan, hrows, _⟩ := backlogProjection_spec hprojection
    exact ⟨hplan, hrows⟩
  · rintro ⟨hplan, hrows⟩
    obtain ⟨projection, hprojection⟩ : ∃ b, ldb.backlogProjection .sqlite planKey
        terminalWorkStates .finalization = .ok b :=
      backlogProjection_completes (by decide) hplan hrows
    rw [hprojection]
    exact ⟨_, rfl⟩

theorem saveBackpressureController_completes {c : StoredStreamBackpressureController}
    {state : BackpressureControllerState} (h : ldb.holdsController c = true) :
    ∃ out, ldb.saveBackpressureController c state = .ok out := by
  unfold LedgerDb.saveBackpressureController
  rw [h]
  exact ⟨_, rfl⟩

theorem backpressureSnapshot_spec
    (h : session.backpressureSnapshot ldb signals now = .ok (snapshot, session', ldb')) :
    (∃ backlog, ldb.backlog session.planKey now = .ok backlog ∧
        snapshot.metrics = (session.metrics backlog signals (observedMs now)).1) ∧
      snapshot.decision = Backpressure.decision session.config session.state
        ⟨windowStageText, snapshot.metrics, observedMs now⟩ ∧
      session.state.Observes (observedMs now) ∧ ldb.holdsController session.controller = true ∧
      session'.config = session.config ∧
      session'.state.lastObservedAtMs = some (observedMs now).toNat ∧
      ldb'.toStreamDb = ldb.toStreamDb := by
  obtain ⟨backlog, hbacklog, h⟩ := bind_eq_ok.mp h
  simp only at h
  split at h
  · cases h
  · rename_i decision next hevaluate
    split at h
    · cases h
    · rename_i controller saved hsave
      cases h
      obtain ⟨_, hobserves, hdecision, _, hlast⟩ := evaluate_spec hevaluate
      obtain ⟨hheld, _, hsame, _⟩ := saveBackpressureController_spec hsave
      exact ⟨⟨backlog, hbacklog, rfl⟩, hdecision, hobserves, hheld, rfl, hlast, hsame⟩

theorem backpressureSnapshot_completes_iff :
    (∃ out, session.backpressureSnapshot ldb signals now = .ok out) ↔
      (∃ plan, ldb.plans.find? session.planKey = some plan) ∧ ldb.PlannedRows session.planKey ∧
        session.state.Observes (observedMs now) ∧
        ldb.holdsController session.controller = true := by
  constructor
  · rintro ⟨⟨snapshot, session', ldb'⟩, h⟩
    obtain ⟨⟨backlog, hbacklog, _⟩, _, hobserves, hheld, _⟩ := backpressureSnapshot_spec h
    obtain ⟨hplan, hrows⟩ := backlog_completes_iff.mp ⟨backlog, hbacklog⟩
    exact ⟨hplan, hrows, hobserves, hheld⟩
  · rintro ⟨hplan, hrows, hobserves, hheld⟩
    obtain ⟨backlog, hbacklog⟩ : ∃ b, ldb.backlog session.planKey now = .ok b :=
      backlog_completes_iff.mpr ⟨hplan, hrows⟩
    unfold BackpressureSession.backpressureSnapshot
    rw [hbacklog, ok_bind]
    simp only
    split
    · rename_i e herror
      cases (evaluate_eq_ok session.accepts hobserves).symm.trans herror
    · split
      · rename_i e herror
        obtain ⟨out, hout⟩ := saveBackpressureController_completes hheld
        cases hout.symm.trans herror
      · exact ⟨_, rfl⟩

theorem admitRemaining_completes {config : BackpressureConfig} {observedAtMs : Nat} :
    ∀ (remaining : Nat) (metrics : QueueMetrics) (state : BackpressureControllerState)
      (decision : AdmissionDecision), Backpressure.Accepts config state →
      state.lastObservedAtMs = some observedAtMs →
      ∃ outcome, admitRemaining config observedAtMs remaining metrics state decision =
        .ok outcome := by
  intro remaining
  induction remaining with
  | zero =>
    intro metrics state decision _ _
    exact ⟨_, rfl⟩
  | succ remaining ih =>
    intro metrics state decision haccepts hlast
    unfold admitRemaining
    split
    · let projected := { metrics with depth := metrics.depth + windowDagStages.length }
      let call : Backpressure.Observation := ⟨windowStageText, projected, observedAtMs⟩
      have hobserves : state.Observes call.observedAtMs := by
        refine ⟨Int.natCast_nonneg _, fun last h => ?_⟩
        rw [hlast] at h
        cases h
        exact le_refl _
      have hdecided := evaluate_eq_ok haccepts hobserves
      obtain ⟨_, _, _, hnext, hlast'⟩ := evaluate_spec hdecided
      obtain ⟨outcome, houtcome⟩ := ih projected _ _ hnext hlast'
      exact ⟨outcome, bind_eq_ok.mpr ⟨_, congrArg _ hdecided, houtcome⟩⟩
    · exact ⟨_, rfl⟩

/-- Admission of a nonempty batch raises nothing but the refusal of the controller exactly
when the snapshot before it is answered. -/
theorem admitWindowBatch_completes_iff {remaining : Nat} :
    (∃ out, session.admitWindowBatch ldb signals now (remaining + 1) = .ok out) ↔
      ∃ out, session.backpressureSnapshot ldb signals now = .ok out := by
  constructor
  · rintro ⟨out, h⟩
    obtain ⟨pressure, hpressure, _⟩ := bind_eq_ok.mp h
    exact ⟨pressure, hpressure⟩
  · rintro ⟨⟨snapshot, session', ldb'⟩, hsnapshot⟩
    obtain ⟨_, _, _, _, _, hlast, _⟩ := backpressureSnapshot_spec hsnapshot
    obtain ⟨outcome, houtcome⟩ := admitRemaining_completes remaining snapshot.metrics session'.state
      snapshot.decision session'.accepts hlast
    refine ⟨(outcome, session', ldb'), bind_eq_ok.mpr ⟨_, hsnapshot, ?_⟩⟩
    simp only [hlast]
    exact bind_eq_ok.mpr ⟨outcome, houtcome, rfl⟩

end Answers

end Robata.Stream
