import Robata.Backpressure.Controller

/-!
# Runs of the controller

A run feeds each call the state that the call before it returned.  The limit stays within its
bounds and falls at every rejection; it recovers at the end of a quiet stretch only when the call
before came a cooldown earlier, since every call restarts the cooldown.
-/

namespace Robata.Backpressure

open Lib List
open Queue (NonEmptyString)

variable {config : BackpressureConfig} {state state' : BackpressureControllerState}
  {call : Observation} {calls : List Observation}

/-! ## One call -/

theorem nextLimit_rejected (hmode : config.controllerMode = .aimd) (h : Accepts config state)
    (hrejected : ¬call.Admitted config) :
    nextLimit config state call ≤ state.currentLimit ∧
      (config.minimumLimit < state.currentLimit →
        nextLimit config state call < state.currentLimit) := by
  have hfloor := floor_decrease_lt config h.limit_pos
  unfold nextLimit
  rw [hmode]
  rw [if_pos (Bool.eq_false_iff.mpr hrejected)]
  exact ⟨max_le h.minimum_le hfloor.le, fun hlt => max_lt hlt hfloor⟩

/-- Below the maximum an admitted call raises the limit exactly when the cooldown has elapsed. -/
theorem raises_iff (hmode : config.controllerMode = .aimd) (hadmitted : call.Admitted config)
    (hbelow : state.currentLimit < config.maximumLimit) :
    state.currentLimit < nextLimit config state call ↔
      cooldownElapsed config state call.observedAtMs = true := by
  have hincrease := config.increasePositive
  unfold nextLimit
  rw [hmode]
  rw [show (shouldAdmit config call.stage call.metrics).admitted = true from hadmitted]
  by_cases helapsed : cooldownElapsed config state call.observedAtMs = true
  · simp only [helapsed, if_true, iff_true, Bool.true_eq_false, if_false]
    omega
  · simp [helapsed]

/-! ## Runs -/

/-- The state after some calls. -/
def stateAfter (config : BackpressureConfig) (controllerKey : NonEmptyString)
    (calls : List Observation) : Except String BackpressureControllerState :=
  calls.foldlM (fun state call => (evaluate config state call).map (·.2))
    (initialState config controllerKey)

/-- The calls come in time. -/
def InTime (calls : List Observation) : Prop :=
  (∀ call ∈ calls, 0 ≤ call.observedAtMs) ∧
    calls.Pairwise fun call later => call.observedAtMs ≤ later.observedAtMs

variable (config calls) in
/-- A state of a run after some calls: the last one has been noted. -/
structure RunState (state : BackpressureControllerState) : Prop where
  accepts : Accepts config state
  lastObserved : state.lastObservedAtMs = calls.getLast?.map (·.observedAtMs.toNat)

variable {controllerKey : NonEmptyString}

theorem stateAfter_concat (calls : List Observation) (call : Observation) :
    stateAfter config controllerKey (calls ++ [call]) =
      (stateAfter config controllerKey calls >>= fun state =>
        (evaluate config state call).map (·.2)) := by
  unfold stateAfter
  rw [foldlM_append]
  apply bind_congr
  intro state
  exact bind_pure _

theorem InTime.of_append {later : List Observation} (h : InTime (calls ++ later)) : InTime calls :=
  ⟨fun call hcall => h.1 call (mem_append_left _ hcall), h.2.sublist (sublist_append_left _ _)⟩

theorem InTime.of_prefix {later : List Observation} (h : InTime later) (hrun : calls <+: later) :
    InTime calls := by
  obtain ⟨rest, rfl⟩ := hrun
  exact h.of_append

theorem RunState.step (h : RunState config calls state) (htime : InTime (calls ++ [call])) :
    evaluate config state call =
        .ok (decision config state call, nextState config state call h.accepts.policyVersion) ∧
      RunState config (calls ++ [call])
        (nextState config state call h.accepts.policyVersion) := by
  have hnonneg := htime.1 call (mem_append_right _ mem_cons_self)
  have hlast : ∀ last, state.lastObservedAtMs = some last → (last : Int) ≤ call.observedAtMs := by
    intro last hlast
    rw [h.lastObserved] at hlast
    obtain ⟨previous, hprevious, rfl⟩ := Option.map_eq_some_iff.mp hlast
    have hpairs := (pairwise_append.mp htime.2).2.2
    have hle := hpairs previous (mem_of_getLast? hprevious) call mem_cons_self
    omega
  refine ⟨evaluate_eq_ok h.accepts ⟨hnonneg, hlast⟩, h.accepts.nextState call, ?_⟩
  rw [getLast?_concat]
  rfl

theorem stateAfter_spec (controllerKey : NonEmptyString) (htime : InTime calls) :
    ∃ state, stateAfter config controllerKey calls = .ok state ∧
      RunState config calls state := by
  induction calls using reverseRecOn with
  | nil => exact ⟨_, rfl, accepts_initialState controllerKey, rfl⟩
  | append_singleton calls call ih =>
    obtain ⟨state, hstate, hrun⟩ := ih htime.of_append
    obtain ⟨hevaluate, hnext⟩ := hrun.step htime
    refine ⟨_, ?_, hnext⟩
    rw [stateAfter_concat, hstate, ok_bind, hevaluate]
    rfl

/-! ## Recovery -/

variable (config controllerKey) in
/-- A quiet stretch of a run: since `since` the thresholds have admitted every observation and the
limit has not changed, and the call that ends the stretch comes a cooldown later, with the limit
below the maximum. -/
structure QuietStretch (calls before quiet : List Observation) (call : Observation) (since : Int)
    (limit : Nat) : Prop where
  run : before ++ quiet ++ [call] <+: calls
  earlier : ∀ other ∈ before, other.observedAtMs ≤ since
  later : ∀ other ∈ quiet, since ≤ other.observedAtMs
  admitted : ∀ other ∈ quiet ++ [call], other.Admitted config
  unchanged : ∀ part, part <+: quiet → ∀ state,
    stateAfter config controllerKey (before ++ part) = .ok state → state.currentLimit = limit
  elapsed : since + config.cooldownMs ≤ call.observedAtMs
  below : limit < config.maximumLimit

variable (config controllerKey) in
/-- What is asked of a run: it goes on, its limits stay within their bounds, a rejection never
raises the limit and lowers it above the minimum, and a quiet stretch of a cooldown ends with a
higher limit. -/
structure AimdLaw (calls : List Observation) : Prop where
  runs : ∃ state, stateAfter config controllerKey calls = .ok state
  bounded : ∀ part, part <+: calls → ∀ state, stateAfter config controllerKey part = .ok state →
    config.minimumLimit ≤ state.currentLimit ∧ state.currentLimit ≤ config.maximumLimit
  rejected : ∀ part call, part ++ [call] <+: calls → ¬call.Admitted config → ∀ state state',
    stateAfter config controllerKey part = .ok state →
    stateAfter config controllerKey (part ++ [call]) = .ok state' →
      state'.currentLimit ≤ state.currentLimit ∧
        (config.minimumLimit < state.currentLimit → state'.currentLimit < state.currentLimit)
  recovers : ∀ before quiet call since limit,
    QuietStretch config controllerKey calls before quiet call since limit → ∀ state,
      stateAfter config controllerKey (before ++ quiet ++ [call]) = .ok state →
        limit < state.currentLimit

variable (config controllerKey) in
/-- The call that ends a quiet stretch comes a cooldown after the call before it. -/
def SpacedAfterQuiet (calls : List Observation) : Prop :=
  ∀ before quiet call since limit,
    QuietStretch config controllerKey calls before quiet call since limit →
      ∀ last ∈ (before ++ quiet).getLast?, last.observedAtMs + config.cooldownMs ≤ call.observedAtMs

section Law

variable (hmode : config.controllerMode = .aimd) (htime : InTime calls)

include htime

theorem exists_step {part : List Observation} (hrun : part ++ [call] <+: calls) :
    ∃ state next, stateAfter config controllerKey part = .ok state ∧ RunState config part state ∧
      stateAfter config controllerKey (part ++ [call]) = .ok next ∧
      next.currentLimit = nextLimit config state call := by
  have hpart := htime.of_prefix hrun
  obtain ⟨state, hstate, hstateRun⟩ := stateAfter_spec controllerKey hpart.of_append
  obtain ⟨hevaluate, _⟩ := hstateRun.step hpart
  refine ⟨state, nextState config state call hstateRun.accepts.policyVersion, hstate, hstateRun, ?_,
    rfl⟩
  rw [stateAfter_concat, hstate, ok_bind, hevaluate]
  rfl

include hmode

/-- At the end of a quiet stretch the limit rises when the call before came a cooldown earlier. -/
theorem QuietStretch.raises_iff {before quiet : List Observation} {since : Int} {limit : Nat}
    (h : QuietStretch config controllerKey calls before quiet call since limit) :
    (∀ state, stateAfter config controllerKey (before ++ quiet ++ [call]) = .ok state →
        limit < state.currentLimit) ↔
      ∀ last ∈ (before ++ quiet).getLast?,
        last.observedAtMs + config.cooldownMs ≤ call.observedAtMs := by
  obtain ⟨state, next, hstate, hrun, hnext, hnextLimit⟩ := exists_step htime h.run
  have hlimit := h.unchanged quiet (prefix_refl _) state hstate
  have hadmitted := h.admitted call (mem_append_right _ mem_cons_self)
  have hbelow := h.below
  rw [← hlimit] at hbelow
  have hraises : state.currentLimit < nextLimit config state call ↔
      cooldownElapsed config state call.observedAtMs = true :=
    Backpressure.raises_iff hmode hadmitted hbelow
  have helapsed : cooldownElapsed config state call.observedAtMs = true ↔
      ∀ last ∈ (before ++ quiet).getLast?,
        last.observedAtMs + config.cooldownMs ≤ call.observedAtMs := by
    unfold cooldownElapsed
    rw [hrun.lastObserved]
    cases hlast : (before ++ quiet).getLast? with
    | none => simp
    | some last =>
      have hnonneg := (htime.of_prefix h.run).1 last (mem_append_left _ (mem_of_getLast? hlast))
      simp [hnonneg]
  rw [← helapsed, ← hraises, hlimit, ← hnextLimit]
  constructor
  · intro hall
    exact hall _ hnext
  · intro hlt state' hstate'
    rw [hnext] at hstate'
    cases hstate'
    exact hlt

/-- A run keeps the law exactly when the calls that end its quiet stretches are a cooldown apart
from the calls before them: each call restarts the cooldown, whatever it decides. -/
theorem aimdLaw_iff_spacedAfterQuiet :
    AimdLaw config controllerKey calls ↔ SpacedAfterQuiet config controllerKey calls := by
  constructor
  · intro h before quiet call since limit hquiet
    exact (hquiet.raises_iff hmode htime).mp
      (h.recovers before quiet call since limit hquiet)
  · intro h
    refine ⟨?_, ?_, ?_, ?_⟩
    · obtain ⟨state, hstate, _⟩ := stateAfter_spec controllerKey htime
      exact ⟨state, hstate⟩
    · intro part hpart state hstate
      obtain ⟨state', hstate', hrun⟩ := stateAfter_spec controllerKey (htime.of_prefix hpart)
      rw [hstate] at hstate'
      cases hstate'
      exact ⟨hrun.accepts.minimum_le, hrun.accepts.le_maximum⟩
    · intro part call hrun hrejected state state' hstate hstate'
      obtain ⟨found, next, hfound, hfoundRun, hnext, hlimit⟩ := exists_step htime hrun
      rw [hstate] at hfound
      cases hfound
      rw [hstate'] at hnext
      cases hnext
      rw [hlimit]
      exact nextLimit_rejected hmode hfoundRun.accepts hrejected
    · intro before quiet call since limit hquiet
      exact (hquiet.raises_iff hmode htime).mpr (h before quiet call since limit hquiet)

end Law

/-! ## A run that recovers, and one that does not -/

/-- A cooldown of 100 milliseconds. -/
def sampleConfig : BackpressureConfig :=
  { BackpressureConfig.withDefaults ⟨"policy", by decide⟩ 16 1000 10 with
    controllerVersion := ⟨"controller", by decide⟩
    controllerKey := ⟨"provider", by decide⟩
    controllerMode := .aimd
    additiveIncrease := 2
    increasePositive := Nat.two_pos
    cooldownMs := 100 }

/-- An empty queue, with the given quota. -/
def sampleObservation (quota : Option Nat) (observedAtMs : Int) : Observation where
  stage := "QA_COARSE_PLAN"
  metrics :=
    { depth := 0, oldestAgeMs := 0, arrivalRate := none, serviceRate := none,
      backlogSlope := none, providerQuota := quota, workerUtilization := none }
  observedAtMs

/-- One rejection, and polls that find nothing wrong. -/
def sampleCalls (polls : List Int) : List Observation :=
  sampleObservation (some 0) 0 :: polls.map (sampleObservation none)

theorem sampleCalls_inTime {polls : List Int} (h : polls.Pairwise (· ≤ ·))
    (hnonneg : ∀ ms ∈ polls, 0 ≤ ms) : InTime (sampleCalls polls) := by
  refine ⟨forall_mem_cons.mpr ⟨le_refl 0, forall_mem_map.mpr hnonneg⟩, ?_⟩
  exact pairwise_cons.mpr ⟨forall_mem_map.mpr hnonneg, pairwise_map.mpr h⟩

theorem sampleCalls_halved (polls : List Int) (hpolls : polls ∈ [[], [50], [50, 100]])
    (h : stateAfter sampleConfig sampleConfig.controllerKey (sampleCalls polls) = .ok state) :
    state.currentLimit = 8 := by
  have hlimit : ∀ polls ∈ [[], [50], [50, 100]],
      (stateAfter sampleConfig sampleConfig.controllerKey
        (sampleCalls polls)).toOption.map (·.currentLimit) = some 8 := by
    decide +kernel
  have hsome := hlimit polls hpolls
  rw [h] at hsome
  exact Option.some.inj hsome

/-- A poll that comes a cooldown after the rejection raises the limit. -/
theorem aimdLaw_iff_spacedAfterQuiet_sample :
    QuietStretch sampleConfig sampleConfig.controllerKey (sampleCalls [100])
        [sampleObservation (some 0) 0] [] (sampleObservation none 100) 0 8 ∧
      AimdLaw sampleConfig sampleConfig.controllerKey (sampleCalls [100]) := by
  constructor
  · refine ⟨prefix_refl _, by decide, by decide, by decide +kernel, ?_, by decide, by decide⟩
    intro part hpart state hstate
    rw [prefix_nil.mp hpart] at hstate
    exact sampleCalls_halved [] (by simp) hstate
  · refine (aimdLaw_iff_spacedAfterQuiet rfl
      (sampleCalls_inTime (by decide) (by decide))).mpr ?_
    intro before quiet call since limit hquiet last hlast
    obtain ⟨rest, hrest⟩ := hquiet.run
    cases hpart : before ++ quiet with
    | nil => simp [hpart] at hlast
    | cons first others =>
      -- the rejection comes before the call, and nothing else does
      rw [hpart] at hrest hlast
      obtain ⟨rfl, hothers⟩ := cons.inj hrest
      cases others with
      | nil =>
        obtain ⟨rfl, -⟩ := cons.inj hothers
        cases hlast
        decide
      | cons => simp at hothers

/-- A hundred milliseconds after the rejection the limit is still what the rejection made it: the
poll in between has restarted the cooldown. -/
theorem polling_stops_recovery : InTime (sampleCalls [50, 100]) ∧
    ¬AimdLaw sampleConfig sampleConfig.controllerKey (sampleCalls [50, 100]) := by
  refine ⟨sampleCalls_inTime (by decide) (by decide), fun h => ?_⟩
  have hquiet : QuietStretch sampleConfig sampleConfig.controllerKey (sampleCalls [50, 100])
      [sampleObservation (some 0) 0] [sampleObservation none 50] (sampleObservation none 100)
      0 8 := by
    refine ⟨prefix_refl _, by decide, by decide, by decide +kernel, ?_, by decide, by decide⟩
    intro part hpart state hstate
    rcases prefix_cons_iff.mp hpart with rfl | ⟨rest, rfl, hrest⟩
    · exact sampleCalls_halved [] (by simp) hstate
    · rw [prefix_nil.mp hrest] at hstate
      exact sampleCalls_halved [50] (by simp) hstate
  obtain ⟨state, hrun⟩ := h.runs
  have hraised := h.recovers _ _ _ _ _ hquiet state hrun
  have hheld := sampleCalls_halved [50, 100] (by simp) hrun
  omega

end Robata.Backpressure
