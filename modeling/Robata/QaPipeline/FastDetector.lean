import Robata.Contracts.Common
import Robata.Lib.Aligned

/-!
# Timestamps of a stream

`FastDetector.check_timestamp_monotonicity`: every step of a sequence that does not advance is an
issue, whose interval runs between the two timestamps.  A step that stands still has no such
interval, and the `ValidationError` that refuses it ends the check; `none` is that exception.
-/

namespace Robata.QaPipeline

open Contracts Lib List

/-- A signed 64-bit time. -/
abbrev Nanoseconds := { n : Int // int64Min ≤ n ∧ n ≤ int64Max }

inductive IntegrityStatus
  | pass
  | degraded
  | fail
  deriving DecidableEq

structure StreamIntegrityIssue where
  code : String
  interval : Option NanosecondInterval
  message : String

structure TimestampCheckResult where
  status : IntegrityStatus
  issues : List StreamIntegrityIssue
  checkedAt : String
  (firstNs lastNs : Int)
  gapCount : Nat

/-- Two timestamps next to each other, and the index of the later one. -/
structure Step where
  index : Nat
  (previous current : Nanoseconds)

/-- The steps of a sequence, of which the first leads to the given index. -/
def stepsFrom (index : Nat) : List Nanoseconds → List Step
  | previous :: current :: rest =>
    ⟨index, previous, current⟩ :: stepsFrom (index + 1) (current :: rest)
  | _ => []

def Step.isFault (step : Step) : Bool := decide (step.current.val ≤ step.previous.val)

/-- One round of the loop over the steps. -/
def checkStep (found : Nat × List StreamIntegrityIssue) (step : Step) :
    Option (Nat × List StreamIntegrityIssue) :=
  let (gapCount, issues) := found
  if step.isFault then do
    let startNs := min step.previous.val step.current.val
    let endNs := max step.previous.val step.current.val
    let interval ← NanosecondInterval.make? startNs endNs
    let message := "Non-monotonic timestamp at index " ++ toString step.index ++ ": " ++
      toString step.current.val ++ " <= " ++ toString step.previous.val
    some (gapCount + 1, issues ++ [⟨"NON_MONOTONIC_TIMESTAMP", some interval, message⟩])
  else
    some found

def checkTimestampMonotonicity (checkedAt : String) (timestamps : List Nanoseconds) :
    Option TimestampCheckResult :=
  match timestamps with
  | [] =>
    some
      { status := .fail
        issues := [⟨"NO_TIMESTAMPS", none, "Timestamp sequence is empty"⟩]
        checkedAt := checkedAt
        firstNs := 0
        lastNs := 0
        gapCount := 0 }
  | first :: rest => do
    let (gapCount, issues) ← (stepsFrom 1 timestamps).foldlM checkStep (0, [])
    some
      { status := if issues.isEmpty then .pass else .degraded
        issues := issues
        checkedAt := checkedAt
        firstNs := first.val
        lastNs := ((first :: rest).getLast (cons_ne_nil _ _)).val
        gapCount := gapCount }

/-! ## The loop over the steps -/

/-- The issue reports the step, with an interval from one timestamp to the other. -/
def Reports (step : Step) (issue : StreamIntegrityIssue) : Prop :=
  issue.code = "NON_MONOTONIC_TIMESTAMP" ∧ ∃ interval, issue.interval = some interval ∧
    interval.bounds = (step.current.val, step.previous.val)

variable {steps : List Step} (found : Nat × List StreamIntegrityIssue) {step : Step}

theorem isFault_iff : step.isFault = true ↔ step.current.val ≤ step.previous.val :=
  decide_eq_true_iff

theorem checkStep_fault (hfault : step.isFault = true) (hne : step.previous ≠ step.current) :
    ∃ issue, checkStep found step = some (found.1 + 1, found.2 ++ [issue]) ∧
      Reports step issue := by
  have hle := isFault_iff.mp hfault
  have hlt : step.current.val < step.previous.val :=
    lt_of_le_of_ne hle fun heq => hne (Subtype.ext heq.symm)
  obtain ⟨interval, hmake, hstart, hend⟩ := NanosecondInterval.make?_completes
    step.current.property.1 step.previous.property.2 hlt
  simp only [checkStep, hfault, if_true, min_eq_right hle, max_eq_left hle, hmake]
  exact ⟨_, rfl, rfl, interval, rfl, Prod.ext hstart hend⟩

theorem checkStep_still (h : step.previous = step.current) : checkStep found step = none := by
  have hfault : step.isFault = true := isFault_iff.mpr (by rw [h])
  have hempty : NanosecondInterval.make? step.current.val step.current.val = none :=
    dif_neg fun h => lt_irrefl _ h.2.2
  simp only [checkStep, hfault, if_true, h, min_self, max_self, hempty]
  rfl

/-- Without a step that stands still, the loop finds one issue for each fault. -/
theorem checkSteps_complete (hmoves : ∀ step ∈ steps, step.previous ≠ step.current) :
    ∃ issues, steps.foldlM checkStep found = some (found.1 + issues.length, found.2 ++ issues) ∧
      List.Forall₂ Reports (steps.filter Step.isFault) issues := by
  induction steps generalizing found with
  | nil => exact ⟨[], by simp, .nil⟩
  | cons step rest ih =>
    have hrest : ∀ step ∈ rest, step.previous ≠ step.current := fun s hs =>
      hmoves s (mem_cons_of_mem _ hs)
    cases hfault : step.isFault with
    | true =>
      obtain ⟨issue, hround, hreports⟩ := checkStep_fault found hfault (hmoves step mem_cons_self)
      obtain ⟨issues, hloop, hall⟩ := ih (found.1 + 1, found.2 ++ [issue]) hrest
      refine ⟨issue :: issues, ?_, ?_⟩
      · rw [foldlM_cons, hround, Option.bind_eq_bind, Option.bind_some, hloop]
        simp only [length_cons, append_assoc, cons_append, nil_append, Nat.add_assoc,
          Nat.add_comm 1]
      · rw [filter_cons_of_pos hfault]
        exact .cons hreports hall
    | false =>
      have hround : checkStep found step = some found := by simp [checkStep, hfault]
      obtain ⟨issues, hloop, hall⟩ := ih found hrest
      refine ⟨issues, ?_, ?_⟩
      · rw [foldlM_cons, hround, Option.bind_eq_bind, Option.bind_some, hloop]
      · rw [filter_cons_of_neg (by simp [hfault])]
        exact hall

theorem checkSteps_still (h : ∃ step ∈ steps, step.previous = step.current) :
    steps.foldlM checkStep found = none := by
  induction steps generalizing found with
  | nil =>
    obtain ⟨step, hstep, -⟩ := h
    exact absurd hstep not_mem_nil
  | cons step rest ih =>
    rw [foldlM_cons]
    by_cases hstill : step.previous = step.current
    · rw [checkStep_still found hstill]
      rfl
    · have hrest : ∃ step ∈ rest, step.previous = step.current := by
        obtain ⟨s, hs, heq⟩ := h
        rcases mem_cons.mp hs with rfl | hs
        · exact absurd heq hstill
        · exact ⟨s, hs, heq⟩
      cases checkStep found step with
      | none => rfl
      | some found' => exact ih found' hrest

theorem isChain_iff_steps {R : Nanoseconds → Nanoseconds → Prop} (index : Nat)
    (timestamps : List Nanoseconds) : timestamps.IsChain R ↔
      ∀ step ∈ stepsFrom index timestamps, R step.previous step.current := by
  induction timestamps generalizing index with
  | nil => simp [stepsFrom]
  | cons previous rest ih =>
    cases rest with
    | nil => simp [stepsFrom]
    | cons current rest =>
      rw [isChain_cons_cons, stepsFrom, forall_mem_cons, ih (index + 1)]

/-! ## The check -/

/-- What the result of a check says of the timestamps: whether they increase, and which steps do
not, each with its issue; a sequence with timestamps has no other issues. -/
structure ReportsEveryFault (timestamps : List Nanoseconds) (result : TimestampCheckResult) :
    Prop where
  status : result.status = .pass ↔ timestamps ≠ [] ∧ timestamps.Pairwise (· < ·)
  gapCount : result.gapCount = ((stepsFrom 1 timestamps).filter Step.isFault).length
  issues : List.Forall₂ Reports ((stepsFrom 1 timestamps).filter Step.isFault)
    (result.issues.filter (·.code == "NON_MONOTONIC_TIMESTAMP"))
  noOther : timestamps ≠ [] → ∀ issue ∈ result.issues, issue.code = "NON_MONOTONIC_TIMESTAMP"

theorem pairwise_iff_no_fault (timestamps : List Nanoseconds) :
    timestamps.Pairwise (· < ·) ↔ (stepsFrom 1 timestamps).filter Step.isFault = [] := by
  rw [← isChain_iff_pairwise, isChain_iff_steps 1, filter_eq_nil_iff]
  refine forall₂_congr fun step _ => ?_
  rw [isFault_iff, not_le]
  exact Subtype.coe_lt_coe.symm

/-- The check reports every fault exactly when no timestamp is repeated right after itself. -/
theorem timestamp_faults_reported_iff (checkedAt : String) (timestamps : List Nanoseconds) :
    (∃ result, checkTimestampMonotonicity checkedAt timestamps = some result ∧
        ReportsEveryFault timestamps result) ↔
      timestamps.IsChain (· ≠ ·) := by
  cases timestamps with
  | nil => exact iff_of_true ⟨_, rfl, by simp, rfl, .nil, fun hne => absurd rfl hne⟩ .nil
  | cons first rest =>
    rw [isChain_iff_steps 1]
    constructor
    · rintro ⟨result, hcheck, -⟩ step hstep hstill
      have hloop := checkSteps_still (0, []) ⟨step, hstep, hstill⟩
      simp only [checkTimestampMonotonicity, hloop] at hcheck
      cases hcheck
    · intro hmoves
      obtain ⟨issues, hloop, hall⟩ := checkSteps_complete (0, []) hmoves
      rw [Nat.zero_add, nil_append] at hloop
      have hcode : ∀ issue ∈ issues, issue.code = "NON_MONOTONIC_TIMESTAMP" := by
        intro issue hissue
        obtain ⟨step, -, hreports⟩ := exists_left_of_forall₂ hall issue hissue
        exact hreports.1
      refine ⟨_, by simp only [checkTimestampMonotonicity, hloop]; rfl, ?_, ?_, ?_, fun _ => hcode⟩
      · rw [pairwise_iff_no_fault, ← length_eq_zero_iff, hall.length_eq, length_eq_zero_iff]
        simp
      · exact hall.length_eq.symm
      · have hkept : issues.filter (·.code == "NON_MONOTONIC_TIMESTAMP") = issues := by
          rw [filter_eq_self]
          exact fun issue hissue => beq_iff_eq.mpr (hcode issue hissue)
        exact hkept.symm ▸ hall

/-- A timestamp that comes twice in a row ends the check with an exception. -/
theorem repeated_timestamp_ends_check :
    ¬ ∀ timestamps, ∃ result, checkTimestampMonotonicity "now" timestamps = some result ∧
      ReportsEveryFault timestamps result := by
  intro h
  obtain ⟨result, hcheck, -⟩ := h [⟨5, by decide⟩, ⟨5, by decide⟩]
  have hnone : checkTimestampMonotonicity "now" [⟨5, by decide⟩, ⟨5, by decide⟩] = none := by
    decide
  rw [hnone] at hcheck
  cases hcheck

end Robata.QaPipeline
