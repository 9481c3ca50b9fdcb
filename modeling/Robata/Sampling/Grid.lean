import Robata.Contracts.Common
import Robata.Lib.HalfEven

/-!
# Exact rational sampling grids

`SamplingRate` and `SamplingGrid`: the targets of a grid are the multiples of
its period, rounded half-even to nanoseconds from a persisted origin.
`iterUniqueTargets` is the loop of `iter_unique_targets`, and its specification
is the interval of indices that `_first_k_at_or_after` cuts out.

Frame selection assigns one result to each target, so the number of targets a
camera reports is the number of targets the grid yields.
-/

namespace Robata.Sampling

open Contracts Lib

def nanosecondsPerSecond : Int := 1000000000

structure SamplingRate where
  (numerator denominator : Int)
  numerator_pos : 0 < numerator
  denominator_pos : 0 < denominator
  reduced : Int.gcd numerator denominator = 1

/-- `SamplingRate.__post_init__`. -/
def SamplingRate.make? (numerator denominator : Int) : Option SamplingRate :=
  if h : 0 < numerator ∧ 0 < denominator then
    let divisor : Int := Int.gcd numerator denominator
    have hpos : 0 < Int.gcd numerator denominator := Int.gcd_pos_of_ne_zero_left _ h.1.ne'
    some {
      numerator := numerator / divisor
      denominator := denominator / divisor
      numerator_pos := Int.ediv_pos_of_pos_of_dvd h.1 (Int.natCast_nonneg _) (Int.gcd_dvd_left ..)
      denominator_pos :=
        Int.ediv_pos_of_pos_of_dvd h.2 (Int.natCast_nonneg _) (Int.gcd_dvd_right ..)
      reduced := Int.gcd_ediv_gcd_ediv_gcd hpos }
  else
    none

structure SamplingTarget where
  (k targetNs : Int)

structure SamplingGrid where
  gridOriginNs : Int
  rate : SamplingRate

namespace SamplingGrid

def periodNumNs (grid : SamplingGrid) : Int :=
  let rawNumerator := nanosecondsPerSecond * grid.rate.denominator
  rawNumerator / (Int.gcd rawNumerator grid.rate.numerator : Int)

def periodDen (grid : SamplingGrid) : Int :=
  let rawNumerator := nanosecondsPerSecond * grid.rate.denominator
  grid.rate.numerator / (Int.gcd rawNumerator grid.rate.numerator : Int)

/-- `target_ns`.  The targets of a loop lie in an interval of 64-bit ends, so
its overflow check never fires there. -/
def targetNs (grid : SamplingGrid) (k : Int) : Int :=
  grid.gridOriginNs + roundHalfEven (k * grid.periodNumNs) grid.periodDen

def firstKAtOrAfter (grid : SamplingGrid) (timestampNs : Int) : Int :=
  firstIndex grid.periodNumNs grid.periodDen (timestampNs - grid.gridOriginNs)

/-! ## The period -/

/-- What the two halves of the period are cancelled by. -/
def divisor (grid : SamplingGrid) : Int :=
  (Int.gcd (nanosecondsPerSecond * grid.rate.denominator) grid.rate.numerator : Int)

variable (grid : SamplingGrid)

theorem divisor_pos : 0 < grid.divisor := by
  have hpos : 0 < Int.gcd (nanosecondsPerSecond * grid.rate.denominator) grid.rate.numerator :=
    Int.gcd_pos_of_ne_zero_right _ grid.rate.numerator_pos.ne'
  unfold divisor
  omega

theorem periodNumNs_mul : grid.periodNumNs * grid.divisor =
    nanosecondsPerSecond * grid.rate.denominator :=
  Int.ediv_mul_cancel (Int.gcd_dvd_left ..)

theorem periodDen_mul : grid.periodDen * grid.divisor = grid.rate.numerator :=
  Int.ediv_mul_cancel (Int.gcd_dvd_right ..)

theorem periodNumNs_pos : 0 < grid.periodNumNs := by
  have hraw : 0 < nanosecondsPerSecond * grid.rate.denominator :=
    Int.mul_pos (by decide) grid.rate.denominator_pos
  rw [← grid.periodNumNs_mul] at hraw
  exact Int.pos_of_mul_pos_left hraw grid.divisor_pos

theorem periodDen_pos : 0 < grid.periodDen := by
  have hraw := grid.rate.numerator_pos
  rw [← grid.periodDen_mul] at hraw
  exact Int.pos_of_mul_pos_left hraw grid.divisor_pos

theorem firstKAtOrAfter_le_iff {t k : Int} : grid.firstKAtOrAfter t ≤ k ↔ t ≤ grid.targetNs k := by
  unfold firstKAtOrAfter targetNs
  rw [firstIndex_le_iff grid.periodNumNs_pos grid.periodDen_pos]
  omega

theorem lt_firstKAtOrAfter_iff {t k : Int} : k < grid.firstKAtOrAfter t ↔ grid.targetNs k < t := by
  rw [← not_le, firstKAtOrAfter_le_iff, not_le]

/-! ## Enumeration -/

/-- The loop of `iter_unique_targets` from index `k` on. -/
def targetsFrom (stopK k : Int) : List SamplingTarget :=
  if k < stopK then
    ⟨k, grid.targetNs k⟩ :: targetsFrom stopK (grid.firstKAtOrAfter (grid.targetNs k + 1))
  else
    []
termination_by (stopK - k).toNat
decreasing_by
  have hnext := grid.lt_firstKAtOrAfter_iff.mpr (Int.lt_add_one_iff.mpr (le_refl (grid.targetNs k)))
  omega

/-- `iter_unique_targets` on an interval `[start_ns, end_ns)`. -/
def iterUniqueTargets (startNs endNs : Int) : List SamplingTarget :=
  grid.targetsFrom (grid.firstKAtOrAfter endNs) (grid.firstKAtOrAfter startNs)

/-- A rate of at most one target per nanosecond. -/
def Resolved : Prop :=
  grid.rate.numerator ≤ nanosecondsPerSecond * grid.rate.denominator

variable {grid}

theorem Resolved.period_le (h : grid.Resolved) : grid.periodDen ≤ grid.periodNumNs := by
  unfold Resolved at h
  rw [← grid.periodNumNs_mul, ← grid.periodDen_mul] at h
  exact Int.le_of_mul_le_mul_right h grid.divisor_pos

/-- On a resolved grid no two indices share a timestamp, so the jump to the
next timestamp is the jump to the next index. -/
theorem Resolved.next_eq (h : grid.Resolved) (k : Int) :
    grid.firstKAtOrAfter (grid.targetNs k + 1) = k + 1 := by
  have hself : k < grid.firstKAtOrAfter (grid.targetNs k + 1) :=
    grid.lt_firstKAtOrAfter_iff.mpr (Int.lt_add_one_iff.mpr le_rfl)
  have hnext : grid.firstKAtOrAfter (grid.targetNs k + 1) ≤ k + 1 := by
    rw [firstKAtOrAfter_le_iff]
    have := roundHalfEven_lt_succ grid.periodDen_pos h.period_le k
    unfold targetNs
    omega
  omega

theorem Resolved.length_targetsFrom (h : grid.Resolved) (stopK : Int) :
    ∀ (n : Nat) (k : Int), (stopK - k).toNat = n → (grid.targetsFrom stopK k).length = n := by
  intro n
  induction n with
  | zero =>
    intro k hk
    have hstop : ¬ k < stopK := by omega
    rw [targetsFrom, if_neg hstop]
    rfl
  | succ n ih =>
    intro k hk
    have hlt : k < stopK := by omega
    rw [targetsFrom, if_pos hlt, List.length_cons, h.next_eq, ih (k + 1) (by omega)]

theorem Resolved.length_iterUniqueTargets (h : grid.Resolved) (startNs endNs : Int) :
    (grid.iterUniqueTargets startNs endNs).length =
      (grid.firstKAtOrAfter endNs - grid.firstKAtOrAfter startNs).toNat :=
  h.length_targetsFrom _ _ _ rfl

end SamplingGrid
end Robata.Sampling
