import Mathlib.Order.GaloisConnection.Basic
import Robata.Sampling.Grid

/-!
# Enumeration of unique targets

`iter_unique_targets` with the checks that can raise.  The first index at or after an instant and
the target of an index are a Galois connection, from which the enumeration is exact.
-/

namespace Robata.Sampling

open Contracts Lib List

inductive GridError
  | value (message : String)
  | overflow (message : String)

def requireInt64 (name : String) (value : Int) : Except GridError Unit :=
  if value < int64Min ∨ int64Max < value then
    .error (.value (name ++ " must fit in a signed 64-bit integer"))
  else .ok ()

/-- `SamplingTarget.__post_init__`. -/
def SamplingTarget.make (k targetNs : Int) : Except GridError SamplingTarget := do
  requireInt64 "target_ns" targetNs
  return ⟨k, targetNs⟩

namespace SamplingGrid

variable (grid : SamplingGrid)

/-- `target_ns` with its overflow check. -/
def checkedTargetNs (k : Int) : Except GridError Int :=
  let target := grid.targetNs k
  if target < int64Min ∨ int64Max < target then
    .error (.overflow "sampling target does not fit in signed int64 nanoseconds")
  else .ok target

theorem lt_next (k : Int) : k < grid.firstKAtOrAfter (grid.targetNs k + 1) :=
  grid.lt_firstKAtOrAfter_iff.mpr (Int.lt_add_one_iff.mpr le_rfl)

theorem checkedTargetNs_eq_ok {grid : SamplingGrid} {k targetNs : Int}
    (h : grid.checkedTargetNs k = .ok targetNs) : targetNs = grid.targetNs k := by
  unfold checkedTargetNs at h
  dsimp only at h
  split at h
  · cases h
  · exact (Except.ok.inj h).symm

/-- The loop of `iter_unique_targets` from an index on, with what it raises. -/
def drainFrom (stopK k : Int) : Except GridError (List SamplingTarget) :=
  if k < stopK then
    match h : grid.checkedTargetNs k with
    | .error e => .error e
    | .ok targetNs => do
      let target ← SamplingTarget.make k targetNs
      return target :: (← drainFrom stopK (grid.firstKAtOrAfter (targetNs + 1)))
  else .ok []
termination_by (stopK - k).toNat
decreasing_by
  have hnext := grid.lt_next k
  rw [← checkedTargetNs_eq_ok h] at hnext
  omega

/-- All that `iter_unique_targets` yields. -/
def drainUniqueTargets (startNs endNs : Int) : Except GridError (List SamplingTarget) := do
  requireInt64 "start_ns" startNs
  requireInt64 "end_ns" endNs
  if endNs ≤ startNs then .error (.value "start_ns must be less than end_ns")
  else grid.drainFrom (grid.firstKAtOrAfter endNs) (grid.firstKAtOrAfter startNs)

/-- One target for every rounded instant of `[start_ns, end_ns)`, with the least index. -/
structure ExactTargets (startNs endNs : Int) (targets : List SamplingTarget) : Prop where
  increasing : targets.Pairwise fun a b => a.k < b.k ∧ a.targetNs < b.targetNs
  mem_iff : ∀ target, target ∈ targets ↔ startNs ≤ target.targetNs ∧ target.targetNs < endNs ∧
    IsLeast { k | grid.targetNs k = target.targetNs } target.k

theorem gc : GaloisConnection grid.firstKAtOrAfter grid.targetNs :=
  fun _ _ => grid.firstKAtOrAfter_le_iff

theorem isLeast_target (k : Int) : IsLeast { j | grid.targetNs j = grid.targetNs k }
    (grid.firstKAtOrAfter (grid.targetNs k)) :=
  ⟨grid.gc.u_l_u_eq_u k, fun _ hj => grid.gc.l_le hj.ge⟩

variable {grid}

theorem ExactTargets.existsUnique {startNs endNs : Int} {targets : List SamplingTarget}
    (h : grid.ExactTargets startNs endNs targets) {k : Int} (hstart : startNs ≤ grid.targetNs k)
    (hend : grid.targetNs k < endNs) :
    ∃! target, target ∈ targets ∧ target.targetNs = grid.targetNs k := by
  refine ⟨⟨_, grid.targetNs k⟩, ⟨(h.mem_iff _).mpr ⟨hstart, hend, grid.isLeast_target k⟩, rfl⟩, ?_⟩
  rintro ⟨j, _⟩ ⟨hmem, rfl⟩
  cases ((h.mem_iff _).mp hmem).2.2.unique (grid.isLeast_target k)
  rfl

theorem targetsFrom_exact {startNs endNs k : Int} (hk : k = grid.firstKAtOrAfter startNs) :
    grid.ExactTargets startNs endNs (grid.targetsFrom (grid.firstKAtOrAfter endNs) k) := by
  fun_induction targetsFrom grid (grid.firstKAtOrAfter endNs) k generalizing startNs with
  | case1 k hlt ih =>
    have hrest := ih rfl
    have hstart : startNs ≤ grid.targetNs k := grid.firstKAtOrAfter_le_iff.mp hk.ge
    have hleast : IsLeast { j | grid.targetNs j = grid.targetNs k } k := by
      have h := grid.isLeast_target k
      rw [hk, grid.gc.l_u_l_eq_l] at h
      exact hk ▸ h
    refine ⟨pairwise_cons.mpr ⟨fun target htarget => ?_, hrest.increasing⟩, fun target => ?_⟩
    · obtain ⟨hlater, -, htarget, -⟩ := (hrest.mem_iff target).mp htarget
      have htimes : grid.targetNs k < target.targetNs := hlater
      exact ⟨grid.gc.monotone_u.reflect_lt (htimes.trans_eq htarget.symm), htimes⟩
    · rw [mem_cons, hrest.mem_iff]
      constructor
      · rintro (rfl | ⟨hlater, hend, hmin⟩)
        · exact ⟨hstart, grid.lt_firstKAtOrAfter_iff.mp hlt, hleast⟩
        · exact ⟨by omega, hend, hmin⟩
      · rintro ⟨hlater, hend, hmin⟩
        have hfirst : k ≤ target.k := hk ▸ grid.gc.l_le (hlater.trans_eq hmin.1.symm)
        have htimes := grid.gc.monotone_u hfirst
        rw [hmin.1] at htimes
        rcases htimes.eq_or_lt with heq | hlt
        · obtain ⟨j, _⟩ := target
          subst heq
          obtain rfl : j = k := hmin.unique hleast
          exact .inl rfl
        · exact .inr ⟨hlt, hend, hmin⟩
  | case2 k hstop =>
    refine ⟨.nil, fun target => iff_of_false not_mem_nil ?_⟩
    rintro ⟨hlater, hend, hmin⟩
    have hfirst : k ≤ target.k := hk ▸ grid.gc.l_le (hlater.trans_eq hmin.1.symm)
    have hpast := grid.firstKAtOrAfter_le_iff.mp ((not_lt.mp hstop).trans hfirst)
    rw [hmin.1] at hpast
    omega

theorem requireInt64_of_bounds {name : String} {value : Int} (hlower : int64Min ≤ value)
    (hupper : value ≤ int64Max) : requireInt64 name value = .ok () :=
  if_neg (not_or.mpr ⟨not_lt.mpr hlower, not_lt.mpr hupper⟩)

/-- Between 64-bit ends no target overflows. -/
theorem drainFrom_eq {stopK k : Int} (hlower : int64Min ≤ grid.targetNs k)
    (hupper : ∀ j < stopK, grid.targetNs j ≤ int64Max) :
    grid.drainFrom stopK k = .ok (grid.targetsFrom stopK k) := by
  fun_induction targetsFrom grid stopK k with
  | case1 k hlt ih =>
    have hchecked : grid.checkedTargetNs k = .ok (grid.targetNs k) :=
      if_neg (not_or.mpr ⟨not_lt.mpr hlower, not_lt.mpr (hupper k hlt)⟩)
    have hrest := ih (hlower.trans (grid.gc.monotone_u (grid.lt_next k).le))
    rw [drainFrom, if_pos hlt]
    split
    · rename_i herror
      cases hchecked.symm.trans herror
    · rename_i targetNs hok
      cases checkedTargetNs_eq_ok hok
      unfold SamplingTarget.make
      rw [requireInt64_of_bounds hlower (hupper k hlt), hrest]
      rfl
  | case2 k hstop => rw [drainFrom, if_neg hstop]

/-- `iter_unique_targets` ends without raising, with one target for every instant of the interval
that an index rounds to. -/
theorem iter_unique_targets_exact (grid : SamplingGrid) (interval : NanosecondInterval) :
    ∃ targets, grid.drainUniqueTargets interval.startNs interval.endNs = .ok targets ∧
      grid.ExactTargets interval.startNs interval.endNs targets ∧
      ∀ k, interval.startNs ≤ grid.targetNs k → grid.targetNs k < interval.endNs →
        ∃! target, target ∈ targets ∧ target.targetNs = grid.targetNs k := by
  obtain ⟨startNs, endNs, hlower, hupper, hnonempty⟩ := interval
  dsimp only
  refine ⟨_, ?_, targetsFrom_exact rfl, fun k => (targetsFrom_exact rfl).existsUnique⟩
  unfold drainUniqueTargets
  rw [requireInt64_of_bounds hlower (by omega), requireInt64_of_bounds (by omega) hupper]
  refine (if_neg (not_le.mpr hnonempty)).trans (drainFrom_eq ?_ fun j hj => ?_)
  · exact hlower.trans (grid.firstKAtOrAfter_le_iff.mp le_rfl)
  · exact ((grid.lt_firstKAtOrAfter_iff.mp hj).trans_le hupper).le

end SamplingGrid
end Robata.Sampling
