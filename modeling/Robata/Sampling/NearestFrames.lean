import Mathlib.Data.List.Lex
import Robata.Lib.Grouping
import Robata.Lib.MissingRows
import Robata.Lib.Sorting
import Robata.Sampling.UniqueTargets

/-!
# Nearest frames

`select_nearest_frames` gives every target the nearest frame, and then every frame one target.
Both choices are minima under keys that tell the choices apart, so that the result is a function of
the targets and the frames, whatever their order.
-/

namespace Robata.Sampling

open Contracts Lib List

/-! ## The model -/

structure FrameCandidate where
  (alignedTimestampNs sourceTimestampNs : Int)
  sourceLocatorBytes : List (Fin 256)
  decodable : Bool

inductive SelectionStatus
  | decodeFailed | selected | noFrameWithinTolerance | deduplicatedFrame
deriving DecidableEq

structure TargetSelection where
  target : SamplingTarget
  status : SelectionStatus
  frame : Option FrameCandidate
  deltaToTargetNs : Option Int

def delta (target : SamplingTarget) (frame : FrameCandidate) : Int :=
  frame.alignedTimestampNs - target.targetNs

/-- `TargetSelection.__post_init__`. -/
def TargetSelection.make (target : SamplingTarget) (status : SelectionStatus)
    (frame : Option FrameCandidate) (deltaToTargetNs : Option Int) :
    Except GridError TargetSelection :=
  if status = .noFrameWithinTolerance then
    if frame.isSome ∨ deltaToTargetNs.isSome then
      .error (.value "a missed target cannot contain an actual frame or delta")
    else .ok ⟨target, status, frame, deltaToTargetNs⟩
  else
    match frame, deltaToTargetNs with
    | some actual, some offset => do
      requireInt64 "delta_to_target_ns" offset
      if offset ≠ delta target actual then
        .error (.value "delta_to_target_ns must equal actual aligned time minus target")
      else .ok ⟨target, status, frame, deltaToTargetNs⟩
    | _, _ => .error (.value "selected and deduplicated targets require a frame and delta")

/-- The loop that fills `by_k`, where `setdefault` leaves the previous timestamp. -/
def checkIndexes : List SamplingTarget → Dict Int Int → Except GridError Unit
  | [], _ => .ok ()
  | target :: rest, byK =>
    let previous := (byK.get? target.k).getD target.targetNs
    if previous ≠ target.targetNs then
      .error (.value "one grid index cannot identify different target timestamps")
    else checkIndexes rest (byK.set target.k previous)

/-- `by_timestamp`. -/
def targetsByTimestamp (targets : List SamplingTarget) :
    KeyedTable SamplingTarget Int SamplingTarget.targetNs :=
  KeyedTable.empty.insertMissing id
    (sortedBy (fun target => toLex (target.k, target.targetNs)) targets)

def normalizedTargets (targets : List SamplingTarget) : Except GridError (List SamplingTarget) := do
  checkIndexes targets KeyedTable.empty
  return sortedBy SamplingTarget.k (targetsByTimestamp targets).rows

/-- Nearest-frame ties. -/
def nearestKey (target : SamplingTarget) (frame : FrameCandidate) :
    Nat ×ₗ Int ×ₗ Int ×ₗ List (Fin 256) :=
  toLex ((delta target frame).natAbs, toLex (frame.alignedTimestampNs,
    toLex (frame.sourceTimestampNs, frame.sourceLocatorBytes)))

def intervalFrames (startNs endNs : Int) (frames : List FrameCandidate) : List FrameCandidate :=
  frames.filter fun frame =>
    startNs ≤ frame.alignedTimestampNs ∧ frame.alignedTimestampNs < endNs

/-- `abs(aligned - target) <= selection_tolerance_ns`. -/
def isNear (tolerance : Int) (target : SamplingTarget) (frame : FrameCandidate) : Bool :=
  ((delta target frame).natAbs : Int) ≤ tolerance

/-- One turn of the loop that fills `provisional`. -/
def provisionalSelection (frames : List FrameCandidate) (tolerance : Int)
    (target : SamplingTarget) : Except GridError TargetSelection :=
  let withinTolerance := frames.filter (isNear tolerance target)
  match leastItem (nearestKey target) (withinTolerance.filter (·.decodable)) with
  | some frame => TargetSelection.make target .selected (some frame) (some (delta target frame))
  | none =>
    match leastItem (nearestKey target) withinTolerance with
    | some frame =>
      TargetSelection.make target .decodeFailed (some frame) (some (delta target frame))
    | none => TargetSelection.make target .noFrameWithinTolerance none none

/-- An index of `assignments_by_locator`, with its locator and its selection. -/
structure Assignment where
  locator : List (Fin 256)
  selection : TargetSelection
  index : Nat

def assignments (provisional : List TargetSelection) : List Assignment :=
  provisional.zipIdx.filterMap fun (selection, index) =>
    if selection.status = .selected then
      selection.frame.map fun frame => ⟨frame.sourceLocatorBytes, selection, index⟩
    else none

/-- Ties between the targets of one frame. -/
def winnerKey (selection : TargetSelection) : Nat ×ₗ Int ×ₗ Int :=
  toLex ((selection.deltaToTargetNs.getD 0).natAbs,
    toLex (selection.target.targetNs, selection.target.k))

def deduplicate (winner : Nat) (results : List TargetSelection) (assignment : Assignment) :
    Except GridError (List TargetSelection) :=
  if assignment.index = winner then .ok results
  else do
    let selection := assignment.selection
    let result ← TargetSelection.make selection.target .deduplicatedFrame selection.frame
      selection.deltaToTargetNs
    return results.set assignment.index result

def deduplicateLocator (results : List TargetSelection) (indexes : List Assignment) :
    Except GridError (List TargetSelection) :=
  if indexes.length < 2 then .ok results
  else
    match leastItem (fun assignment => winnerKey assignment.selection) indexes with
    | some winner => indexes.foldlM (deduplicate winner.index) results
    | none => .ok results

def deduplicateFrames (provisional : List TargetSelection) :
    Except GridError (List TargetSelection) :=
  (grouped Assignment.locator (assignments provisional)).rows.foldlM
    (fun results entry => deduplicateLocator results entry.2) provisional

def selectNearestFrames (targets : List SamplingTarget) (frames : List FrameCandidate)
    (intervalStartNs intervalEndNs selectionToleranceNs : Int) :
    Except GridError (List TargetSelection) := do
  requireInt64 "interval_start_ns" intervalStartNs
  requireInt64 "interval_end_ns" intervalEndNs
  if intervalEndNs ≤ intervalStartNs then
    .error (.value "interval_start_ns must be less than interval_end_ns")
  else do
    requireInt64 "selection_tolerance_ns" selectionToleranceNs
    if selectionToleranceNs < 0 then
      .error (.value "selection_tolerance_ns must be nonnegative")
    else do
      let normalized ← normalizedTargets targets
      let provisional ← normalized.mapM
        (provisionalSelection (intervalFrames intervalStartNs intervalEndNs frames)
          selectionToleranceNs)
      deduplicateFrames provisional

/-! ## What is selected -/

/-- One index never names two timestamps. -/
def OneTimestamp (targets : List SamplingTarget) : Prop :=
  ∀ a ∈ targets, ∀ b ∈ targets, a.k = b.k → a.targetNs = b.targetNs

structure ValidSelection (startNs endNs tolerance : Int) : Prop where
  start_fits : int64Min ≤ startNs
  nonempty : startNs < endNs
  end_fits : endNs ≤ int64Max
  tolerance_nonneg : 0 ≤ tolerance
  tolerance_fits : tolerance ≤ int64Max

/-- The target with the lowest index for its timestamp. -/
def IsLowest (targets : List SamplingTarget) (target : SamplingTarget) : Prop :=
  target ∈ targets ∧ ∀ other ∈ targets, other.targetNs = target.targetNs → target.k ≤ other.k

/-- The locator of the frame that a result is assigned to. -/
def TargetSelection.assignedLocator (selection : TargetSelection) : Option (List (Fin 256)) :=
  match selection.status with
  | .selected | .deduplicatedFrame => selection.frame.map (·.sourceLocatorBytes)
  | .decodeFailed | .noFrameWithinTolerance => none

/-- What the result for a target says about the frames of the interval. -/
structure NearestFrame (frames : List FrameCandidate) (tolerance : Int)
    (result : TargetSelection) : Prop where
  missed : result.status = .noFrameWithinTolerance ↔
    ∀ frame ∈ frames, ¬ isNear tolerance result.target frame
  failed : result.status = .decodeFailed ↔
    (∃ frame ∈ frames, isNear tolerance result.target frame) ∧
      ∀ frame ∈ frames, isNear tolerance result.target frame → frame.decodable = false
  nearest : result.status = .selected ∨ result.status = .deduplicatedFrame →
    ∃ frame ∈ frames, result.frame = some frame ∧
      result.deltaToTargetNs = some (delta result.target frame) ∧
      isNear tolerance result.target frame ∧ frame.decodable ∧
      ∀ other ∈ frames, other.decodable →
        nearestKey result.target frame ≤ nearestKey result.target other

structure NearestFrames (targets : List SamplingTarget) (frames : List FrameCandidate)
    (tolerance : Int) (results : List TargetSelection) : Prop where
  increasing : results.Pairwise fun a b => a.target.k < b.target.k
  targets_iff : ∀ target, (∃ result ∈ results, result.target = target) ↔ IsLowest targets target
  timestamps : (results.map fun result => result.target.targetNs).Nodup
  each : ∀ result ∈ results, NearestFrame frames tolerance result
  selected_iff : ∀ result ∈ results, ∀ locator, result.assignedLocator = some locator →
    (result.status = .selected ↔ ∀ other ∈ results, other.assignedLocator = some locator →
      winnerKey result ≤ winnerKey other)
  exclusive : ∀ a ∈ results, ∀ b ∈ results, a.status = .selected → b.status = .selected →
    a.assignedLocator = b.assignedLocator → a = b

/-! ## Targets -/

section Targets

variable {targets rest normalized : List SamplingTarget} {target : SamplingTarget}
  {byK : Dict Int Int}

theorem checkIndexes_completes (h : OneTimestamp targets) (hrest : ∀ t ∈ rest, t ∈ targets)
    (hbyK : ∀ k v, byK.get? k = some v → ∃ t ∈ targets, t.k = k ∧ t.targetNs = v) :
    checkIndexes rest byK = .ok () := by
  induction rest generalizing byK with
  | nil => rfl
  | cons target rest ih =>
    obtain ⟨htarget, hrest⟩ := forall_mem_cons.mp hrest
    have hprevious : (byK.get? target.k).getD target.targetNs = target.targetNs := by
      cases hget : byK.get? target.k with
      | none => rfl
      | some v =>
        obtain ⟨t, ht, hk, rfl⟩ := hbyK _ _ hget
        exact h t ht target htarget hk
    unfold checkIndexes
    dsimp only
    rw [hprevious, if_neg (not_not.mpr rfl)]
    refine ih hrest fun k v hget => ?_
    rw [Dict.get?_set] at hget
    split at hget
    · rename_i hk
      exact ⟨target, htarget, hk.symm, Option.some.inj hget⟩
    · exact hbyK k v hget

theorem IsLowest.unique {other : SamplingTarget} (h : IsLowest targets target)
    (h' : IsLowest targets other) (htimestamp : target.targetNs = other.targetNs) :
    target = other := by
  have hk : target.k = other.k :=
    le_antisymm (h.2 other h'.1 htimestamp.symm) (h'.2 target h.1 htimestamp)
  cases target
  cases other
  cases hk
  cases htimestamp
  rfl

/-- The first target with a timestamp in the order of the indices has the lowest one. -/
theorem isLowest_of_find? {timestamp : Int}
    (h : (sortedBy (fun target => toLex (target.k, target.targetNs)) targets).find?
      (fun target => decide (target.targetNs = timestamp)) = some target) :
    IsLowest targets target ∧ target.targetNs = timestamp := by
  obtain ⟨htimestamp, before, after, hsorted, hbefore⟩ := find?_eq_some_iff_append.mp h
  have hpairs := sortedBy_pairwise (fun target => toLex (target.k, target.targetNs)) targets
  have hmem : ∀ other, other ∈ before ++ target :: after ↔ other ∈ targets := fun other => by
    rw [← hsorted, mem_sortedBy]
  rw [hsorted, pairwise_append, pairwise_cons] at hpairs
  refine ⟨⟨(hmem target).mp (by simp), fun other hother heq => ?_⟩, of_decide_eq_true htimestamp⟩
  rcases mem_append.mp ((hmem other).mpr hother) with hother | hother
  · have hnot := hbefore other hother
    rw [heq, htimestamp] at hnot
    cases hnot
  · rcases mem_cons.mp hother with rfl | hother
    · exact le_rfl
    · exact Prod.Lex.monotone_fst _ _ (hpairs.2.1.1 other hother)

theorem mem_targetsByTimestamp :
    target ∈ (targetsByTimestamp targets).rows ↔ IsLowest targets target := by
  rw [KeyedTable.mem_rows_iff]
  unfold targetsByTimestamp
  rw [KeyedTable.find?_insertMissing, KeyedTable.find?_empty, Option.none_or, Option.map_id]
  show (sortedBy _ targets).find? (fun other => decide (other.targetNs = target.targetNs)) = _ ↔ _
  refine ⟨fun h => (isLowest_of_find? h).1, fun h => ?_⟩
  cases hfind : (sortedBy (fun target => toLex (target.k, target.targetNs)) targets).find?
      fun other => decide (other.targetNs = target.targetNs) with
  | none =>
    have hnot := find?_eq_none.mp hfind target (mem_sortedBy.mpr h.1)
    exact absurd (decide_eq_true rfl) hnot
  | some other =>
    obtain ⟨hother, htimestamp⟩ := isLowest_of_find? hfind
    exact congrArg some (hother.unique h htimestamp)

/-- The targets that are kept, in the order of their indices. -/
structure Normalized (targets normalized : List SamplingTarget) : Prop where
  increasing : normalized.Pairwise fun a b => a.k < b.k
  mem_iff : ∀ target, target ∈ normalized ↔ IsLowest targets target

theorem normalizedTargets_spec (h : OneTimestamp targets) :
    ∃ normalized, normalizedTargets targets = .ok normalized ∧ Normalized targets normalized := by
  have hcheck : checkIndexes targets KeyedTable.empty = .ok () :=
    checkIndexes_completes h (fun _ ht => ht) (fun _ _ hget => by cases hget)
  have hmem : ∀ target, target ∈ sortedBy SamplingTarget.k (targetsByTimestamp targets).rows ↔
      IsLowest targets target := fun target => mem_sortedBy.trans mem_targetsByTimestamp
  refine ⟨_, by unfold normalizedTargets; rw [hcheck]; rfl, sortedBy_strict ?_, hmem⟩
  -- an index names one timestamp, and a timestamp one row
  refine (targetsByTimestamp targets).nodup.of_map.map_on fun a ha b hb hk => ?_
  exact (targetsByTimestamp targets).eq_of_key_eq ha hb
    (h a (mem_targetsByTimestamp.mp ha).1 b (mem_targetsByTimestamp.mp hb).1 hk)

theorem Normalized.unique {other : List SamplingTarget} (h : Normalized targets normalized)
    (h' : Normalized targets other) : normalized = other :=
  have : Std.Irrefl fun a b : SamplingTarget => a.k < b.k := ⟨fun _ => lt_irrefl _⟩
  h.increasing.eq_of_mem_iff h'.increasing fun target =>
    (h.mem_iff target).trans (h'.mem_iff target).symm

theorem IsLowest.perm {targets' : List SamplingTarget} (hperm : targets'.Perm targets) :
    IsLowest targets' target ↔ IsLowest targets target := by
  unfold IsLowest
  simp only [hperm.mem_iff]

theorem normalizedTargets_perm {targets' : List SamplingTarget} (h : OneTimestamp targets)
    (hperm : targets'.Perm targets) : normalizedTargets targets' = normalizedTargets targets := by
  obtain ⟨normalized, heq, hnormalized⟩ := normalizedTargets_spec h
  have h' : OneTimestamp targets' := fun a ha b hb =>
    h a (hperm.mem_iff.mp ha) b (hperm.mem_iff.mp hb)
  obtain ⟨normalized', heq', hincreasing, hmem⟩ := normalizedTargets_spec h'
  have hsame : Normalized targets normalized' :=
    ⟨hincreasing, fun target => (hmem target).trans (IsLowest.perm hperm)⟩
  rw [heq, heq', hsame.unique hnormalized]

end Targets

/-! ## The nearest frame of a target -/

section Nearest

variable {frames : List FrameCandidate} {tolerance : Int} {target : SamplingTarget}
  {status : SelectionStatus} {frame other : FrameCandidate}

theorem isNear_iff :
    isNear tolerance target frame ↔ ((delta target frame).natAbs : Int) ≤ tolerance :=
  decide_eq_true_iff

/-- A frame is told apart by its key and by whether it can be decoded. -/
theorem eq_of_nearestKey (hkey : nearestKey target frame = nearestKey target other)
    (hdecodable : frame.decodable = other.decodable) : frame = other := by
  have hparts := congrArg ofLex hkey
  cases frame
  cases other
  simp_all [nearestKey]

theorem nearestKey_lt (h : isNear tolerance target frame)
    (hother : ¬ isNear tolerance target other) :
    nearestKey target frame < nearestKey target other := by
  rw [isNear_iff] at h hother
  exact Prod.Lex.toLex_lt_toLex.mpr (.inl (by omega))

theorem make_framed (hstatus : status ≠ .noFrameWithinTolerance) (htolerance : tolerance ≤ int64Max)
    (h : isNear tolerance target frame) :
    TargetSelection.make target status (some frame) (some (delta target frame)) =
      .ok ⟨target, status, some frame, some (delta target frame)⟩ := by
  have hbounds : requireInt64 "delta_to_target_ns" (delta target frame) = .ok () := by
    rw [isNear_iff] at h
    have hmin : int64Min ≤ -int64Max := by decide
    exact SamplingGrid.requireInt64_of_bounds (by omega) (by omega)
  unfold TargetSelection.make
  rw [if_neg hstatus]
  dsimp only
  rw [hbounds, ok_bind, if_neg (not_not.mpr rfl)]

theorem provisionalSelection_spec (frames : List FrameCandidate) (target : SamplingTarget)
    (htolerance : tolerance ≤ int64Max) :
    ∃ selection, provisionalSelection frames tolerance target = .ok selection ∧
      selection.target = target ∧ selection.status ≠ .deduplicatedFrame ∧
      NearestFrame frames tolerance selection := by
  unfold provisionalSelection
  dsimp only
  have hbest : LeastBy (nearestKey target)
    ((frames.filter (isNear tolerance target)).filter (·.decodable)) _ := leastBy_leastItem
  split
  · rename_i frame hframe
    rw [hframe] at hbest
    obtain ⟨hmem, hleast⟩ := hbest
    obtain ⟨hwithin, hdecodable⟩ := mem_filter.mp hmem
    obtain ⟨hmem, hnear⟩ := mem_filter.mp hwithin
    refine ⟨_, make_framed nofun htolerance hnear, rfl, nofun, ?_, ?_, fun _ => ?_⟩
    · exact iff_of_false nofun fun h => h frame hmem hnear
    · refine iff_of_false nofun fun h => ?_
      cases hdecodable.symm.trans (h.2 frame hmem hnear)
    · refine ⟨frame, hmem, rfl, rfl, hnear, hdecodable, fun other hother hdecodable => ?_⟩
      by_cases hfar : isNear tolerance target other
      · exact hleast other (mem_filter.mpr ⟨mem_filter.mpr ⟨hother, hfar⟩, hdecodable⟩)
      · exact (nearestKey_lt hnear hfar).le
  · rename_i hnone
    rw [hnone] at hbest
    have hundecodable : ∀ frame ∈ frames, isNear tolerance target frame → frame.decodable = false :=
      fun frame hmem hnear => by
        have hnot := filter_eq_nil_iff.mp hbest frame (mem_filter.mpr ⟨hmem, hnear⟩)
        exact Bool.not_eq_true _ ▸ hnot
    have hfailed : LeastBy (nearestKey target) (frames.filter (isNear tolerance target)) _ :=
      leastBy_leastItem
    split
    · rename_i frame hframe
      rw [hframe] at hfailed
      obtain ⟨hmem, hnear⟩ := mem_filter.mp hfailed.1
      refine ⟨_, make_framed nofun htolerance hnear, rfl, nofun, ?_, ?_, ?_⟩
      · exact iff_of_false nofun fun h => h frame hmem hnear
      · exact iff_of_true rfl ⟨⟨frame, hmem, hnear⟩, hundecodable⟩
      · exact fun h => absurd h (by simp)
    · rename_i hmissed
      rw [hmissed] at hfailed
      have hfar := filter_eq_nil_iff.mp hfailed
      refine ⟨_, rfl, rfl, nofun, iff_of_true rfl hfar, ?_, fun h => absurd h (by simp)⟩
      exact iff_of_false nofun fun ⟨⟨frame, hmem, hnear⟩, _⟩ => hfar frame hmem hnear

/-- The order of the frames does not matter, as the keys tell them apart. -/
theorem provisionalSelection_perm {frames' : List FrameCandidate} (hperm : frames'.Perm frames) :
    provisionalSelection frames' tolerance target =
      provisionalSelection frames tolerance target := by
  have hwithin := hperm.filter (isNear tolerance target)
  -- frames that tie are equal, as all of them can be decoded here and none of them below
  have hbest := leastItem_eq_of_perm (f := nearestKey target) (hwithin.filter (·.decodable))
    fun a ha b hb hkey => eq_of_nearestKey hkey
      ((mem_filter.mp ha).2.trans (mem_filter.mp hb).2.symm)
  unfold provisionalSelection
  dsimp only
  rw [hbest]
  split
  · rfl
  · rename_i hnone
    have hundecodable : LeastBy (nearestKey target) _ _ :=
      hbest.trans hnone ▸ leastBy_leastItem
    rw [leastItem_eq_of_perm hwithin fun a ha b hb hkey => eq_of_nearestKey hkey (by
      have hnot := filter_eq_nil_iff.mp hundecodable
      rw [Bool.eq_false_iff.mpr (hnot a ha), Bool.eq_false_iff.mpr (hnot b hb)])]

end Nearest

end Robata.Sampling
