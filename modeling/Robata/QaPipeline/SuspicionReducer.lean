import Mathlib.Data.Prod.Lex
import Mathlib.Data.String.Basic
import Robata.Contracts.Common
import Robata.Lib.Intervals
import Robata.Lib.Sorting
import Robata.Lib.Transaction

/-!
# The suspicious interval reducer

`SuspiciousIntervalReducer.reduce` merges the intervals that are at most a gap apart, and pads what
it has merged.  Padding is not looked at where it decides what to merge, so that two merged
intervals overlap when their distance is above the gap and below twice the padding.

A confidence is a float of the unit interval: a number, and the sign that tells `-0.0` from `0.0`.
The two are equal as keys of a sort, but the identity of a source is made of their texts.
-/

namespace Robata.QaPipeline.SuspicionReducer

open Contracts Lib List

structure Confidence where
  value : Rat
  negative : Bool
  bounded : 0 ≤ value ∧ value ≤ 1
  signed : negative = true → value = 0
  deriving DecidableEq

@[ext]
structure SuspiciousInterval where
  (startNs endNs : Int)
  cameraId : CameraId
  issueType : String
  confidence : Confidence
  nonempty : startNs < endNs
  named : issueType ≠ ""

instance : DecidableEq SuspiciousInterval := fun _ _ =>
  decidable_of_iff _ SuspiciousInterval.ext_iff.symm

structure SourceIntervalRef where
  intervalId : OpaqueUuid
  cameraId : CameraId
  issueType : String
  (originalStartNs originalEndNs : Int)
  confidence : Confidence

structure ReductionPolicyVersion where
  version : String
  (paddingNs maxGapNs : Int)
  clipToRecordingBounds : Bool

structure ReducedInterval where
  (startNs endNs : Int)
  sourceIntervals : List SourceIntervalRef
  reductionPolicyVersion : ReductionPolicyVersion
  mergedFromCount : Nat
  cameras : List CameraId

abbrev ObservationKey := Int ×ₗ Int ×ₗ String ×ₗ String ×ₗ Rat

def SuspiciousInterval.key (item : SuspiciousInterval) : ObservationKey :=
  toLex (item.startNs, toLex (item.endNs, toLex (item.cameraId.value,
    toLex (item.issueType, item.confidence.value))))

/-- What an interval says. -/
abbrev Observation := Int × Int × CameraId × String × Confidence

def SuspiciousInterval.observation (item : SuspiciousInterval) : Observation :=
  (item.startNs, item.endNs, item.cameraId, item.issueType, item.confidence)

def SourceIntervalRef.observation (source : SourceIntervalRef) : Observation :=
  (source.originalStartNs, source.originalEndNs, source.cameraId, source.issueType,
    source.confidence)

/-- The arguments of `reduce`, and the `uuid5` of a source and its ordinal. -/
structure Reduction where
  sourceId : SuspiciousInterval → Nat → OpaqueUuid
  (paddingNs maxGapNs : Int)
  recordingDurationNs : Option Int
  policyVersion : String

namespace Reduction

variable (R : Reduction)

def paddedEnd (endNs : Int) : Int :=
  match R.recordingDurationNs with
  | none => endNs + R.paddingNs
  | some duration => min (endNs + R.paddingNs) duration

/-- The interval that `_build_reduced` makes. -/
def reduced (startNs endNs : Int) (sourceItems : List SuspiciousInterval) : ReducedInterval where
  startNs := max (startNs - R.paddingNs) 0
  endNs := R.paddedEnd endNs
  sourceIntervals := (sortedBy (·.key) sourceItems).zipIdx.map fun (item, ordinal) =>
    ⟨R.sourceId item ordinal, item.cameraId, item.issueType, item.startNs, item.endNs,
      item.confidence⟩
  reductionPolicyVersion :=
    ⟨R.policyVersion, R.paddingNs, R.maxGapNs, R.recordingDurationNs.isSome⟩
  mergedFromCount := sourceItems.length
  cameras := canonical (·.value) (sourceItems.map (·.cameraId))

def buildReduced (startNs endNs : Int) (sourceItems : List SuspiciousInterval) :
    Except String ReducedInterval :=
  let item := R.reduced startNs endNs sourceItems
  if item.endNs ≤ item.startNs then .error "padding/clipping produced an empty reduced interval"
  else if R.policyVersion = "" then .error "version"
  else .ok item

/-- `current_start` and `current_end` of a group, which has an item. -/
def groupStart (group : List SuspiciousInterval) : Int := (group.head?.map (·.startNs)).getD 0

def groupEnd (group : List SuspiciousInterval) : Int := (group.map (·.endNs)).max?.getD 0

def groups (intervals : List SuspiciousInterval) : List (List SuspiciousInterval) :=
  gapGroups (·.startNs) (·.endNs) (· + R.maxGapNs) (sortedBy (·.key) intervals)

def reduce (intervals : List SuspiciousInterval) : Except String (List ReducedInterval) :=
  if R.paddingNs < 0 ∨ R.maxGapNs < 0 then
    .error "padding_ns and max_gap_ns must be nonnegative"
  else if R.recordingDurationNs.any (· ≤ 0) then .error "recording_duration_ns must be positive"
  else do
    let merged ← (R.groups intervals).mapM fun group =>
      R.buildReduced (groupStart group) (groupEnd group) group
    return sortedBy (fun item => toLex (item.startNs, item.endNs)) merged

/-- Arguments that `reduce` accepts, with intervals inside the recording. -/
structure Accepts (intervals : List SuspiciousInterval) : Prop where
  padding : 0 ≤ R.paddingNs
  gap : 0 ≤ R.maxGapNs
  duration : ∀ d ∈ R.recordingDurationNs, 0 < d
  versioned : R.policyVersion ≠ ""
  inside : ∀ item ∈ intervals, 0 ≤ item.startNs ∧ ∀ d ∈ R.recordingDurationNs, item.endNs ≤ d

/-- Nothing is lost, and nothing leaves the recording. -/
structure Lossless (intervals : List SuspiciousInterval) (result : List ReducedInterval) :
    Prop where
  sources : ((result.flatMap (·.sourceIntervals)).map (·.observation)).Perm
    (intervals.map (·.observation))
  contains : ∀ item ∈ result, ∀ source ∈ item.sourceIntervals,
    item.startNs ≤ source.originalStartNs ∧ source.originalEndNs ≤ item.endNs
  inside : ∀ item ∈ result, 0 ≤ item.startNs ∧ ∀ d ∈ R.recordingDurationNs, item.endNs ≤ d

structure ReducesSoundly (intervals : List SuspiciousInterval) (result : List ReducedInterval) :
    Prop extends R.Lossless intervals result where
  disjoint : result.Pairwise fun a b => a.endNs ≤ b.startNs
  permuted : ∀ intervals', intervals'.Perm intervals → R.reduce intervals' = .ok result

/-- No two intervals differ only in the sign of their confidence. -/
def Told (intervals : List SuspiciousInterval) : Prop :=
  ∀ a ∈ intervals, ∀ b ∈ intervals, a.key = b.key → a = b

/-- An interval that starts more than the gap behind all that start before it starts at least twice
the padding behind them. -/
def Spaced (intervals : List SuspiciousInterval) : Prop :=
  ∀ b ∈ intervals, (∀ a ∈ intervals, a.startNs < b.startNs → a.endNs + R.maxGapNs < b.startNs) →
    ∀ a ∈ intervals, a.startNs < b.startNs → a.endNs + 2 * R.paddingNs ≤ b.startNs

/-! ## Groups -/

variable {R} {intervals group : List SuspiciousInterval}

/-- The extent of a group of a sorted list. -/
structure Extent (group : List SuspiciousInterval) : Prop where
  first : ∃ a ∈ group, a.startNs = groupStart group
  last : ∃ a ∈ group, a.endNs = groupEnd group
  bounds : ∀ a ∈ group, groupStart group ≤ a.startNs ∧ a.endNs ≤ groupEnd group

theorem extent_of_sorted (hne : group ≠ [])
    (hsorted : group.Pairwise fun a b => a.startNs ≤ b.startNs) : Extent group := by
  obtain ⟨first, rest, rfl⟩ := exists_cons_of_ne_nil hne
  have hends : (first :: rest).map (·.endNs) ≠ [] := cons_ne_nil _ _
  obtain ⟨last, hlast, hmem, hle⟩ := max?_completes hends
  have hend : groupEnd (first :: rest) = last := by
    unfold groupEnd
    rw [hlast]
    rfl
  obtain ⟨a, ha, rfl⟩ := mem_map.mp hmem
  refine ⟨⟨first, mem_cons_self, rfl⟩, ⟨a, ha, hend.symm⟩, fun b hb => ⟨?_, ?_⟩⟩
  · rcases mem_cons.mp hb with rfl | hb
    · exact le_rfl
    · exact (pairwise_cons.mp hsorted).1 b hb
  · rw [hend]
    exact hle _ (mem_map_of_mem hb)

/-- The groups of the intervals, which are more than the gap apart. -/
structure Grouped (R : Reduction) (intervals : List SuspiciousInterval)
    (groups : List (List SuspiciousInterval)) : Prop where
  partition : groups.flatten.Perm intervals
  extent : ∀ g ∈ groups, Extent g
  separated : Separated (·.startNs) (·.endNs) (· + R.maxGapNs) groups

theorem groups_grouped (h : R.Accepts intervals) : Grouped R intervals (R.groups intervals) := by
  have hsorted : (sortedBy (·.key) intervals).Pairwise fun a b => a.startNs ≤ b.startNs :=
    (sortedBy_pairwise (·.key) intervals).imp fun hab =>
      (Prod.Lex.le_iff.mp hab).elim le_of_lt fun h => h.1.le
  have hflatten : (R.groups intervals).flatten = sortedBy (·.key) intervals :=
    gapGroups_flatten ..
  refine ⟨?_, fun g hg => ?_, ?_⟩
  · rw [hflatten]
    exact sortedBy_perm _ _
  · exact extent_of_sorted (gapGroups_ne_nil _ _ _ _ g hg)
      (hsorted.sublist (hflatten ▸ sublist_flatten_of_mem hg))
  · refine gapGroups_separated (fun a b hab => ?_) (fun x => ?_) (fun a _ => a.nonempty.le) hsorted
    · exact add_le_add_left hab _
    · exact le_add_of_nonneg_right h.gap

section Grouped

variable {groups : List (List SuspiciousInterval)} (h : Grouped R intervals groups)
  (haccepts : R.Accepts intervals)
include h

theorem Grouped.mem {a : SuspiciousInterval} (ha : a ∈ intervals) : ∃ g ∈ groups, a ∈ g :=
  mem_flatten.mp (h.partition.mem_iff.mpr ha)

theorem Grouped.mem_of_mem (hg : group ∈ groups) {a : SuspiciousInterval} (ha : a ∈ group) :
    a ∈ intervals :=
  h.partition.mem_iff.mp (mem_flatten_of_mem hg ha)

/-- Of two different groups one comes first, and lies before the other. -/
theorem Grouped.trichotomy {P : List SuspiciousInterval → List SuspiciousInterval → Prop}
    (hP : groups.Pairwise P) {g g' : List SuspiciousInterval} (hg : g ∈ groups) (hg' : g' ∈ groups) :
    g = g' ∨ ((∀ a ∈ g, ∀ b ∈ g', a.endNs + R.maxGapNs < b.startNs) ∧ P g g') ∨
      (∀ a ∈ g', ∀ b ∈ g, a.endNs + R.maxGapNs < b.startNs) ∧ P g' g := by
  have hboth := pairwise_iff_getElem.mp (h.separated.apart.and hP)
  obtain ⟨i, hi, rfl⟩ := getElem_of_mem hg
  obtain ⟨j, hj, rfl⟩ := getElem_of_mem hg'
  rcases lt_trichotomy i j with hlt | rfl | hlt
  · exact .inr (.inl (hboth i j hi hj hlt))
  · exact .inl rfl
  · exact .inr (.inr (hboth j i hj hi hlt))

include haccepts

/-- The padded groups are disjoint exactly when the intervals are spaced. -/
theorem Grouped.disjoint_iff : (groups.Pairwise fun g g' =>
    R.paddedEnd (groupEnd g) ≤ max (groupStart g' - R.paddingNs) 0) ↔ R.Spaced intervals := by
  have hgap := haccepts.gap
  have hpadding := haccepts.padding
  constructor
  · intro hdisjoint b hb hbehind a ha hlt
    obtain ⟨g, hg, hag⟩ := h.mem ha
    obtain ⟨g', hg', hbg⟩ := h.mem hb
    have hbounds := (h.extent g hg).bounds a hag
    have hbounds' := (h.extent g' hg').bounds b hbg
    have ha' := haccepts.inside a ha
    have hb' := haccepts.inside b hb
    have hnonempty := a.nonempty
    have hnonempty' := b.nonempty
    rcases h.trichotomy hdisjoint hg hg' with rfl | ⟨hapart, hpadded⟩ | ⟨hapart, -⟩
    · -- no link leads from what starts before `b` to what does not
      have hlinked := h.separated.linked g hg a hag b hbg
      have hbefore : ∀ c, Linked (·.startNs) (·.endNs) (· + R.maxGapNs) g a c →
          c.startNs < b.startNs := by
        intro c hc
        induction hc with
        | refl => exact hlt
        | tail _ hstep ih =>
          obtain ⟨hx, -, -, hreach⟩ := hstep
          exact hreach.trans_lt (hbehind _ (h.mem_of_mem hg hx) ih)
      exact absurd (hbefore b hlinked) (lt_irrefl _)
    · unfold paddedEnd at hpadded
      split at hpadded
      · omega
      · rename_i duration hduration
        have hend := hb'.2 duration hduration
        omega
    · have hwrong := hapart b hbg a hag
      omega
  · intro hspaced
    refine h.separated.apart.imp_of_mem fun {g g'} hg hg' hapart => ?_
    obtain ⟨a, ha, hend⟩ := (h.extent g hg).last
    obtain ⟨b, hb, hstart⟩ := (h.extent g' hg').first
    have hspace := hspaced b (h.mem_of_mem hg' hb) (fun c hc hlt => ?_) a (h.mem_of_mem hg ha) ?_
    · have hle : R.paddedEnd (groupEnd g) ≤ groupEnd g + R.paddingNs := by
        unfold paddedEnd
        split
        · exact le_rfl
        · exact min_le_left _ _
      omega
    · obtain ⟨g'', hg'', hcg⟩ := h.mem hc
      rcases h.trichotomy h.separated.apart hg'' hg' with rfl | ⟨hbefore, -⟩ | ⟨hbehind, -⟩
      · have hfirst := ((h.extent g'' hg'').bounds c hcg).1
        omega
      · exact hbefore c hcg b hb
      · have hwrong := hbehind b hb c hcg
        have hnonempty := b.nonempty
        omega
    · have hbefore := hapart a ha b hb
      have hnonempty := a.nonempty
      omega

/-- The padded extent of a group holds the group, and is not empty. -/
theorem Grouped.padded {g : List SuspiciousInterval} (hg : g ∈ groups) :
    (∀ a ∈ g, max (groupStart g - R.paddingNs) 0 ≤ a.startNs ∧ a.endNs ≤ R.paddedEnd (groupEnd g)) ∧
      ∀ d ∈ R.recordingDurationNs, R.paddedEnd (groupEnd g) ≤ d := by
  have hpadding := haccepts.padding
  obtain ⟨last, hlast, hend⟩ := (h.extent g hg).last
  have hinside := haccepts.inside last (h.mem_of_mem hg hlast)
  unfold paddedEnd
  split
  · rename_i hnone
    rw [hnone]
    refine ⟨fun a ha => ?_, fun _ hd => (by cases hd)⟩
    have hbounds := (h.extent g hg).bounds a ha
    have ha := haccepts.inside a (h.mem_of_mem hg ha)
    omega
  · rename_i duration hduration
    rw [hduration]
    have hwithin := hinside.2 duration hduration
    refine ⟨fun a ha => ?_, ?_⟩
    · have hbounds := (h.extent g hg).bounds a ha
      have ha := haccepts.inside a (h.mem_of_mem hg ha)
      omega
    · rintro _ ⟨⟩
      exact min_le_right _ _

end Grouped

theorem observation_injective : Function.Injective SuspiciousInterval.observation := by
  rintro ⟨s, e, c, t, f⟩ ⟨s', e', c', t', f'⟩ heq
  unfold SuspiciousInterval.observation at heq
  simp only [Prod.mk.injEq] at heq
  obtain ⟨rfl, rfl, rfl, rfl, rfl⟩ := heq
  rfl

theorem reduce_eq (h : R.Accepts intervals) : R.reduce intervals =
    .ok ((R.groups intervals).map fun g => R.reduced (groupStart g) (groupEnd g) g) := by
  have hgrouped := groups_grouped h
  have hbuilt : ∀ g ∈ R.groups intervals, R.buildReduced (groupStart g) (groupEnd g) g =
      .ok (R.reduced (groupStart g) (groupEnd g) g) := by
    intro g hg
    obtain ⟨a, ha, -⟩ := (hgrouped.extent g hg).first
    have hbounds := (hgrouped.padded h hg).1 a ha
    exact (if_neg (not_le.mpr ((hbounds.1.trans_lt a.nonempty).trans_le hbounds.2))).trans
      (if_neg h.versioned)
  have hduration : ¬ R.recordingDurationNs.any (· ≤ 0) := by
    cases hd : R.recordingDurationNs with
    | none => exact Bool.false_ne_true
    | some d => exact fun hle => absurd (h.duration d hd) (not_lt.mpr (of_decide_eq_true hle))
  unfold reduce
  rw [if_neg (not_or.mpr ⟨not_lt.mpr h.padding, not_lt.mpr h.gap⟩), if_neg hduration,
    mapM_of_forall hbuilt]
  refine congrArg Except.ok (sortedBy_of_pairwise (pairwise_map.mpr ?_))
  refine hgrouped.separated.apart.imp_of_mem fun {g g'} hg hg' hapart => Prod.Lex.toLex_mono ?_
  -- a group ends before the next one starts
  obtain ⟨a, ha, hend⟩ := (hgrouped.extent g hg).last
  obtain ⟨b, hb, hstart⟩ := (hgrouped.extent g' hg').first
  have hbefore := hapart a ha b hb
  have ha' := ((hgrouped.extent g hg).bounds a ha).1
  have hb' := ((hgrouped.extent g' hg').bounds b hb).2
  have hgap := h.gap
  have hnonempty := a.nonempty
  have hnonempty' := b.nonempty
  refine ⟨max_le_max_right _ (by omega), ?_⟩
  show R.paddedEnd _ ≤ R.paddedEnd _
  unfold paddedEnd
  split
  · omega
  · exact min_le_min_right _ (by omega)

theorem observations_reduced (R : Reduction) (startNs endNs : Int)
    (group : List SuspiciousInterval) :
    (R.reduced startNs endNs group).sourceIntervals.map (·.observation) =
      (sortedBy (·.key) group).map (·.observation) := by
  show ((sortedBy (·.key) group).zipIdx.map _).map _ = _
  rw [map_map, ← zipIdx_map_fst 0 (sortedBy (·.key) group), map_map, zipIdx_map_fst]
  rfl

/-- The sources of the result are the intervals in the order of their keys. -/
theorem observations_groups (h : R.Accepts intervals) :
    (((R.groups intervals).map fun g => R.reduced (groupStart g) (groupEnd g) g).flatMap
      (·.sourceIntervals)).map (·.observation) =
        (sortedBy (·.key) intervals).map (·.observation) := by
  have hflatten : (R.groups intervals).flatten = sortedBy (·.key) intervals :=
    gapGroups_flatten ..
  rw [flatMap_map, map_flatMap]
  simp only [observations_reduced]
  rw [← hflatten, map_flatten, ← flatMap_def]
  refine flatMap_congr fun g hg => congrArg _ (sortedBy_of_pairwise ?_)
  exact (sortedBy_pairwise (·.key) intervals).sublist (hflatten ▸ sublist_flatten_of_mem hg)

theorem lossless (h : R.Accepts intervals) : R.Lossless intervals
    ((R.groups intervals).map fun g => R.reduced (groupStart g) (groupEnd g) g) := by
  have hgrouped := groups_grouped h
  refine ⟨?_, forall_mem_map.mpr fun g hg => ?_, forall_mem_map.mpr fun g hg =>
    ⟨le_max_right _ _, (hgrouped.padded h hg).2⟩⟩
  · rw [observations_groups h]
    exact (sortedBy_perm _ _).map _
  · intro source hsource
    obtain ⟨entry, hentry, rfl⟩ := mem_map.mp hsource
    exact (hgrouped.padded h hg).1 _ (mem_sortedBy.mp (fst_mem_of_mem_zipIdx hentry))

theorem Accepts.perm {intervals' : List SuspiciousInterval} (h : R.Accepts intervals)
    (hperm : intervals'.Perm intervals) : R.Accepts intervals' :=
  { h with inside := fun item hitem => h.inside item (hperm.mem_iff.mp hitem) }

/-- The result is the same for every order of the input exactly when the keys tell the intervals. -/
theorem permuted_iff (h : R.Accepts intervals) :
    (∀ intervals', intervals'.Perm intervals → R.reduce intervals' = R.reduce intervals) ↔
      Told intervals := by
  constructor
  · intro hpermuted a ha b hb hkey
    -- with either of the two in front, the sort leaves it in front of all with its key
    have hfirst : ∀ c ∈ intervals, c.key = a.key →
        ((sortedBy (·.key) intervals).filter (·.key = a.key)).head? = some c := by
      intro c hc hca
      have hperm := (perm_cons_erase hc).symm
      have hsame := hpermuted _ hperm
      rw [reduce_eq (h.perm hperm), reduce_eq h] at hsame
      have hsources := observations_groups (h.perm hperm)
      rw [Except.ok.inj hsame, observations_groups h] at hsources
      rw [map_injective_iff.mpr observation_injective hsources, sortedBy_filter_key]
      simp [hca]
    exact Option.some.inj ((hfirst a ha rfl).symm.trans (hfirst b hb hkey.symm))
  · intro htold intervals' hperm
    unfold reduce groups
    rw [sortedBy_eq_of_perm_of_inj hperm fun a ha b hb =>
      htold a (hperm.mem_iff.mp ha) b (hperm.mem_iff.mp hb)]

/-- The reduction is lossless; it is disjoint exactly for spaced intervals, and independent of the
order of the input exactly where the keys tell the intervals. -/
theorem reduces_soundly_iff (R : Reduction) (intervals : List SuspiciousInterval)
    (h : R.Accepts intervals) :
    (∃ result, R.reduce intervals = .ok result ∧ R.ReducesSoundly intervals result) ↔
      R.Spaced intervals ∧ Told intervals := by
  have hdisjoint := (groups_grouped h).disjoint_iff h
  have hpermuted := permuted_iff h
  constructor
  · rintro ⟨result, hresult, hsound⟩
    refine ⟨?_, hpermuted.mp fun intervals' hperm =>
      (hsound.permuted intervals' hperm).trans hresult.symm⟩
    cases (reduce_eq h).symm.trans hresult
    exact hdisjoint.mp (pairwise_map.mp hsound.disjoint)
  · rintro ⟨hspaced, htold⟩
    exact ⟨_, reduce_eq h, lossless h, pairwise_map.mpr (hdisjoint.mpr hspaced),
      fun intervals' hperm => (hpermuted.mpr htold intervals' hperm).trans (reduce_eq h)⟩

theorem flagged_bounds (startNs : Nat) : (startNs : Int) < startNs + 5 := by omega

theorem certain_bounded : (0 : Rat) ≤ 1 ∧ (1 : Rat) ≤ 1 := ⟨zero_le_one, le_rfl⟩

def certain : Confidence := ⟨1, false, certain_bounded, fun h => (by cases h)⟩

def flagged (startNs : Nat) : SuspiciousInterval :=
  ⟨startNs, startNs + 5, .cam01, "BLUR", certain, flagged_bounds startNs, by decide⟩

/-- Merging without a gap, with a padding on both sides. -/
def paddedBy (paddingNs : Nat) : Reduction := ⟨fun _ => toString, paddingNs, 0, some 100, "v1.0"⟩

theorem paddedBy_accepts (paddingNs : Nat) :
    (paddedBy paddingNs).Accepts [flagged 0, flagged 10] where
  padding := Int.natCast_nonneg _
  gap := le_rfl
  duration := by
    rintro _ ⟨⟩
    decide
  versioned := by
    show "v1.0" ≠ ""
    decide
  inside := by
    unfold paddedBy flagged
    simp

theorem reduces_soundly_of_narrow_padding : ∃ result,
    (paddedBy 2).reduce [flagged 0, flagged 10] = .ok result ∧
      (paddedBy 2).ReducesSoundly [flagged 0, flagged 10] result :=
  (reduces_soundly_iff _ _ (paddedBy_accepts 2)).mpr ⟨by
    unfold Spaced paddedBy flagged
    simp, by
    unfold Told
    decide +kernel⟩

/-- Two intervals that are five apart overlap with a padding of ten. -/
theorem padded_neighbours_overlap : ¬ ∀ (R : Reduction) (intervals : List SuspiciousInterval),
    R.Accepts intervals →
      ∃ result, R.reduce intervals = .ok result ∧ R.ReducesSoundly intervals result := by
  intro hclaim
  have haccepts := paddedBy_accepts 10
  obtain ⟨result, hresult, hsound⟩ := hclaim _ _ haccepts
  cases (reduce_eq haccepts).symm.trans hresult
  have hspaced := ((groups_grouped haccepts).disjoint_iff haccepts).mp
    (pairwise_map.mp hsound.disjoint)
  unfold Spaced paddedBy flagged at hspaced
  simp at hspaced

end Reduction
end Robata.QaPipeline.SuspicionReducer
