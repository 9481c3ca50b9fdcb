import Mathlib.Data.Prod.Lex
import Mathlib.Data.String.Basic
import Robata.Contracts.Common
import Robata.Lib.Grouping
import Robata.Lib.Sorting

/-!
# Supplemental neighbor targets

`plan_neighbor_targets`: every trigger asks for targets at the offsets of the policy, clipped to the
interval.  What clips onto one instant of a camera becomes one target with the provenance of all;
of these each camera keeps its first ones, and of the rest the first ones are kept in all.

The sort key of a trigger puts `-1` for an absent packet index, so that it tells all triggers apart
but those that have no index from those that have the index `-1`.
-/

namespace Robata.Media.NeighborTargets

open Contracts Lib List

inductive LocalQualityFlag
  | observedBlackLuma | observedOverexposedLuma | proxyLowEdgeEnergy | proxyFrozenContent
  | observedCadenceGap | observedSequenceGap | observedCrossCameraSkew
  deriving DecidableEq

def LocalQualityFlag.value : LocalQualityFlag → String
  | observedBlackLuma => "OBSERVED_BLACK_LUMA"
  | observedOverexposedLuma => "OBSERVED_OVEREXPOSED_LUMA"
  | proxyLowEdgeEnergy => "PROXY_LOW_EDGE_ENERGY"
  | proxyFrozenContent => "PROXY_FROZEN_CONTENT"
  | observedCadenceGap => "OBSERVED_CADENCE_GAP"
  | observedSequenceGap => "OBSERVED_SEQUENCE_GAP"
  | observedCrossCameraSkew => "OBSERVED_CROSS_CAMERA_SKEW"

inductive QualityTriggerSource
  | frame | cadence | sequence | crossCameraSync
  deriving DecidableEq

def QualityTriggerSource.value : QualityTriggerSource → String
  | frame => "FRAME"
  | cadence => "CADENCE"
  | sequence => "SEQUENCE"
  | crossCameraSync => "CROSS_CAMERA_SYNC"

structure QualityTriggerProvenance where
  cameraId : CameraId
  triggerTimestampNs : Int
  source : QualityTriggerSource
  flag : LocalQualityFlag
  packetIndex : Option Int
  deriving DecidableEq

structure NeighborTargetProvenance where
  trigger : QualityTriggerProvenance
  (offsetNs requestedTargetNs : Int)
  clipped : Bool
  deriving DecidableEq

structure SupplementalNeighborTarget where
  cameraId : CameraId
  targetNs : Int
  provenance : List NeighborTargetProvenance

structure SupplementalNeighborTargetPlan where
  policyVersion : String
  interval : NanosecondInterval
  (candidateCount clippedCount deduplicatedCount : Nat)
  (droppedByPerCameraBudget droppedByTotalBudget : Nat)
  targets : List SupplementalNeighborTarget
  semanticSha256 : Sha256Digest

structure NeighborTargetPolicy where
  version : String
  offsetsNs : List Int
  (maxTargetsPerCamera maxTargetsTotal : Nat)
  versioned : version ≠ ""
  offsets : offsetsNs ≠ [] ∧ 0 ∉ offsetsNs
  increasing : offsetsNs.Pairwise (· < ·)
  budgets : 0 < maxTargetsPerCamera ∧ 0 < maxTargetsTotal

/-! ## The plan -/

def triggerKey (trigger : QualityTriggerProvenance) : Int ×ₗ String ×ₗ String ×ₗ String ×ₗ Int :=
  toLex (trigger.triggerTimestampNs, toLex (trigger.cameraId.value, toLex (trigger.source.value,
    toLex (trigger.flag.value, trigger.packetIndex.getD (-1)))))

variable (interval : NanosecondInterval) (policy : NeighborTargetPolicy)

def clip (requestedTargetNs : Int) : Int :=
  min (max requestedTargetNs interval.startNs) (interval.endNs - 1)

/-- What the triggers ask for, one entry for each trigger and offset. -/
def requests (triggers : List QualityTriggerProvenance) : List NeighborTargetProvenance :=
  triggers.flatMap fun trigger => policy.offsetsNs.map fun offsetNs =>
    let requestedTargetNs := trigger.triggerTimestampNs + offsetNs
    ⟨trigger, offsetNs, requestedTargetNs,
      decide (clip interval requestedTargetNs ≠ requestedTargetNs)⟩

/-- The camera and the instant that an entry clips onto. -/
def NeighborTargetProvenance.target (entry : NeighborTargetProvenance) : CameraId × Int :=
  (entry.trigger.cameraId, clip interval entry.requestedTargetNs)

/-- `unique_targets`. -/
def uniqueTargets (candidates : List NeighborTargetProvenance) : List SupplementalNeighborTarget :=
  (sortedBy (fun entry => toLex (entry.1.1.value, entry.1.2))
    (grouped (·.target interval) candidates).rows).map fun entry =>
      ⟨entry.1.1, entry.1.2, entry.2⟩

def ofCamera (targets : List SupplementalNeighborTarget) (cameraId : CameraId) :
    List SupplementalNeighborTarget :=
  targets.filter (·.cameraId = cameraId)

/-- `per_camera_admitted`. -/
def admitted (targets : List SupplementalNeighborTarget) : List SupplementalNeighborTarget :=
  CameraId.all.flatMap fun cameraId => (ofCamera targets cameraId).take policy.maxTargetsPerCamera

/-- `globally_ordered`. -/
def globallyOrdered (targets : List SupplementalNeighborTarget) : List SupplementalNeighborTarget :=
  sortedBy (fun target => toLex (target.targetNs, target.cameraId.value)) targets

/-- The plan with a digest of zeros. -/
def draftPlan (triggers : List QualityTriggerProvenance) : SupplementalNeighborTargetPlan :=
  let candidates := requests interval policy (sortedBy triggerKey triggers)
  let unique := uniqueTargets interval candidates
  let ordered := globallyOrdered (admitted policy unique)
  { policyVersion := policy.version
    interval
    candidateCount := candidates.length
    clippedCount := candidates.countP (·.clipped)
    deduplicatedCount := candidates.length - unique.length
    droppedByPerCameraBudget := (CameraId.all.map fun cameraId =>
      (ofCamera unique cameraId).length - policy.maxTargetsPerCamera).sum
    droppedByTotalBudget := ordered.length - (ordered.take policy.maxTargetsTotal).length
    targets := ordered.take policy.maxTargetsTotal
    semanticSha256 := String.ofList (replicate 64 '0') }

/-- The magnitudes of the integers in `_neighbor_projection`; nanoseconds are written as text. -/
def SupplementalNeighborTargetPlan.magnitudes (plan : SupplementalNeighborTargetPlan) : List Nat :=
  [plan.candidateCount, plan.clippedCount, plan.deduplicatedCount, plan.droppedByPerCameraBudget,
      plan.droppedByTotalBudget] ++
    plan.targets.flatMap fun target => target.provenance.filterMap fun entry =>
      entry.trigger.packetIndex.map Int.natAbs

/-- `plan_neighbor_targets`; it has no value where the draft has no canonical JSON. -/
def planNeighborTargets (semanticSha256 : SupplementalNeighborTargetPlan → Option Sha256Digest)
    (triggers : List QualityTriggerProvenance) : Option SupplementalNeighborTargetPlan :=
  let draft := draftPlan interval policy triggers
  (semanticSha256 draft).map fun digest => { draft with semanticSha256 := digest }

/-- The distinct instants that a camera is asked for, in their order. -/
def clippedOffsets (triggers : List QualityTriggerProvenance) (cameraId : CameraId) : List Int :=
  canonical id ((triggers.filter (·.cameraId = cameraId)).flatMap fun trigger =>
    policy.offsetsNs.map fun offsetNs => clip interval (trigger.triggerTimestampNs + offsetNs))

/-- What the plan is for. -/
structure ExactPlan (triggers : List QualityTriggerProvenance)
    (plan : SupplementalNeighborTargetPlan) : Prop where
  inside : ∀ target ∈ plan.targets,
    interval.startNs ≤ target.targetNs ∧ target.targetNs < interval.endNs
  perCamera : ∀ cameraId, (ofCamera plan.targets cameraId).length ≤ policy.maxTargetsPerCamera
  total : plan.targets.length ≤ policy.maxTargetsTotal
  ordered : plan.targets.Pairwise fun a b =>
    toLex (a.targetNs, a.cameraId.value) < toLex (b.targetNs, b.cameraId.value)
  first : ∀ cameraId, (ofCamera plan.targets cameraId).map (·.targetNs) <+:
    clippedOffsets interval policy triggers cameraId
  provenance : ∀ target ∈ plan.targets, target.provenance.Perm
    (inBucket (·.target interval) (requests interval policy triggers)
      (target.cameraId, target.targetNs))
  candidates : plan.candidateCount = triggers.length * policy.offsetsNs.length
  counted : plan.candidateCount = plan.targets.length + plan.deduplicatedCount +
    plan.droppedByPerCameraBudget + plan.droppedByTotalBudget

/-! ## Unique targets -/

variable {interval policy} {candidates : List NeighborTargetProvenance}
  {triggers : List QualityTriggerProvenance} {targets : List SupplementalNeighborTarget}

/-- The trigger does not have the index that the sort key puts for an absent one. -/
def QualityTriggerProvenance.Indexed (trigger : QualityTriggerProvenance) : Prop :=
  trigger.packetIndex ≠ some (-1)

instance (trigger : QualityTriggerProvenance) : Decidable trigger.Indexed :=
  inferInstanceAs (Decidable (_ ≠ _))

theorem triggerKey_injective {a b : QualityTriggerProvenance} (ha : a.Indexed) (hb : b.Indexed)
    (h : triggerKey a = triggerKey b) : a = b := by
  obtain ⟨c, t, s, f, i⟩ := a
  obtain ⟨c', t', s', f', i'⟩ := b
  unfold QualityTriggerProvenance.Indexed at ha hb
  unfold triggerKey at h
  simp only [toLex_inj, Prod.mk.injEq] at h
  obtain ⟨rfl, hcamera, hsource, hflag, hindex⟩ := h
  have hc : c = c' := by cases c <;> cases c' <;> first | rfl | exact absurd hcamera (by decide)
  have hs : s = s' := by cases s <;> cases s' <;> first | rfl | exact absurd hsource (by decide)
  have hf : f = f' := by cases f <;> cases f' <;> first | rfl | exact absurd hflag (by decide)
  have hi : i = i' := by cases i <;> cases i' <;> simp_all [eq_comm]
  rw [hc, hs, hf, hi]

theorem mem_uniqueTargets {target : SupplementalNeighborTarget} :
    target ∈ uniqueTargets interval candidates ↔ target.provenance =
      inBucket (·.target interval) candidates (target.cameraId, target.targetNs) ∧
        target.provenance ≠ [] := by
  unfold uniqueTargets
  rw [mem_map]
  constructor
  · rintro ⟨entry, hentry, rfl⟩
    exact mem_rows_grouped.mp (mem_sortedBy.mp hentry)
  · intro h
    exact ⟨((target.cameraId, target.targetNs), target.provenance),
      mem_sortedBy.mpr (mem_rows_grouped.mpr h), rfl⟩

theorem exists_uniqueTarget {cameraId : CameraId} {targetNs : Int} :
    (∃ target ∈ uniqueTargets interval candidates, target.cameraId = cameraId ∧
      target.targetNs = targetNs) ↔
      ∃ entry ∈ candidates, entry.target interval = (cameraId, targetNs) := by
  constructor
  · rintro ⟨target, htarget, rfl, rfl⟩
    obtain ⟨heq, hne⟩ := mem_uniqueTargets.mp htarget
    obtain ⟨entry, hentry⟩ := exists_mem_of_ne_nil _ hne
    exact ⟨entry, mem_inBucket.mp (heq ▸ hentry)⟩
  · rintro ⟨entry, hentry, hkey⟩
    exact ⟨⟨cameraId, targetNs, _⟩, mem_uniqueTargets.mpr ⟨rfl, ne_nil_of_mem
      (mem_inBucket.mpr ⟨hentry, hkey⟩)⟩, rfl, rfl⟩

theorem value_injective : Function.Injective CameraId.value := by
  intro a b h
  cases a <;> cases b <;> first | rfl | exact absurd h (by decide)

theorem uniqueTargets_pairwise : (uniqueTargets interval candidates).Pairwise fun a b =>
    toLex (a.cameraId.value, a.targetNs) < toLex (b.cameraId.value, b.targetNs) := by
  unfold uniqueTargets
  rw [pairwise_map]
  apply sortedBy_strict
  have hkeys := (grouped (·.target interval) candidates).nodup
  have hinjective : Function.Injective fun key : CameraId × Int => toLex (key.1.value, key.2) := by
    rintro ⟨a, m⟩ ⟨b, n⟩ h
    obtain ⟨hab, hns⟩ := Prod.mk.inj (toLex_inj.mp h)
    exact Prod.ext (value_injective hab) hns
  have hnodup := hkeys.map hinjective
  rw [map_map] at hnodup
  exact hnodup

theorem length_uniqueTargets_le : (uniqueTargets interval candidates).length ≤ candidates.length := by
  have hsub : (grouped (·.target interval) candidates).rows.map Prod.fst ⊆
      candidates.map (·.target interval) := by
    intro key hkey
    obtain ⟨entry, hentry, rfl⟩ := mem_map.mp hkey
    obtain ⟨heq, hne⟩ := mem_rows_grouped.mp hentry
    obtain ⟨found, hfound⟩ := exists_mem_of_ne_nil _ hne
    obtain ⟨hmem, htarget⟩ := mem_inBucket.mp (heq ▸ hfound)
    exact mem_map.mpr ⟨found, hmem, htarget⟩
  have hle := (subperm_of_subset (grouped (·.target interval) candidates).nodup hsub).length_le
  rw [length_map, length_map] at hle
  unfold uniqueTargets
  rw [length_map, (sortedBy_perm _ _).length_eq]
  exact hle

/-! ## The cuts -/

theorem mem_ofCamera {target : SupplementalNeighborTarget} {cameraId : CameraId} :
    target ∈ ofCamera targets cameraId ↔ target ∈ targets ∧ target.cameraId = cameraId := by
  unfold ofCamera
  rw [mem_filter, decide_eq_true_eq]

theorem sum_ofCamera (targets : List SupplementalNeighborTarget) :
    (CameraId.all.map fun cameraId => (ofCamera targets cameraId).length).sum = targets.length := by
  induction targets with
  | nil => rfl
  | cons target targets ih =>
    have hcases := target.cameraId.mem_all
    unfold ofCamera at ih ⊢
    cases h : target.cameraId <;> simp [CameraId.all, filter_cons, h] at ih ⊢ <;> omega

theorem ofCamera_admitted (cameraId : CameraId) : ofCamera (admitted policy targets) cameraId =
    (ofCamera targets cameraId).take policy.maxTargetsPerCamera := by
  have hown : ∀ other, ofCamera ((ofCamera targets other).take policy.maxTargetsPerCamera)
      cameraId = if other = cameraId then
        (ofCamera targets other).take policy.maxTargetsPerCamera else [] := by
    intro other
    have hother : ∀ target ∈ (ofCamera targets other).take policy.maxTargetsPerCamera,
        target.cameraId = other := fun target htarget =>
      (mem_ofCamera.mp (mem_of_mem_take htarget)).2
    split
    · rename_i heq
      exact filter_eq_self.mpr fun target htarget => decide_eq_true ((hother target htarget).trans heq)
    · rename_i hne
      exact filter_eq_nil_iff.mpr fun target htarget h =>
        hne ((hother target htarget).symm.trans (of_decide_eq_true h))
  unfold ofCamera at hown ⊢
  unfold admitted ofCamera
  cases cameraId <;> simp [CameraId.all, hown]

theorem length_admitted (policy : NeighborTargetPolicy)
    (targets : List SupplementalNeighborTarget) : targets.length = (admitted policy targets).length +
    (CameraId.all.map fun cameraId =>
      (ofCamera targets cameraId).length - policy.maxTargetsPerCamera).sum := by
  have hsum := sum_ofCamera targets
  have hadmitted := sum_ofCamera (admitted policy targets)
  simp only [ofCamera_admitted, length_take] at hadmitted
  rw [← hsum, ← hadmitted]
  simp only [CameraId.all, map_cons, map_nil, sum_cons, sum_nil]
  omega

theorem ofCamera_pairwise (cameraId : CameraId) :
    (ofCamera (uniqueTargets interval candidates) cameraId).Pairwise fun a b =>
      a.targetNs < b.targetNs := by
  refine (uniqueTargets_pairwise.filter _).imp_of_mem fun {a b} ha hb hlt => ?_
  rw [(mem_ofCamera.mp ha).2, (mem_ofCamera.mp hb).2, Prod.Lex.toLex_lt_toLex] at hlt
  exact (hlt.resolve_left (lt_irrefl _)).2

theorem globallyOrdered_pairwise :
    (globallyOrdered (admitted policy (uniqueTargets interval candidates))).Pairwise fun a b =>
      toLex (a.targetNs, a.cameraId.value) < toLex (b.targetNs, b.cameraId.value) := by
  apply sortedBy_strict
  unfold admitted
  rw [map_flatMap, nodup_flatMap]
  constructor
  · intro cameraId _
    rw [Nodup, pairwise_map]
    exact (ofCamera_pairwise cameraId).take.imp fun hlt heq =>
      hlt.ne (Prod.mk.inj (toLex_inj.mp heq)).1
  · have hnodup : CameraId.all.Nodup := by decide
    refine hnodup.imp fun {c d} hne key hc hd => hne ?_
    obtain ⟨a, ha, rfl⟩ := mem_map.mp hc
    obtain ⟨b, hb, heq⟩ := mem_map.mp hd
    rw [← (mem_ofCamera.mp (mem_of_mem_take ha)).2, ← (mem_ofCamera.mp (mem_of_mem_take hb)).2]
    exact (value_injective (Prod.mk.inj (toLex_inj.mp heq)).2).symm

theorem ofCamera_globallyOrdered (cameraId : CameraId) :
    ofCamera (globallyOrdered (admitted policy (uniqueTargets interval candidates))) cameraId =
      (ofCamera (uniqueTargets interval candidates) cameraId).take policy.maxTargetsPerCamera := by
  have hperm := (sortedBy_perm (fun target : SupplementalNeighborTarget =>
    toLex (target.targetNs, target.cameraId.value))
      (admitted policy (uniqueTargets interval candidates))).filter (·.cameraId = cameraId)
  have hperm' := hperm.trans (.of_eq (ofCamera_admitted cameraId))
  refine hperm'.eq_of_pairwise (fun a b _ _ hab hba => absurd hba (not_lt_of_gt hab)) ?_
    (ofCamera_pairwise cameraId).take
  refine (globallyOrdered_pairwise.filter _).imp_of_mem fun {a b} ha hb hlt => ?_
  rw [(mem_ofCamera.mp ha).2, (mem_ofCamera.mp hb).2, Prod.Lex.toLex_lt_toLex] at hlt
  exact hlt.resolve_right fun h => lt_irrefl _ h.2

theorem instants_eq (cameraId : CameraId) :
    (ofCamera (uniqueTargets interval (requests interval policy (sortedBy triggerKey triggers)))
      cameraId).map (·.targetNs) = clippedOffsets interval policy triggers cameraId := by
  have hcanonical : (clippedOffsets interval policy triggers cameraId).Pairwise (· < ·) :=
    sortedBy_strict (by rw [map_id']; exact nodup_dedup _)
  refine (pairwise_map.mpr (ofCamera_pairwise cameraId)).eq_of_mem_iff hcanonical fun ns => ?_
  unfold clippedOffsets canonical
  rw [mem_sortedBy, mem_dedup, mem_map]
  simp only [mem_ofCamera, and_assoc]
  rw [exists_uniqueTarget]
  unfold requests NeighborTargetProvenance.target
  constructor
  · rintro ⟨entry, hentry, hkey⟩
    obtain ⟨trigger, htrigger, hentry⟩ := mem_flatMap.mp hentry
    obtain ⟨offsetNs, hoffset, rfl⟩ := mem_map.mp hentry
    obtain ⟨hcamera, hclip⟩ := Prod.mk.inj hkey
    exact mem_flatMap.mpr ⟨trigger, mem_filter.mpr ⟨mem_sortedBy.mp htrigger,
      decide_eq_true hcamera⟩, mem_map.mpr ⟨offsetNs, hoffset, hclip⟩⟩
  · intro h
    obtain ⟨trigger, htrigger, h⟩ := mem_flatMap.mp h
    obtain ⟨offsetNs, hoffset, hclip⟩ := mem_map.mp h
    obtain ⟨hmem, hcamera⟩ := mem_filter.mp htrigger
    exact ⟨_, mem_flatMap.mpr ⟨trigger, mem_sortedBy.mpr hmem, mem_map.mpr ⟨offsetNs, hoffset, rfl⟩⟩,
      Prod.ext (of_decide_eq_true hcamera) hclip⟩

theorem requests_sorted : (requests interval policy (sortedBy triggerKey triggers)).Perm
    (requests interval policy triggers) :=
  (sortedBy_perm triggerKey triggers).flatMap_right _

theorem draftPlan_exact (interval : NanosecondInterval) (policy : NeighborTargetPolicy)
    (triggers : List QualityTriggerProvenance) :
    ExactPlan interval policy triggers (draftPlan interval policy triggers) := by
  let candidates := requests interval policy (sortedBy triggerKey triggers)
  let unique := uniqueTargets interval candidates
  let ordered := globallyOrdered (admitted policy unique)
  have hcandidates : candidates.length = triggers.length * policy.offsetsNs.length := by
    rw [requests_sorted.length_eq]
    unfold requests
    simp [length_flatMap]
  have hunique : ∀ target ∈ ordered.take policy.maxTargetsTotal,
      target ∈ unique := by
    intro target htarget
    have hmem := mem_ofCamera.mpr ⟨mem_of_mem_take htarget, rfl⟩
    rw [ofCamera_globallyOrdered] at hmem
    exact (mem_ofCamera.mp (mem_of_mem_take hmem)).1
  have hkept : ∀ cameraId, ofCamera (ordered.take policy.maxTargetsTotal) cameraId <+:
      (ofCamera unique cameraId).take policy.maxTargetsPerCamera := by
    intro cameraId
    rw [← ofCamera_globallyOrdered]
    exact IsPrefix.filter _ <| take_prefix _ _
  refine ⟨fun target htarget => ?_, fun cameraId => ?_, length_take_le _ _,
    globallyOrdered_pairwise.take, fun cameraId => ?_, fun target htarget => ?_, hcandidates, ?_⟩
  · obtain ⟨entry, -, hkey⟩ := exists_uniqueTarget.mp ⟨target, hunique target htarget, rfl, rfl⟩
    have hclip := (Prod.mk.inj hkey).2
    have hnonempty := interval.nonempty
    unfold clip at hclip
    omega
  · exact (hkept cameraId).length_le.trans (length_take_le _ _)
  · rw [← instants_eq]
    exact ((hkept cameraId).trans <| take_prefix _ _).map _
  · rw [(mem_uniqueTargets.mp (hunique target htarget)).1]
    exact requests_sorted.filter _
  · have hadmitted := length_admitted policy unique
    have hordered : ordered.length = (admitted policy unique).length :=
      (sortedBy_perm _ _).length_eq
    have hle : unique.length ≤ candidates.length := length_uniqueTargets_le
    have htake := length_take_le' policy.maxTargetsTotal ordered
    show candidates.length = (ordered.take policy.maxTargetsTotal).length +
      (candidates.length - unique.length) + (CameraId.all.map fun cameraId =>
        (ofCamera unique cameraId).length - policy.maxTargetsPerCamera).sum +
          (ordered.length - (ordered.take policy.maxTargetsTotal).length)
    omega

/-- No integer of a draft exceeds both its count of candidates and the indexes of its triggers. -/
theorem magnitudes_draftPlan_le {limit : Nat}
    (hcount : triggers.length * policy.offsetsNs.length ≤ limit)
    (hindex : ∀ trigger ∈ triggers, ∀ i ∈ trigger.packetIndex, i.natAbs ≤ limit) :
    ∀ n ∈ (draftPlan interval policy triggers).magnitudes, n ≤ limit := by
  have hexact := draftPlan_exact interval policy triggers
  have hcounted := hexact.counted
  have hclipped : (draftPlan interval policy triggers).clippedCount ≤
      (draftPlan interval policy triggers).candidateCount := countP_le_length
  rw [← hexact.candidates] at hcount
  intro n hn
  rcases mem_append.mp hn with hn | hn
  · simp only [mem_cons, not_mem_nil, or_false] at hn
    omega
  · obtain ⟨target, htarget, hn⟩ := mem_flatMap.mp hn
    obtain ⟨entry, hentry, hn⟩ := mem_filterMap.mp hn
    obtain ⟨i, hi, rfl⟩ := Option.map_eq_some_iff.mp hn
    have hbucket := (hexact.provenance target htarget).mem_iff.mp hentry
    obtain ⟨trigger, htrigger, hmem⟩ := mem_flatMap.mp (mem_inBucket.mp hbucket).1
    obtain ⟨offsetNs, -, rfl⟩ := mem_map.mp hmem
    exact hindex trigger htrigger i hi

/-- What is planned is exact under its budgets; there is a plan wherever the candidates can be
counted and the packet indexes written exactly; and it is the same for every order of the triggers
unless one has the index `-1`. -/
theorem plan_neighbor_targets_exact
    {semanticSha256 : SupplementalNeighborTargetPlan → Option Sha256Digest}
    (hrfc : HashesExactly SupplementalNeighborTargetPlan.magnitudes semanticSha256)
    (interval : NanosecondInterval) (policy : NeighborTargetPolicy)
    (triggers : List QualityTriggerProvenance) :
    (∀ plan, planNeighborTargets interval policy semanticSha256 triggers = some plan →
      ExactPlan interval policy triggers plan) ∧
    (triggers.length * policy.offsetsNs.length ≤ exactLimit →
      (∀ trigger ∈ triggers, ∀ i ∈ trigger.packetIndex, i.natAbs ≤ exactLimit) →
        ∃ plan, planNeighborTargets interval policy semanticSha256 triggers = some plan) ∧
    ((∀ trigger ∈ triggers, trigger.Indexed) → ∀ triggers', triggers'.Perm triggers →
      planNeighborTargets interval policy semanticSha256 triggers' =
        planNeighborTargets interval policy semanticSha256 triggers) := by
  refine ⟨fun plan hplan => ?_, fun hcount hindex => ?_, fun hindexed triggers' hperm => ?_⟩
  · obtain ⟨digest, -, rfl⟩ := Option.map_eq_some_iff.mp hplan
    exact { draftPlan_exact interval policy triggers with }
  · have hsome := (hrfc (draftPlan interval policy triggers)).mpr
      (magnitudes_draftPlan_le hcount hindex)
    obtain ⟨digest, hdigest⟩ := Option.isSome_iff_exists.mp hsome
    exact ⟨_, Option.map_eq_some_iff.mpr ⟨digest, hdigest, rfl⟩⟩
  · unfold planNeighborTargets draftPlan
    rw [sortedBy_eq_of_perm_of_inj hperm fun a ha b hb =>
      triggerKey_injective (hindexed a (hperm.mem_iff.mp ha)) (hindexed b (hperm.mem_iff.mp hb))]

/-! ## An index of its own -/

/-- One offset, and no budget that cuts. -/
def samplePolicy : NeighborTargetPolicy where
  version := "local"
  offsetsNs := [1]
  maxTargetsPerCamera := 64
  maxTargetsTotal := 384
  versioned := by decide
  offsets := by decide
  increasing := by decide
  budgets := by decide

theorem sample_lower : int64Min ≤ 0 := by decide

theorem sample_upper : 10 ≤ int64Max := by decide

theorem sample_nonempty : (0 : Int) < 10 := by decide

def sampleInterval : NanosecondInterval := ⟨0, 10, sample_lower, sample_upper, sample_nonempty⟩

/-- A dark frame of the first camera. -/
def sampleTrigger (packetIndex : Option Int) : QualityTriggerProvenance :=
  ⟨.cam01, 3, .frame, .observedBlackLuma, packetIndex⟩

def sampleDigest : SupplementalNeighborTargetPlan → Option Sha256Digest :=
  exactDigest SupplementalNeighborTargetPlan.magnitudes fun _ => "digest"

theorem plan_neighbor_targets_exact_sample : ∃ plan,
    planNeighborTargets sampleInterval samplePolicy sampleDigest
      [sampleTrigger none, sampleTrigger (some 7)] = some plan ∧
    planNeighborTargets sampleInterval samplePolicy sampleDigest
      [sampleTrigger (some 7), sampleTrigger none] = some plan ∧
    ExactPlan sampleInterval samplePolicy [sampleTrigger none, sampleTrigger (some 7)] plan := by
  obtain ⟨hexact, hplanned, hordered⟩ := plan_neighbor_targets_exact
    (hashesExactly_exactDigest _ fun _ => "digest") sampleInterval samplePolicy
    [sampleTrigger none, sampleTrigger (some 7)]
  obtain ⟨plan, hplan⟩ := hplanned (by decide) (by decide)
  exact ⟨plan, hplan, (hordered (by decide) _ (.swap _ _ _)).trans hplan, hexact plan hplan⟩

/-- A trigger without a packet index and one with the index `-1` keep the order they came in. -/
theorem absent_index_keeps_order : ¬ ∀ (interval : NanosecondInterval)
    (policy : NeighborTargetPolicy) (triggers triggers' : List QualityTriggerProvenance),
    triggers'.Perm triggers → planNeighborTargets interval policy sampleDigest triggers' =
      planNeighborTargets interval policy sampleDigest triggers := by
  intro h
  have hsame := congrArg (Option.map fun plan => plan.targets.flatMap fun target =>
    target.provenance.map (·.trigger.packetIndex)) (h sampleInterval samplePolicy
      [sampleTrigger none, sampleTrigger (some (-1))] _ (.swap _ _ _))
  exact absurd hsame (by decide +kernel)

end Robata.Media.NeighborTargets
