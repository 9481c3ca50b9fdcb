import Robata.Lib.Dictionary
import Robata.QaPipeline.QaModels

/-!
# Aggregation of camera results

`QAAggregator.aggregate_camera_results`: six coarse results over one scope, overridden by six dense
results from inside it, become one result of the recording.  The override goes by camera alone, so
that a clean dense result over a part of the scope hides what the coarse one says of the rest.

A score is the number that a float stands for.  The rounded mean of a list of scores is a parameter:
it is computed in floating point, so that it depends on the order of the list, and it passes the
range checks of the result.  Of a camera result the fields are kept that the aggregation reads.
-/

namespace Robata.QaPipeline

open Contracts Lib List
open CameraId (mem_all)
open Dict (get?_set index values_index)

/-- A score in the unit interval. -/
abbrev Score := { score : ℚ // 0 ≤ score ∧ score ≤ 1 }

structure CameraQAClaim where
  observedInterval : NanosecondInterval
  status : CameraQAStatus
  reportedScore : Option Score

structure CameraQAResult where
  qaResultId : OpaqueUuid
  mcapId : OpaqueUuid
  cameraId : CameraId
  claim : CameraQAClaim

def CameraQAResult.isUsable (result : CameraQAResult) : Bool :=
  match result.claim.status with
  | .good | .degraded => true
  | .unusable | .unknown | .incomplete => false

inductive RecordingQAStatus
  | usable
  | degraded
  | unusable
  | incomplete
  deriving DecidableEq

structure QAAggregationPolicy where
  version : String
  degradedMinUsable : Nat
  incompleteIsBlocking : Bool
  statusQuality : CameraQAStatus → Score
  promotionEligible : Bool
  version_nonempty : version ≠ ""
  degradedMinUsable_bounds : 1 ≤ degradedMinUsable ∧ degradedMinUsable ≤ 5
  not_promotable : promotionEligible = false

structure RecordingQAResult where
  mcapId : OpaqueUuid
  scope : NanosecondInterval
  overallStatus : RecordingQAStatus
  requiredCameraCount : Nat
  usableCameraCount : Nat
  cameraResultIds : List OpaqueUuid
  overallQuality : Score
  (modelScore calibratedProbability deterministicQuality : Option Score)
  policyVersion : String
  promotionEligible : Bool
  (coarseResultIds denseResultIds : List OpaqueUuid)

/-- `camera_map`. -/
abbrev CameraMap := Dict CameraId CameraQAResult

/-- One round of the loop over the coarse results. -/
def addCoarse (scope : NanosecondInterval) (mcapId : OpaqueUuid) (cameraMap : CameraMap)
    (result : CameraQAResult) : Except QAError CameraMap := do
  require (result.mcapId = mcapId) "all coarse QA results must belong to one MCAP"
  require (result.claim.observedInterval = scope) "coarse QA intervals must share one exact scope"
  require (cameraMap.get? result.cameraId = none)
    ("duplicate coarse QA result for " ++ result.cameraId.value)
  .ok (cameraMap.set result.cameraId result)

/-- One round of the loop over the dense results, after the cameras there have been. -/
def addDense (scope : NanosecondInterval) (mcapId : OpaqueUuid)
    (state : List CameraId × CameraMap) (result : CameraQAResult) :
    Except QAError (List CameraId × CameraMap) := do
  let observed := result.claim.observedInterval
  require (result.mcapId = mcapId) "all dense QA results must belong to the coarse MCAP"
  require (result.cameraId ∉ state.1) ("duplicate dense QA result for " ++ result.cameraId.value)
  require (scope.startNs ≤ observed.startNs ∧ observed.endNs ≤ scope.endNs)
    "dense QA intervals must lie inside the coarse scope"
  .ok (state.1 ++ [result.cameraId], state.2.set result.cameraId result)

/-- `validate_cardinality`; no count is above six. -/
def validateCardinality (result : RecordingQAResult) : Except QAError Unit := do
  require (result.requiredCameraCount = 6) "the V1 QA aggregate requires six camera slots"
  require (result.cameraResultIds.length = 6 ∧ result.cameraResultIds.Nodup)
    "camera_result_ids must contain six unique results"
  require (result.usableCameraCount ≤ result.requiredCameraCount)
    "usable_camera_count cannot exceed required_camera_count"

/-- The ids under the cameras of a map, in the order of the cameras. -/
def idsOf (cameraMap : CameraMap) : List OpaqueUuid :=
  CameraId.all.filterMap fun cameraId => (cameraMap.get? cameraId).map (·.qaResultId)

def overallStatusOf (policy : QAAggregationPolicy) (results : List CameraQAResult) :
    RecordingQAStatus :=
  let usable := results.countP (·.isUsable)
  let overallStatus := if usable = 6 then .usable
    else if policy.degradedMinUsable ≤ usable then .degraded
    else .unusable
  let incompleteCount := results.countP (·.claim.status == .incomplete)
  if 0 < incompleteCount ∧ policy.incompleteIsBlocking = true then .incomplete else overallStatus

section Mean

-- `round(sum(scores) / len(scores), 4)`
variable (mean : List Score → Score)

/-- `overall_quality`. -/
def overallQualityOf (policy : QAAggregationPolicy) (results : List CameraQAResult) : Score :=
  mean (results.map fun result => policy.statusQuality result.claim.status)

/-- `model_score`. -/
def modelScoreOf (results : List CameraQAResult) : Option Score :=
  let reportedScores := results.filterMap (·.claim.reportedScore)
  if reportedScores.isEmpty then none else some (mean reportedScores)

/-- The result that is made of the filled map. -/
def summarize (policy : QAAggregationPolicy) (mcapId : OpaqueUuid) (scope : NanosecondInterval)
    (cameraMap coarseByCamera denseByCamera : CameraMap) : Except QAError RecordingQAResult := do
  let results := cameraMap.values
  let aggregate : RecordingQAResult :=
    { mcapId := mcapId
      scope := scope
      overallStatus := overallStatusOf policy results
      requiredCameraCount := 6
      usableCameraCount := results.countP (·.isUsable)
      cameraResultIds := idsOf cameraMap
      overallQuality := overallQualityOf mean policy results
      modelScore := modelScoreOf mean results
      calibratedProbability := none
      deterministicQuality := none
      policyVersion := policy.version
      promotionEligible := policy.promotionEligible
      coarseResultIds := idsOf coarseByCamera
      denseResultIds := idsOf denseByCamera }
  validateCardinality aggregate
  .ok aggregate

def aggregateCameraResults (policy : QAAggregationPolicy)
    (coarseResults denseResults : List CameraQAResult) : Except QAError RecordingQAResult :=
  match coarseResults with
  | [] => .error (.value "Expected exactly 6 coarse camera results, got 0")
  | first :: _ => do
    require (coarseResults.length = 6)
      ("Expected exactly 6 coarse camera results, got " ++ toString coarseResults.length)
    let scope := first.claim.observedInterval
    let mcapId := first.mcapId
    let coarseMap ← coarseResults.foldlM (addCoarse scope mcapId) .empty
    let cameraMap ← if denseResults.isEmpty then .ok coarseMap else do
      require (denseResults.length = 6)
        ("Expected exactly 6 dense camera results, got " ++ toString denseResults.length)
      let state ← denseResults.foldlM (addDense scope mcapId) ([], coarseMap)
      .ok state.2
    CameraId.all.forM fun cameraId =>
      require (cameraMap.get? cameraId ≠ none) ("Missing QA result for camera " ++ cameraId.value)
    summarize mean policy mcapId scope cameraMap (index (·.cameraId) coarseResults)
      (index (·.cameraId) denseResults)

/-- The means of the dense scores do not depend on the order that they are added in. -/
def MeansAgree (policy : QAAggregationPolicy) (dense : List CameraQAResult) : Prop :=
  ∀ dense', dense'.Perm dense →
    overallQualityOf mean policy dense' = overallQualityOf mean policy dense ∧
      modelScoreOf mean dense' = modelScoreOf mean dense

end Mean

variable {mean : List Score → Score} {policy : QAAggregationPolicy} {mcapId : OpaqueUuid}
  {scope : NanosecondInterval} {coarse dense : List CameraQAResult}

/-! ## What a result says of the scope -/

/-- The interval of the result holds the instant. -/
def CameraQAResult.Sees (result : CameraQAResult) (t : Int) : Prop :=
  result.claim.observedInterval.startNs ≤ t ∧ t < result.claim.observedInterval.endNs

/-- Every instant of the scope is usable by the dense result that saw it, else by the coarse one. -/
def GoodThroughout (scope : NanosecondInterval) (coarse dense : List CameraQAResult) : Prop :=
  ∀ r ∈ coarse, ∀ d ∈ dense, r.cameraId = d.cameraId →
    ∀ t, scope.startNs ≤ t → t < scope.endNs →
      d.Sees t ∧ d.isUsable = true ∨ ¬ d.Sees t ∧ r.isUsable = true

/-- A usable recording is good throughout, and the order of the results does not matter. -/
structure AggregatesSoundly (mean : List Score → Score) (policy : QAAggregationPolicy)
    (scope : NanosecondInterval) (coarse dense : List CameraQAResult) : Prop where
  covered : ∀ result, aggregateCameraResults mean policy coarse dense = .ok result →
    result.overallStatus = .usable → GoodThroughout scope coarse dense
  ordered : ∀ coarse' dense', coarse.Perm coarse' → dense.Perm dense' →
    aggregateCameraResults mean policy coarse' dense' =
      aggregateCameraResults mean policy coarse dense

/-- Six coarse results over one scope, and six dense results inside it. -/
structure SixResults (scope : NanosecondInterval) (mcapId : OpaqueUuid)
    (coarse dense : List CameraQAResult) : Prop where
  coarseCameras : (coarse.map (·.cameraId)).Perm CameraId.all
  denseCameras : (dense.map (·.cameraId)).Perm CameraId.all
  oneMcap : ∀ result ∈ coarse ++ dense, result.mcapId = mcapId
  oneScope : ∀ result ∈ coarse, result.claim.observedInterval = scope
  inside : ∀ result ∈ dense, scope.startNs ≤ result.claim.observedInterval.startNs ∧
    result.claim.observedInterval.endNs ≤ scope.endNs

theorem SixResults.perm {coarse' dense' : List CameraQAResult}
    (h : SixResults scope mcapId coarse dense) (hcoarse : coarse.Perm coarse')
    (hdense : dense.Perm dense') : SixResults scope mcapId coarse' dense' where
  coarseCameras := (hcoarse.map _).symm.trans h.coarseCameras
  denseCameras := (hdense.map _).symm.trans h.denseCameras
  oneMcap := fun r hr => h.oneMcap r ((hcoarse.append hdense).mem_iff.mpr hr)
  oneScope := fun r hr => h.oneScope r (hcoarse.mem_iff.mpr hr)
  inside := fun r hr => h.inside r (hdense.mem_iff.mpr hr)

theorem goodThroughout_iff (h : SixResults scope mcapId coarse dense)
    (hdense : ∀ d ∈ dense, d.isUsable = true) :
    GoodThroughout scope coarse dense ↔ ∀ r ∈ coarse, ∀ d ∈ dense, r.cameraId = d.cameraId →
      d.claim.observedInterval = scope ∨ r.isUsable = true := by
  refine forall₄_congr fun r _ d hd => forall_congr' fun _ => ?_
  have hinside := h.inside d hd
  have hscope := scope.nonempty
  constructor
  · intro hgood
    by_cases hstart : scope.startNs = d.claim.observedInterval.startNs
    · by_cases hend : scope.endNs = d.claim.observedInterval.endNs
      · exact .inl (NanosecondInterval.ext hstart.symm hend.symm)
      · -- the last instant of the scope is after the dense interval
        rcases hgood (scope.endNs - 1) (by omega) (by omega) with ⟨⟨-, hlt⟩, -⟩ | ⟨-, hr⟩
        · omega
        · exact .inr hr
    · rcases hgood scope.startNs (le_refl _) hscope with ⟨⟨hle, -⟩, -⟩ | ⟨-, hr⟩
      · omega
      · exact .inr hr
  · intro hcase t hlo hhi
    by_cases hsees : d.Sees t
    · exact .inl ⟨hsees, hdense d hd⟩
    · refine .inr ⟨hsees, hcase.resolve_left fun heq => hsees ?_⟩
      unfold CameraQAResult.Sees
      rw [heq]
      exact ⟨hlo, hhi⟩

/-! ## The maps of a run -/

theorem summarize_congr {m m' c c' d d' : CameraMap}
    (hmap : ∀ cameraId, m.get? cameraId = m'.get? cameraId)
    (hquality : overallQualityOf mean policy m.values = overallQualityOf mean policy m'.values)
    (hscore : modelScoreOf mean m.values = modelScoreOf mean m'.values)
    (hcoarse : ∀ cameraId, c.get? cameraId = c'.get? cameraId)
    (hdense : ∀ cameraId, d.get? cameraId = d'.get? cameraId) :
    summarize mean policy mcapId scope m c d = summarize mean policy mcapId scope m' c' d' := by
  have hperm := Dict.values_perm hmap
  unfold summarize overallStatusOf idsOf
  simp only [hmap, hcoarse, hdense, hperm.countP_eq, hquality, hscore]

theorem addCoarse_loop (hnodup : (coarse.map (·.cameraId)).Nodup)
    (h : ∀ result ∈ coarse, result.mcapId = mcapId ∧ result.claim.observedInterval = scope) :
    coarse.foldlM (addCoarse scope mcapId) .empty = .ok (index (·.cameraId) coarse) := by
  induction coarse using reverseRecOn with
  | nil => rfl
  | append_singleton coarse last ih =>
    rw [map_append, nodup_append] at hnodup
    obtain ⟨hmcap, hscope⟩ := h last (mem_append_right _ (mem_singleton_self _))
    have hfresh : (index (·.cameraId) coarse).get? last.cameraId = none := by
      rw [Dict.get?_index_eq_none_iff]
      intro result hresult heq
      exact hnodup.2.2 _ (mem_map_of_mem hresult) _ (mem_singleton_self _) heq
    rw [foldlM_append, ih hnodup.1 fun r hr => h r (mem_append_left _ hr)]
    simp [addCoarse, hmcap, hscope, hfresh]

theorem addDense_loop (start : CameraMap) (hnodup : (dense.map (·.cameraId)).Nodup)
    (h : ∀ result ∈ dense, result.mcapId = mcapId ∧
      scope.startNs ≤ result.claim.observedInterval.startNs ∧
      result.claim.observedInterval.endNs ≤ scope.endNs)
    (hfull : ∀ cameraId, start.get? cameraId ≠ none) :
    ∃ cameraMap, dense.foldlM (addDense scope mcapId) ([], start) =
        .ok (dense.map (·.cameraId), cameraMap) ∧
      cameraMap.rows.map Prod.fst = start.rows.map Prod.fst ∧
      ∀ cameraId, cameraMap.get? cameraId =
        ((index (·.cameraId) dense).get? cameraId).or (start.get? cameraId) := by
  induction dense using reverseRecOn with
  | nil => exact ⟨start, rfl, rfl, fun _ => rfl⟩
  | append_singleton dense last ih =>
    rw [map_append, nodup_append] at hnodup
    obtain ⟨hmcap, hinside⟩ := h last (mem_append_right _ (mem_singleton_self _))
    have hfresh : last.cameraId ∉ dense.map (·.cameraId) := fun hmem =>
      hnodup.2.2 _ hmem _ (mem_singleton_self _) rfl
    obtain ⟨cameraMap, hloop, hkeys, hget⟩ := ih hnodup.1 fun r hr => h r (mem_append_left _ hr)
    refine ⟨cameraMap.set last.cameraId last, ?_, ?_, fun cameraId => ?_⟩
    · rw [foldlM_append, hloop]
      simp [addDense, hmcap, hinside, hfresh]
    · -- the camera was there, so that its entry keeps its place
      have hsome : cameraMap.get? last.cameraId ≠ none := by
        rw [hget, Ne, Option.or_eq_none_iff, not_and]
        exact fun _ => hfull _
      obtain ⟨v, hv⟩ := Option.ne_none_iff_exists'.mp hsome
      rw [Dict.keys_set cameraMap last hv, hkeys]
    · rw [Dict.index_append_singleton, get?_set, get?_set, hget]
      split <;> rfl

/-- The dense results take the places of all coarse ones. -/
theorem aggregateCameraResults_eq (h : SixResults scope mcapId coarse dense) :
    ∃ cameraMap : CameraMap,
      cameraMap.rows.map Prod.fst = coarse.map (·.cameraId) ∧
      (∀ cameraId, cameraMap.get? cameraId = (index (·.cameraId) dense).get? cameraId) ∧
      aggregateCameraResults mean policy coarse dense =
        summarize mean policy mcapId scope cameraMap (index (·.cameraId) coarse)
          (index (·.cameraId) dense) := by
  have hall : CameraId.all.Nodup := by decide
  have hcoarse : coarse.length = 6 := by simpa [CameraId.all] using h.coarseCameras.length_eq
  have hlength : dense.length = 6 := by simpa [CameraId.all] using h.denseCameras.length_eq
  have hempty : dense.isEmpty = false := by
    cases dense with
    | nil => cases hlength
    | cons => rfl
  have hnodup := h.coarseCameras.nodup_iff.mpr hall
  have hloop := addCoarse_loop hnodup fun r hr =>
    ⟨h.oneMcap r (mem_append_left _ hr), h.oneScope r hr⟩
  have hpresent : ∀ {results : List CameraQAResult},
      (results.map (·.cameraId)).Perm CameraId.all →
      ∀ cameraId, (index (·.cameraId) results).get? cameraId ≠ none := by
    intro results hcameras cameraId hnone
    obtain ⟨r, hr, rfl⟩ := mem_map.mp (hcameras.mem_iff.mpr (mem_all cameraId))
    exact Dict.get?_index_eq_none_iff.mp hnone r hr rfl
  obtain ⟨cameraMap, hdense, hkeys, hget⟩ := addDense_loop (index (·.cameraId) coarse)
    (h.denseCameras.nodup_iff.mpr hall) (fun r hr =>
      ⟨h.oneMcap r (mem_append_right _ hr), h.inside r hr⟩) (hpresent h.coarseCameras)
  have hmap : ∀ cameraId, cameraMap.get? cameraId =
      (index (·.cameraId) dense).get? cameraId := by
    intro cameraId
    obtain ⟨d, hd⟩ := Option.ne_none_iff_exists'.mp (hpresent h.denseCameras cameraId)
    rw [hget, hd]
    rfl
  have hfilled : CameraId.all.forM (fun cameraId => require (cameraMap.get? cameraId ≠ none)
      ("Missing QA result for camera " ++ cameraId.value)) = .ok () := by
    rw [forM_eq_ok_iff]
    intro cameraId _
    rw [require_eq_ok, hmap]
    exact hpresent h.denseCameras cameraId
  have htrue : ∀ message, require True message = .ok () := fun _ => rfl
  refine ⟨cameraMap, ?_, hmap, ?_⟩
  · rw [hkeys, Dict.rows_index hnodup, map_map]
    rfl
  · cases coarse with
    | nil => cases hcoarse
    | cons first rest =>
      unfold aggregateCameraResults
      simp only [hcoarse, h.oneScope first mem_cons_self,
        h.oneMcap first (mem_append_left _ mem_cons_self), hloop, hlength, hempty, htrue, ok_bind,
        Bool.false_eq_true, if_false, hdense, hfilled]

/-! ## The result -/

theorem overallStatusOf_usable_iff {results : List CameraQAResult} (h : results.length = 6) :
    overallStatusOf policy results = .usable ↔ ∀ result ∈ results, result.isUsable = true := by
  rw [← countP_eq_length, h]
  simp only [overallStatusOf]
  split
  · rename_i hincomplete
    refine iff_of_false (fun h => by cases h) fun hall => ?_
    obtain ⟨result, hresult, hstatus⟩ := countP_pos_iff.mp hincomplete.1
    have husable := countP_eq_length.mp (hall.trans h.symm) result hresult
    simp [CameraQAResult.isUsable, beq_iff_eq.mp hstatus] at husable
  · split
    · simp [*]
    · split <;> simp [*]

theorem idsOf_perm (h : SixResults scope mcapId coarse dense) :
    (idsOf (index (·.cameraId) dense)).Perm (dense.map (·.qaResultId)) := by
  have hnodup : (dense.map (·.cameraId)).Nodup := h.denseCameras.nodup_iff.mpr (by decide)
  refine (h.denseCameras.symm.filterMap _).trans (Perm.of_eq ?_)
  rw [filterMap_map, ← filterMap_eq_map]
  refine filterMap_congr fun d hd => ?_
  rw [Function.comp_apply, Dict.get?_index_of_mem hnodup hd]
  rfl

/-- The map is refused exactly where two dense results carry one id, and otherwise summarized. -/
theorem summarize_spec (mean : List Score → Score) (policy : QAAggregationPolicy)
    (h : SixResults scope mcapId coarse dense) {cameraMap : CameraMap}
    (hmap : ∀ cameraId, cameraMap.get? cameraId = (index (·.cameraId) dense).get? cameraId) :
    ((dense.map (·.qaResultId)).Nodup → ∃ result,
      summarize mean policy mcapId scope cameraMap (index (·.cameraId) coarse)
          (index (·.cameraId) dense) = .ok result ∧
        (result.overallStatus = .usable ↔ ∀ d ∈ dense, d.isUsable = true) ∧
        result.overallQuality = overallQualityOf mean policy cameraMap.values ∧
        result.modelScore = modelScoreOf mean cameraMap.values) ∧
    (¬ (dense.map (·.qaResultId)).Nodup →
      summarize mean policy mcapId scope cameraMap (index (·.cameraId) coarse)
          (index (·.cameraId) dense) =
        .error (.value "camera_result_ids must contain six unique results")) := by
  have hlength : dense.length = 6 := by simpa [CameraId.all] using h.denseCameras.length_eq
  have hnodup : (dense.map (·.cameraId)).Nodup := h.denseCameras.nodup_iff.mpr (by decide)
  have hvalues := Dict.values_perm hmap
  rw [values_index hnodup] at hvalues
  have hcount : cameraMap.values.countP (·.isUsable) ≤ 6 :=
    (countP_le_length).trans (hvalues.length_eq.trans hlength).le
  have hstatus : overallStatusOf policy cameraMap.values = overallStatusOf policy dense := by
    unfold overallStatusOf
    simp only [hvalues.countP_eq]
  have hids : idsOf cameraMap = idsOf (index (·.cameraId) dense) := by
    unfold idsOf
    simp only [hmap]
  have hperm := idsOf_perm h
  rw [← hids] at hperm
  have hsix : (idsOf cameraMap).length = 6 := by rw [hperm.length_eq, length_map, hlength]
  rw [← hperm.nodup_iff]
  unfold summarize validateCardinality
  refine ⟨fun hunique => ⟨_, bind_eq_ok.mpr ⟨(), ?_, rfl⟩, ?_, rfl, rfl⟩, fun hunique => ?_⟩
  · simp [hsix, hunique, hcount]
  · show overallStatusOf policy cameraMap.values = .usable ↔ _
    rw [hstatus]
    exact overallStatusOf_usable_iff hlength
  · simp [require, hsix, hunique]

/-- A recording is usable when the dense results are, whatever the coarse ones say. -/
theorem aggregate_usable_iff (mean : List Score → Score) (policy : QAAggregationPolicy)
    (h : SixResults scope mcapId coarse dense) :
    (∃ result, aggregateCameraResults mean policy coarse dense = .ok result ∧
        result.overallStatus = .usable) ↔
      (dense.map (·.qaResultId)).Nodup ∧ ∀ d ∈ dense, d.isUsable = true := by
  obtain ⟨cameraMap, -, hmap, hrun⟩ := aggregateCameraResults_eq h
  have hspec := summarize_spec mean policy h hmap
  rw [hrun]
  by_cases hunique : (dense.map (·.qaResultId)).Nodup
  · obtain ⟨result, hresult, hstatus, -⟩ := hspec.1 hunique
    rw [hresult]
    constructor
    · rintro ⟨_, ⟨⟩, husable⟩
      exact ⟨hunique, hstatus.mp husable⟩
    · exact fun hall => ⟨result, rfl, hstatus.mpr hall.2⟩
  · rw [hspec.2 hunique]
    exact iff_of_false (fun ⟨_, hok, _⟩ => (by cases hok)) fun hall => hunique hall.1

theorem filterMap_index_cameraId {cameras : List CameraId}
    (hcameras : cameras.Perm CameraId.all) (h : (coarse.map (·.cameraId)).Perm CameraId.all) :
    (cameras.filterMap (index (·.cameraId) coarse).get?).Perm coarse ∧
      (cameras.filterMap (index (·.cameraId) coarse).get?).map (·.cameraId) = cameras := by
  have hnodup : (coarse.map (·.cameraId)).Nodup := h.nodup_iff.mpr (by decide)
  constructor
  · refine ((hcameras.trans h.symm).filterMap _).trans (Perm.of_eq ?_)
    rw [filterMap_map]
    exact (filterMap_congr fun r hr => Dict.get?_index_of_mem hnodup hr).trans filterMap_some
  · rw [map_filterMap]
    refine (filterMap_congr fun cameraId _ => ?_).trans filterMap_some
    obtain ⟨r, hr, rfl⟩ := mem_map.mp (h.mem_iff.mpr (mem_all cameraId))
    rw [Dict.get?_index_of_mem hnodup hr]
    rfl

/-- The order of the results does not matter exactly where the means do not depend on it: the order
of the coarse results is the order in which the dense scores are added. -/
theorem ordered_iff (mean : List Score → Score) (policy : QAAggregationPolicy)
    (h : SixResults scope mcapId coarse dense) :
    (∀ coarse' dense', coarse.Perm coarse' → dense.Perm dense' →
      aggregateCameraResults mean policy coarse' dense' =
        aggregateCameraResults mean policy coarse dense) ↔
      ¬ (dense.map (·.qaResultId)).Nodup ∨ MeansAgree mean policy dense := by
  have hall : CameraId.all.Nodup := by decide
  have hnodup := h.denseCameras.nodup_iff.mpr hall
  obtain ⟨cameraMap, -, hmap, hrun⟩ := aggregateCameraResults_eq h
  have hspec := summarize_spec mean policy h hmap
  have hvalues := Dict.values_perm hmap
  rw [values_index hnodup] at hvalues
  constructor
  · intro hordered
    refine or_iff_not_imp_left.mpr fun hunique => ?_
    obtain ⟨result, hresult, -⟩ := hspec.1 (not_not.mp hunique)
    -- the coarse results in the order of the given dense ones
    have hany : ∀ dense', dense'.Perm dense →
        overallQualityOf mean policy dense' = result.overallQuality ∧
          modelScoreOf mean dense' = result.modelScore := by
      intro dense' hdense
      obtain ⟨hcoarse, hcameras⟩ := filterMap_index_cameraId
        ((hdense.map (·.cameraId)).trans h.denseCameras) h.coarseCameras
      have hsix := h.perm hcoarse.symm hdense.symm
      obtain ⟨cameraMap', hkeys', hmap', hrun'⟩ := aggregateCameraResults_eq hsix
      have hnodup' := hsix.denseCameras.nodup_iff.mpr hall
      have hsame : cameraMap' = index (·.cameraId) dense' := by
        refine Dict.ext_keys ?_ hmap'
        rw [hkeys', hcameras, Dict.rows_index hnodup', map_map]
        rfl
      obtain ⟨result', hresult', -, hquality', hscore'⟩ :=
        (summarize_spec mean policy hsix hmap').1
          ((hdense.map (·.qaResultId)).nodup_iff.mpr (not_not.mp hunique))
      have heq := hordered _ dense' hcoarse.symm hdense.symm
      rw [hrun', hresult', hrun, hresult] at heq
      cases heq
      rw [hsame, values_index hnodup'] at hquality' hscore'
      exact ⟨hquality'.symm, hscore'.symm⟩
    intro dense' hdense
    have hself := hany dense (.refl _)
    rw [hself.1, hself.2]
    exact hany dense' hdense
  · intro hcase coarse' dense' hcoarse hdense
    have hsix := h.perm hcoarse hdense
    obtain ⟨cameraMap', -, hmap', hrun'⟩ := aggregateCameraResults_eq hsix
    have hget := Dict.get?_index_perm hnodup hdense
    have hvalues' := Dict.values_perm hmap'
    rw [values_index (hsix.denseCameras.nodup_iff.mpr hall)] at hvalues'
    rw [hrun', hrun]
    rcases hcase with hdup | hmeans
    · have hdup' := mt (hdense.map (·.qaResultId)).nodup_iff.mpr hdup
      exact ((summarize_spec mean policy hsix hmap').2 hdup').trans (hspec.2 hdup).symm
    · have hmean := hmeans _ hvalues
      have hmean' := hmeans _ (hvalues'.trans hdense.symm)
      exact summarize_congr (fun cameraId => by rw [hmap', hmap, hget])
        (hmean'.1.trans hmean.1.symm) (hmean'.2.trans hmean.2.symm)
        (fun cameraId => (Dict.get?_index_perm (h.coarseCameras.nodup_iff.mpr hall) hcoarse
          cameraId).symm) fun cameraId => (hget cameraId).symm

/-- A usable recording is good throughout exactly when a dense result looked at the whole scope,
or the coarse result of its camera is usable; and the order of the results does not matter exactly
where the means do not depend on it. -/
theorem aggregates_soundly_iff (mean : List Score → Score) (policy : QAAggregationPolicy)
    (h : SixResults scope mcapId coarse dense) :
    AggregatesSoundly mean policy scope coarse dense ↔
      ¬ (dense.map (·.qaResultId)).Nodup ∨ MeansAgree mean policy dense ∧
        ((∃ d ∈ dense, d.isUsable = false) ∨
          ∀ r ∈ coarse, ∀ d ∈ dense, r.cameraId = d.cameraId →
            d.claim.observedInterval = scope ∨ r.isUsable = true) := by
  have husable := aggregate_usable_iff mean policy h
  have hordered := ordered_iff mean policy h
  by_cases hunique : (dense.map (·.qaResultId)).Nodup
  · simp only [hunique, not_true_eq_false, false_or] at hordered ⊢
    by_cases hall : ∀ d ∈ dense, d.isUsable = true
    · obtain ⟨result, hresult, hstatus⟩ := husable.mpr ⟨hunique, hall⟩
      have hgood := goodThroughout_iff h hall
      constructor
      · exact fun hsound => ⟨hordered.mp hsound.ordered,
          .inr (hgood.mp (hsound.covered result hresult hstatus))⟩
      · rintro ⟨hmeans, ⟨d, hd, hfalse⟩ | hcase⟩
        · rw [hall d hd] at hfalse
          cases hfalse
        · exact ⟨fun _ _ _ => hgood.mpr hcase, hordered.mpr hmeans⟩
    · have hsome : ∃ d ∈ dense, d.isUsable = false := by simpa using hall
      exact ⟨fun hsound => ⟨hordered.mp hsound.ordered, .inl hsome⟩, fun hcase =>
        ⟨fun result hresult hstatus => absurd (husable.mp ⟨result, hresult, hstatus⟩).2 hall,
          hordered.mpr hcase.1⟩⟩
  · exact iff_of_true ⟨fun result hresult hstatus =>
      absurd (husable.mp ⟨result, hresult, hstatus⟩).1 hunique, hordered.mpr (.inl hunique)⟩
      (.inl hunique)

/-! ## A short look -/

/-- The local development policy. -/
def localDevelopment : QAAggregationPolicy where
  version := "local-development-v1"
  degradedMinUsable := 4
  incompleteIsBlocking := true
  statusQuality
    | .good => ⟨1, by norm_num, by norm_num⟩
    | .degraded => ⟨1 / 2, by norm_num, by norm_num⟩
    | .unusable | .unknown | .incomplete => ⟨0, by norm_num, by norm_num⟩
  promotionEligible := false
  version_nonempty := by decide
  degradedMinUsable_bounds := by decide
  not_promotable := rfl

theorem scope_lower : int64Min ≤ 0 := by decide

theorem scope_upper : (10 : Int) ≤ int64Max := by decide

theorem scope_nonempty : (0 : Int) < 10 := by decide

theorem look_upper : (1 : Int) ≤ int64Max := by decide

def wholeScope : NanosecondInterval := ⟨0, 10, scope_lower, scope_upper, scope_nonempty⟩

def firstLook : NanosecondInterval := ⟨0, 1, scope_lower, look_upper, Int.zero_lt_one⟩

/-- Results of one status from the six cameras. -/
def sixOver (stage : String) (status : CameraQAStatus) (interval : NanosecondInterval) :
    List CameraQAResult :=
  CameraId.all.map fun cameraId =>
    { qaResultId := stage ++ cameraId.value
      mcapId := "mcap"
      cameraId := cameraId
      claim := ⟨interval, status, none⟩ }

theorem short_look_six : SixResults wholeScope "mcap" (sixOver "coarse" .unusable wholeScope)
    (sixOver "dense" .good firstLook) := by
  constructor <;> decide

theorem long_look_six : SixResults wholeScope "mcap" (sixOver "coarse" .unusable wholeScope)
    (sixOver "dense" .good wholeScope) := by
  constructor <;> decide

/-- The mean of scores that are all the same. -/
def commonScore (scores : List Score) : Score := scores.head?.getD ⟨0, by norm_num, by norm_num⟩

theorem good_meansAgree (interval : NanosecondInterval) :
    MeansAgree commonScore localDevelopment (sixOver "dense" .good interval) := by
  intro dense' hperm
  have hscores := hperm.map fun result => localDevelopment.statusQuality result.claim.status
  have hreported := hperm.filterMap (·.claim.reportedScore)
  unfold overallQualityOf modelScoreOf
  rw [perm_replicate.mp (hscores.trans (.of_eq (show _ = replicate 6 _ from rfl))),
    perm_nil.mp (hreported.trans (.of_eq (show _ = [] from rfl)))]
  exact ⟨rfl, rfl⟩

/-- A clean look at the whole scope may override six unusable coarse results, a look at the first
nanosecond may not. -/
theorem aggregates_soundly_looks :
    AggregatesSoundly commonScore localDevelopment wholeScope
      (sixOver "coarse" .unusable wholeScope) (sixOver "dense" .good wholeScope) ∧
    ¬ AggregatesSoundly commonScore localDevelopment wholeScope
      (sixOver "coarse" .unusable wholeScope) (sixOver "dense" .good firstLook) :=
  ⟨(aggregates_soundly_iff commonScore localDevelopment long_look_six).mpr
      (.inr ⟨good_meansAgree _, .inr (by decide)⟩),
    mt (aggregates_soundly_iff commonScore localDevelopment short_look_six).mp
      (not_or.mpr ⟨by decide, fun h => absurd h.2 (by decide)⟩)⟩

/-- A clean look at the first nanosecond hides six unusable coarse results. -/
theorem short_look_hides_coarse :
    ¬ ∀ (policy : QAAggregationPolicy) (scope : NanosecondInterval) (mcapId : OpaqueUuid)
      (coarse dense : List CameraQAResult), SixResults scope mcapId coarse dense →
        AggregatesSoundly commonScore policy scope coarse dense := by
  intro h
  obtain ⟨result, hresult, hstatus⟩ :=
    (aggregate_usable_iff commonScore localDevelopment short_look_six).mpr (by decide)
  have hgood := (h _ _ _ _ _ short_look_six).covered result hresult hstatus
  have hcam := mem_all .cam01
  rcases hgood _ (mem_map_of_mem hcam) _ (mem_map_of_mem hcam) rfl 5 (by decide) (by decide)
    with ⟨⟨-, hlt⟩, -⟩ | ⟨-, hcoarse⟩
  · exact absurd hlt (by decide)
  · cases hcoarse

end Robata.QaPipeline
