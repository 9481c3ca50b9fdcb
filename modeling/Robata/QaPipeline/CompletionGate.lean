import Robata.Lib.Aligned
import Robata.QaPipeline.Completion
import Robata.QaPipeline.PlannedUnits

/-!
# The completion gate over a plan

What the planner, the dense projector and the completion projector make of one coarse result fits
together: none of them refuses what another has made, and QA is complete only where every instant
of every suspicious interval has been seen again with all six cameras good.
-/

namespace Robata.QaPipeline

open Contracts Lib List

/-! ## Filing the evidence -/

@[simp] theorem requireProjection_bind_eq_ok {condition : Prop} [Decidable condition]
    {message : String} {α : Type} {rest : Unit → Except QAError α} {a : α} :
    (requireProjection condition message >>= rest) = .ok a ↔ condition ∧ rest () = .ok a := by
  unfold requireProjection
  by_cases h : condition <;> simp [h]

theorem revalidated_bind_eq_ok {failure : QAError} {x : Except QAError Unit} {α : Type}
    {rest : Unit → Except QAError α} {a : α} :
    (revalidated failure x >>= rest) = .ok a ↔ x = .ok () ∧ rest () = .ok a := by
  cases x with
  | error e | ok u => simp [revalidated]

variable {filed : List DenseQAUnitEvidence}

theorem fileEvidence_eq_ok {values all : List DenseQAUnitEvidence}
    (hfiled : (filed.map (·.unitId)).Nodup) :
    fileEvidence filed values = .ok all ↔ all = filed ++ values ∧
      (∀ e ∈ values, e.modelValidate = .ok ()) ∧ (all.map (·.unitId)).Nodup := by
  induction values generalizing filed with
  | nil =>
    simp only [fileEvidence, Except.ok.injEq, append_nil, not_mem_nil, false_implies,
      implies_true, true_and]
    constructor
    · rintro rfl
      exact ⟨rfl, hfiled⟩
    · exact fun h => h.1.symm
  | cons e rest ih =>
    unfold fileEvidence
    rw [revalidated_bind_eq_ok, requireProjection_bind_eq_ok, forall_mem_cons]
    have happend : (filed ++ [e]) ++ rest = filed ++ e :: rest := by simp
    constructor
    · rintro ⟨hvalid, hnew, hrun⟩
      have hnodup : ((filed ++ [e]).map (·.unitId)).Nodup := by
        rw [map_append, map_cons]
        exact nodup_append.mpr ⟨hfiled, nodup_singleton _, fun a ha b hb hab =>
          hnew (mem_singleton.mp hb ▸ hab ▸ ha)⟩
      obtain ⟨hall, hrest, hunique⟩ := (ih hnodup).mp hrun
      exact ⟨hall.trans happend, ⟨hvalid, hrest⟩, hunique⟩
    · rintro ⟨hall, ⟨hvalid, hrest⟩, hunique⟩
      have hsub : ((filed ++ [e]).map (·.unitId)).Nodup := by
        rw [hall, ← happend, map_append] at hunique
        exact (nodup_append.mp hunique).1
      refine ⟨hvalid, ?_, (ih hsub).mpr ⟨hall.trans happend.symm, hrest, hunique⟩⟩
      rw [map_append] at hsub
      intro hmem
      exact (nodup_append.mp hsub).2.2 _ hmem _ (mem_singleton_self _) rfl

variable {e : DenseQAUnitEvidence}

theorem evidenceOf_eq_ok {unitId : OpaqueUuid} (hnodup : (filed.map (·.unitId)).Nodup) :
    evidenceOf filed unitId = .ok e ↔ e ∈ filed ∧ e.unitId = unitId := by
  unfold evidenceOf
  constructor
  · intro h
    cases hfind : filed.find? fun evidence => evidence.unitId == unitId with
    | none =>
      rw [hfind] at h
      cases h
    | some found =>
      rw [hfind] at h
      cases h
      exact ⟨mem_of_find?_eq_some hfind, by simpa using find?_some hfind⟩
  · rintro ⟨hmem, rfl⟩
    cases hfind : filed.find? fun evidence => evidence.unitId == e.unitId with
    | none => exact absurd (find?_eq_none.mp hfind e hmem) (by simp)
    | some found =>
      have hid : found.unitId = e.unitId := by simpa using find?_some hfind
      have hsame := inj_on_of_nodup_map hnodup (mem_of_find?_eq_some hfind) hmem hid
      rw [hsame]

/-- The evidence of the units does not depend on the order in which it was filed. -/
theorem evidenceOf_perm {filed' : List DenseQAUnitEvidence} (hnodup : (filed.map (·.unitId)).Nodup)
    (hperm : filed.Perm filed') {unitId : OpaqueUuid} (hmem : unitId ∈ filed.map (·.unitId)) :
    evidenceOf filed' unitId = evidenceOf filed unitId := by
  obtain ⟨e, he, rfl⟩ := mem_map.mp hmem
  have hnodup' : (filed'.map (·.unitId)).Nodup := (hperm.map _).nodup_iff.mp hnodup
  rw [(evidenceOf_eq_ok hnodup).mpr ⟨he, rfl⟩, evidenceOf_eq_ok hnodup']
  exact ⟨hperm.mem_iff.mp he, rfl⟩

theorem mapM_congr {α β ε : Type} {f g : α → Except ε β} {l : List α}
    (h : ∀ a ∈ l, f a = g a) : l.mapM f = l.mapM g := by
  induction l with
  | nil => rfl
  | cons a rest ih =>
    rw [mapM_cons, mapM_cons, h a mem_cons_self, ih fun b hb => h b (mem_cons_of_mem _ hb)]

variable {H : Hashing} {version : SchemaVersion} {manifest : DenseQAWorkManifest}

variable {dense : DenseQAResult}

theorem projectDense_of_perm {evidence evidence' : List DenseQAUnitEvidence}
    (hperm : evidence.Perm evidence') (h : projectDense H version manifest evidence = .ok dense) :
    projectDense H version manifest evidence' = .ok dense := by
  unfold projectDense at h ⊢
  rw [revalidated_bind_eq_ok, requireProjection_bind_eq_ok, requireProjection_bind_eq_ok,
    bind_eq_ok] at h ⊢
  obtain ⟨hmanifest, houtcome, hversion, filed, hfiled, h⟩ := h
  rw [fileEvidence_eq_ok (by simp)] at hfiled
  obtain ⟨rfl, hvalid, hnodup⟩ := hfiled
  obtain ⟨hcover, h⟩ := requireProjection_bind_eq_ok.mp h
  refine ⟨hmanifest, houtcome, hversion, evidence', ?_, ?_⟩
  · rw [fileEvidence_eq_ok (by simp)]
    exact ⟨rfl, fun e he => hvalid e (hperm.mem_iff.mpr he), (hperm.map _).nodup_iff.mp hnodup⟩
  · rw [requireProjection_bind_eq_ok]
    refine ⟨⟨fun e he => hcover.1 e (hperm.mem_iff.mpr he), fun unit hunit =>
      (hperm.map _).mem_iff.mp (hcover.2 unit hunit)⟩, ?_⟩
    rw [mapM_congr]
    · exact h
    · intro unit hunit
      rw [evidenceOf_perm hnodup hperm (hcover.2 unit hunit)]

/-! ## What a dense result is bound to -/

/-- The result of one unit: valid evidence whose packages begin and end with the unit. -/
structure UnitMade (H : Hashing) (version : SchemaVersion) (mcapId : String)
    (unit : DenseQAWorkUnit) (result : DenseQAUnitResult) : Prop where
  identity : result.workUnitId = unit.unitId ∧ result.workUnitSemanticDigest = unit.semanticDigest
  evidence : result.evidence.modelValidate = .ok ()
  starts : result.evidence.packages.head?.map (·.interval.startNs) =
    some unit.effectiveInterval.startNs
  ends : result.evidence.packages.getLast?.map (·.interval.endNs) =
    some unit.effectiveInterval.endNs
  status : result.status = denseStatus result.evidence.packageCameraResults
  valid : result.validateResult H = .ok ()

theorem projectUnit_eq_ok {mcapId : String} {unit : DenseQAWorkUnit} {result : DenseQAUnitResult}
    (he : e.modelValidate = .ok ()) (h : projectUnit H version mcapId unit e = .ok result) :
    UnitMade H version mcapId unit result := by
  unfold projectUnit at h
  rw [requireProjection_bind_eq_ok, requireProjection_bind_eq_ok] at h
  obtain ⟨-, ⟨hstart, hend⟩, h⟩ := h
  obtain ⟨_, -, h⟩ := bind_eq_ok.mp h
  obtain ⟨_, hvalid, h⟩ := bind_eq_ok.mp h
  cases h
  exact ⟨⟨rfl, rfl⟩, he, hstart, hend, rfl, hvalid⟩

variable (H version manifest dense) in
/-- A dense result that `DenseQAProjector` has made for a manifest. -/
structure DenseMade : Prop where
  required : manifest.outcome = .denseRequired
  binding : dense.mcapId = manifest.mcapId ∧
    dense.coarseResultDigest = manifest.coarseResultDigest ∧
    dense.workManifestId = manifest.manifestId ∧
    dense.workManifestDigest = manifest.semanticDigest ∧
    dense.policyVersion = manifest.policyVersion
  units : List.Forall₂ (UnitMade H version manifest.mcapId) manifest.units dense.units
  status : dense.status = aggregateStatus dense.units
  valid : dense.validateResult H = .ok ()

theorem projectDense_eq_ok {evidence : List DenseQAUnitEvidence}
    (h : projectDense H version manifest evidence = .ok dense) :
    DenseMade H version manifest dense := by
  unfold projectDense at h
  rw [revalidated_bind_eq_ok, requireProjection_bind_eq_ok, requireProjection_bind_eq_ok,
    bind_eq_ok] at h
  obtain ⟨-, houtcome, hversion, filed, hfiled, h⟩ := h
  rw [fileEvidence_eq_ok (by simp)] at hfiled
  obtain ⟨rfl, hvalid, hnodup⟩ := hfiled
  rw [requireProjection_bind_eq_ok, bind_eq_ok] at h
  obtain ⟨-, units, hunits, h⟩ := h
  obtain ⟨_, -, h⟩ := bind_eq_ok.mp h
  obtain ⟨_, hresult, h⟩ := bind_eq_ok.mp h
  cases h
  refine ⟨houtcome, ⟨rfl, rfl, rfl, rfl, hversion.symm⟩, ?_, rfl, hresult⟩
  refine (mapM_forall₂ hunits).imp ?_
  intro unit result hmade
  obtain ⟨e, he, hproject⟩ := bind_eq_ok.mp hmade
  exact projectUnit_eq_ok (hvalid e ((evidenceOf_eq_ok hnodup).mp he).1) hproject

theorem DenseMade.modelValidate (h : DenseMade H version manifest dense) :
    dense.modelValidate H = .ok () := by
  have hparts : (dense.units.forM fun unit => do
      unit.evidence.modelValidate
      unit.validateResult H) = .ok () := by
    rw [forM_eq_ok_iff]
    intro result hresult
    obtain ⟨unit, -, hmade⟩ := exists_left_of_forall₂ h.units result hresult
    rw [hmade.evidence, ok_bind, hmade.valid]
  unfold DenseQAResult.modelValidate
  rw [hparts, ok_bind, h.valid]

/-- A dense result has a digest, so its integers have canonical JSON. -/
theorem DenseMade.exact (h : DenseMade H version manifest dense) (hhash : H.Rfc8785) :
    ∀ n ∈ dense.ordinals, n ≤ exactLimit := by
  have hvalid := h.valid
  unfold DenseQAResult.validateResult at hvalid
  simp only [require_bind_eq_ok] at hvalid
  obtain ⟨-, -, -, -, hvalid⟩ := hvalid
  obtain ⟨digest, hdigest, -⟩ := bind_eq_ok.mp hvalid
  exact hhash.digest_iff.mp ⟨digest, hdigest⟩

/-- Every observation of every unit is good. -/
def DenseQAResult.AllGood (dense : DenseQAResult) : Prop :=
  ∀ unit ∈ dense.units, ∀ item ∈ unit.evidence.packageCameraResults, item.localStatus = .good

theorem packageCameraResults_ne_nil (h : e.modelValidate = .ok ()) : e.packages ≠ [] ∧
    (e.packages.IsChain fun previous current =>
      current.interval.startNs ≤ previous.interval.endNs) ∧
    (∀ package ∈ e.packages, ∀ cameraId, ∃ item ∈ e.packageCameraResults,
      item.packageOrdinal = package.ordinal ∧ item.cameraId = cameraId) ∧
    e.packageCameraResults ≠ [] := by
  obtain ⟨_, -, h⟩ := bind_eq_ok.mp h
  obtain ⟨_, -, h⟩ := bind_eq_ok.mp h
  unfold DenseQAUnitEvidence.validateEvidence at h
  simp only [require_bind_eq_ok] at h
  obtain ⟨hpackages, -, -, -, hchain, -, -, hcoordinates, -⟩ := h
  have hcovered : ∀ package ∈ e.packages, ∀ cameraId, ∃ item ∈ e.packageCameraResults,
      item.packageOrdinal = package.ordinal ∧ item.cameraId = cameraId := by
    intro package hpackage cameraId
    have hmem : (package.ordinal, cameraId) ∈
        e.packageCameraResults.map fun item => (item.packageOrdinal, item.cameraId) := by
      rw [hcoordinates, mem_flatMap]
      exact ⟨package, hpackage, mem_map_of_mem (CameraId.mem_all cameraId)⟩
    obtain ⟨item, hitem, hpair⟩ := mem_map.mp hmem
    rw [Prod.mk.injEq] at hpair
    exact ⟨item, hitem, hpair⟩
  refine ⟨hpackages, hchain.imp fun _ _ hstep => hstep.2.2, hcovered, ?_⟩
  obtain ⟨package, hpackage⟩ := exists_mem_of_ne_nil _ hpackages
  obtain ⟨item, hitem, -⟩ := hcovered package hpackage .cam01
  exact ne_nil_of_mem hitem

theorem DenseMade.complete_iff (h : DenseMade H version manifest dense) :
    dense.status = .complete ↔ dense.AllGood := by
  have hunit : ∀ unit ∈ dense.units, unit.status = .complete ↔
      ∀ item ∈ unit.evidence.packageCameraResults, item.localStatus = .good := by
    intro result hresult
    obtain ⟨unit, -, hmade⟩ := exists_left_of_forall₂ h.units result hresult
    have hne := (packageCameraResults_ne_nil hmade.evidence).2.2.2
    rw [hmade.status]
    unfold denseStatus
    by_cases hall : ∀ item ∈ result.evidence.packageCameraResults, item.localStatus = .good
    · simp [hne]
    · simp [hall]
  rw [h.status]
  unfold aggregateStatus
  by_cases hall : ∀ unit ∈ dense.units, unit.status = .complete
  · rw [if_pos hall]
    simp only [true_iff]
    exact fun unit hmem => (hunit unit hmem).mp (hall unit hmem)
  · rw [if_neg hall]
    simp only [reduceCtorEq, false_iff]
    exact fun hgood => hall fun unit hmem => (hunit unit hmem).mpr (hgood unit hmem)

/-! ## Instants that have been seen again -/

/-- Some package of the evidence covers the instant, and all six cameras are good in it. -/
def SeenGood (e : DenseQAUnitEvidence) (t : Int) : Prop :=
  ∃ package ∈ e.packages, package.interval.startNs ≤ t ∧ t < package.interval.endNs ∧
    ∀ item ∈ e.packageCameraResults, item.packageOrdinal = package.ordinal →
      item.localStatus = .good

variable {t : Int}

theorem UnitMade.covers {mcapId : String} {unit : DenseQAWorkUnit} {result : DenseQAUnitResult}
    (h : UnitMade H version mcapId unit result) (hstart : unit.effectiveInterval.startNs ≤ t)
    (hend : t < unit.effectiveInterval.endNs) :
    ∃ package ∈ result.evidence.packages,
      package.interval.startNs ≤ t ∧ t < package.interval.endNs := by
  obtain ⟨hne, hchain, -, -⟩ := packageCameraResults_ne_nil h.evidence
  have hstarts := h.starts
  have hends := h.ends
  generalize result.evidence.packages = packages at hne hchain hstarts hends ⊢
  cases packages with
  | nil => exact absurd rfl hne
  | cons first rest =>
    rw [head?_cons, Option.map_some, Option.some.injEq] at hstarts
    rw [getLast?_eq_some_getLast hne, Option.map_some, Option.some.injEq] at hends
    exact exists_mem_of_chain (fun p : DenseQAPackageRef => p.interval.startNs)
      (·.interval.endNs) hchain (hstarts ▸ hstart) (hends ▸ hend)

/-! ## The status of the gate -/

/-- The status that the gate comes to from the coarse status and the dense result. -/
def gateStatus : CoarseQAStatus → Option DenseQAResult → QACompletionStatus
  | .complete, _ => .qaComplete
  | .incomplete, _ => .qaIncomplete
  | .requiresDense, none => .denseRequired
  | .requiresDense, some dense => if dense.status = .complete then .qaComplete else .qaIncomplete

variable {coverage : List CoarseQAObservationRef} {denseResult : Option DenseQAResult}

theorem completionStatus_eq {status : CoarseQAStatus}
    (h : resultStatus (coverage.map (·.localStatus)) = .ok status)
    (hdense : denseResult = none ∨ status = .requiresDense) :
    completionStatus coverage denseResult none = .ok (gateStatus status denseResult) := by
  unfold resultStatus at h
  unfold completionStatus
  by_cases hunknown : CameraQAStatus.unknown ∈ coverage.map (·.localStatus)
  · rw [if_pos hunknown] at h ⊢
    cases h
    have hnone : denseResult = none := hdense.resolve_right (by decide)
    rw [if_neg (by simp [hnone])]
    rfl
  rw [if_neg hunknown] at h ⊢
  by_cases hsuspicious : CameraQAStatus.degraded ∈ coverage.map (·.localStatus) ∨
      CameraQAStatus.unusable ∈ coverage.map (·.localStatus)
  · rw [if_pos hsuspicious] at h ⊢
    cases h
    cases denseResult with
    | none | some dense => rfl
  rw [if_neg hsuspicious] at h ⊢
  by_cases hgood : coverage.map (·.localStatus) ≠ [] ∧
      ∀ status ∈ coverage.map (·.localStatus), status = .good
  · rw [if_pos hgood] at h ⊢
    cases h
    have hnone : denseResult = none := hdense.resolve_right (by decide)
    rw [if_neg (by simp [hnone])]
    rfl
  · rw [if_neg hgood] at h
    cases h

/-! ## The final aggregate -/

theorem canonicalCoordinates_camera (packages : Nat) (cameraId : CameraId) :
    ((canonicalCoordinates packages).filter fun c => c.2 == cameraId).map Prod.fst =
      List.range packages := by
  unfold canonicalCoordinates
  rw [filter_flatMap, map_flatMap]
  have hone : ∀ ordinal : Nat, ((CameraId.all.map fun c => (ordinal, c)).filter
      fun c => c.2 == cameraId).map Prod.fst = [ordinal] := by
    cases cameraId <;> simp [CameraId.all]
  simp only [hone]
  simp

theorem observations_of_camera {packages : Nat}
    (hcoverage : coverage.map (fun ref => (ref.packageOrdinal, ref.cameraId)) =
      canonicalCoordinates packages) (cameraId : CameraId) :
    (coverage.filter (·.cameraId == cameraId)).map (·.packageOrdinal) = List.range packages := by
  rw [← canonicalCoordinates_camera packages cameraId, ← hcoverage, filter_map, map_map]
  rfl

/-- The observations of one camera, with the dense ones. -/
def cameraResult (coverage : List CoarseQAObservationRef) (denseResult : Option DenseQAResult)
    (policyVersion : SchemaVersion) (cameraId : CameraId) : CameraFinalQAResult where
  cameraId := cameraId
  observations := coverage.filter (·.cameraId == cameraId)
  denseObservations := (denseObservations denseResult).filter (·.cameraId == cameraId)
  policyVersion := policyVersion

/-- The aggregate of a coverage and a dense result that are good. -/
def aggregateOf (coverage : List CoarseQAObservationRef) (denseResult : Option DenseQAResult)
    (policyVersion : SchemaVersion) : QACompletionAggregate where
  cameraResults := CameraId.all.map (cameraResult coverage denseResult policyVersion)
  policyVersion := policyVersion

theorem finalAggregate_completes {packages : Nat} {policyVersion : SchemaVersion} (hpos : packages ≠ 0)
    (hcoverage : coverage.map (fun ref => (ref.packageOrdinal, ref.cameraId)) =
      canonicalCoordinates packages)
    (hgood : ∀ dense ∈ denseResult, dense.AllGood) :
    finalAggregate coverage denseResult policyVersion =
      .ok (aggregateOf coverage denseResult policyVersion) := by
  have hdense : ∀ item ∈ denseObservations denseResult, item.localStatus = .good := by
    intro item hitem
    cases denseResult with
    | none => cases hitem
    | some dense =>
      obtain ⟨unit, hunit, hmem⟩ := mem_flatMap.mp hitem
      exact hgood dense rfl unit hunit item hmem
  have hcamera : ∀ cameraId,
      (cameraResult coverage denseResult policyVersion cameraId).validateCamera = .ok () := by
    intro cameraId
    have hordinals := observations_of_camera hcoverage cameraId
    have hlength : (coverage.filter (·.cameraId == cameraId)).length = packages := by
      have hlength := congrArg List.length hordinals
      rwa [length_map, length_range] at hlength
    unfold CameraFinalQAResult.validateCamera
    simp only [require_bind_eq_ok, require_eq_ok]
    refine ⟨?_, ?_, ?_, ?_⟩
    · intro hnil
      have hnil : (coverage.filter (·.cameraId == cameraId)) = [] := hnil
      rw [hnil] at hlength
      exact hpos hlength.symm
    · intro item hitem
      exact beq_iff_eq.mp (mem_filter.mp hitem).2
    · show (coverage.filter (·.cameraId == cameraId)).map (·.packageOrdinal) =
        List.range (coverage.filter (·.cameraId == cameraId)).length
      rw [hlength, hordinals]
    · intro item hitem
      obtain ⟨hmem, hsame⟩ := mem_filter.mp hitem
      exact ⟨beq_iff_eq.mp hsame, hdense item hmem⟩
  have hcameras : (CameraId.all.mapM fun cameraId => do
      let camera := cameraResult coverage denseResult policyVersion cameraId
      camera.validateCamera
      pure camera) = .ok (CameraId.all.map (cameraResult coverage denseResult policyVersion)) := by
    apply mapM_of_forall
    intro cameraId _
    show ((cameraResult coverage denseResult policyVersion cameraId).validateCamera >>= _) = _
    rw [hcamera]
    rfl
  have haggregate : (aggregateOf coverage denseResult policyVersion).validateAggregate = .ok () := by
    unfold QACompletionAggregate.validateAggregate
    rw [require_bind_eq_ok, require_eq_ok]
    refine ⟨by rfl, ?_⟩
    intro camera hcamera'
    obtain ⟨cameraId, -, rfl⟩ := mem_map.mp hcamera'
    rfl
  show ((CameraId.all.mapM fun cameraId => do
      let camera := cameraResult coverage denseResult policyVersion cameraId
      camera.validateCamera
      pure camera) >>= _) = _
  rw [hcameras]
  show ((aggregateOf coverage denseResult policyVersion).validateAggregate >>= _) = _
  rw [haggregate]
  rfl

/-! ## The completion -/

/-- The dense result is one that the projector has made for the manifest, if there is one. -/
def MadeFor (H : Hashing) (manifest : DenseQAWorkManifest) (denseResult : Option DenseQAResult) :
    Prop :=
  ∀ dense ∈ denseResult, ∃ version evidence, projectDense H version manifest evidence = .ok dense

theorem DenseMade.validateBinding (h : DenseMade H version manifest dense) :
    validateDenseResultBinding manifest (some dense) = .ok () := by
  have hunits : dense.units.map (fun unit => (unit.workUnitId, unit.workUnitSemanticDigest)) =
      manifest.units.map fun unit => (unit.unitId, unit.semanticDigest) := by
    have hall := h.units
    generalize manifest.units = planned at hall
    generalize dense.units = units at hall
    induction hall with
    | nil => rfl
    | cons hfirst _ ih =>
      rw [map_cons, map_cons, ih, hfirst.identity.1, hfirst.identity.2]
  unfold validateDenseResultBinding
  rw [if_neg (by rw [h.required]; decide)]
  simp only [require_bind_eq_ok, require_eq_ok]
  exact ⟨h.binding, hunits⟩

theorem MadeFor.validateBinding (h : MadeFor H manifest denseResult) :
    validateDenseResultBinding manifest denseResult = .ok () := by
  cases denseResult with
  | none =>
    unfold validateDenseResultBinding
    by_cases houtcome : manifest.outcome = .denseRequired
    · rw [if_neg (not_not.mpr houtcome)]
    · rw [if_pos houtcome, require_eq_ok]
  | some dense =>
    obtain ⟨version, evidence, hmade⟩ := h dense rfl
    exact (projectDense_eq_ok hmade).validateBinding

/-- What the gate starts from: a valid coarse result whose output references are in canonical
order and whose integers have canonical JSON, and its coverage. -/
structure GateInput (policy : DenseQAPlanningPolicy) (bounds : Option NanosecondInterval)
    (coarse : CoarseQAResult) (coverage : List CoarseQAObservationRef) : Prop where
  valid : coarse.Valid
  ordered : (coarse.sourceOutputs.map (·.artifactId)).Pairwise (· < ·)
  exact : (SemanticProjection.coarseResult coarse).Exact
  refs : coarse.packageCameraResults.map (·.ref?) = coverage.map some
  fits : ∀ ref ∈ coverage, policy.Fits bounds ref.interval

section Gate

variable {policy : DenseQAPlanningPolicy} {bounds : Option NanosecondInterval}
  {coarse : CoarseQAResult} {coverage : List CoarseQAObservationRef}
  {denseResult : Option DenseQAResult}

section

variable (h : GateInput policy bounds coarse coverage)
include h

theorem GateInput.coordinates : coverage.map (fun ref => (ref.packageOrdinal, ref.cameraId)) =
      canonicalCoordinates coarse.packageIds.length := by
  rw [← h.valid.checked.coordinates]
  exact map_of_refs h.refs fun item ref href => by
    rw [(ref?_keeps href).2.1, (ref?_keeps href).2.2.1]

theorem GateInput.statuses :
    coverage.map (·.localStatus) = coarse.packageCameraResults.map (·.localStatus) :=
  map_of_refs h.refs fun _ _ href => (ref?_keeps href).2.2.2.1

theorem GateInput.status :
    resultStatus (coverage.map (·.localStatus)) = .ok coarse.localStatus := by
  rw [h.statuses]
  exact h.valid.checked.status

theorem GateInput.packages_ne_zero : coarse.packageIds.length ≠ 0 := by
  rw [Ne, length_eq_zero_iff]
  exact h.valid.checked.packages.1

end

theorem Planned.required_iff (h : Planned H policy bounds coarse coverage manifest) :
    manifest.outcome = .denseRequired ↔ coarse.localStatus = .requiresDense := by
  rw [h.outcome]
  cases coarse.localStatus <;> simp [planOutcome]

theorem MadeFor.required (h : MadeFor H manifest (some dense)) :
    manifest.outcome = .denseRequired := by
  obtain ⟨version, evidence, hmade⟩ := h dense rfl
  exact (projectDense_eq_ok hmade).required

theorem Planned.none_or_required (hplanned : Planned H policy bounds coarse coverage manifest)
    (h : MadeFor H manifest denseResult) :
    denseResult = none ∨ coarse.localStatus = .requiresDense := by
  cases denseResult with
  | none => exact .inl rfl
  | some dense => exact .inr (hplanned.required_iff.mp h.required)

variable (coverage) in
theorem suspiciousItems_sources : (suspiciousItems coverage).map (·.source) =
      coverage.filter fun ref => ref.localStatus.isSuspicious := by
  unfold suspiciousItems
  rw [map_map]
  exact map_id _

theorem gateStatus_complete_iff {status : CoarseQAStatus} :
    gateStatus status denseResult = .qaComplete ↔ status = .complete ∨
      (status = .requiresDense ∧ ∃ dense ∈ denseResult, dense.status = .complete) := by
  cases status with
  | complete | incomplete => simp [gateStatus]
  | requiresDense =>
    cases denseResult with
    | none | some dense => simp [gateStatus]

def completionValues (policy : DenseQAPlanningPolicy) (coarse : CoarseQAResult)
    (coverage : List CoarseQAObservationRef) (manifest : DenseQAWorkManifest)
    (denseResult : Option DenseQAResult) (coarseDigest : Sha256Digest) :
    QACompletionProjection where
  packageSetId := coarse.packageSetId
  mcapId := coarse.mcapId
  inputPlanId := coarse.inputPlanId
  inputPlanSemanticSha256 := coarse.inputPlanSemanticSha256
  packageIds := coarse.packageIds
  coarseResultSemanticSha256 := coarseDigest
  coarsePolicyVersion := coarse.policyVersion
  sourceOutputs := coarse.sourceOutputs
  coarseCoverage := coverage
  denseWorkManifest := manifest
  denseResult := denseResult
  denseFailureCode := none
  finalAggregate := if gateStatus coarse.localStatus denseResult = .qaComplete then
    some (aggregateOf coverage denseResult policy.version) else none
  status := gateStatus coarse.localStatus denseResult
  policyVersion := policy.version

variable {coarseDigest digest : Sha256Digest}

theorem validateManifestBinding_completion (hinput : GateInput policy bounds coarse coverage)
    (hplanned : Planned H policy bounds coarse coverage manifest)
    (hmade : MadeFor H manifest denseResult) :
    ((completionValues policy coarse coverage manifest denseResult
      coarseDigest).identified H digest).validateManifestBinding = .ok () := by
  have hcoarse : completionStatus coverage none none = .ok (gateStatus coarse.localStatus none) :=
    completionStatus_eq hinput.status (.inl rfl)
  have houtcome : manifest.outcome = expectedOutcome (gateStatus coarse.localStatus none) := by
    rw [hplanned.outcome]
    cases coarse.localStatus <;> rfl
  have hrequired : gateStatus coarse.localStatus none = .denseRequired ↔
      coarse.localStatus = .requiresDense := by
    cases coarse.localStatus <;> simp [gateStatus]
  have hitems : manifest.items.map (·.source) =
      if gateStatus coarse.localStatus none = .denseRequired then
        coverage.filter (·.localStatus.isSuspicious)
      else [] := by
    rw [hplanned.items]
    by_cases hstatus : coarse.localStatus = .requiresDense
    · rw [if_pos hstatus, if_pos (hrequired.mpr hstatus), suspiciousItems_sources]
    · rw [if_neg hstatus, if_neg (hrequired.not.mpr hstatus)]
      rfl
  unfold QACompletionResult.validateManifestBinding
  rw [require_bind_eq_ok]
  refine ⟨hplanned.version, ?_⟩
  show (completionStatus coverage none none >>= _) = _
  rw [hcoarse, ok_bind, require_bind_eq_ok, require_bind_eq_ok]
  exact ⟨houtcome, hitems, hmade.validateBinding⟩

theorem validateAggregateBinding_completion
    (hgood : coarse.localStatus = .complete → ∀ ref ∈ coverage, ref.localStatus = .good) :
    ((completionValues policy coarse coverage manifest denseResult
      coarseDigest).identified H digest).validateAggregateBinding = .ok () := by
  unfold QACompletionResult.validateAggregateBinding
  have hstatus : ((completionValues policy coarse coverage manifest denseResult
      coarseDigest).identified H digest).status = gateStatus coarse.localStatus denseResult := rfl
  rw [hstatus]
  by_cases hcomplete : gateStatus coarse.localStatus denseResult = .qaComplete
  case neg =>
    rw [if_pos hcomplete, require_eq_ok]
    exact if_neg hcomplete
  rw [if_neg (not_not.mpr hcomplete)]
  have haggregate : ((completionValues policy coarse coverage manifest denseResult
      coarseDigest).identified H digest).finalAggregate =
        some (aggregateOf coverage denseResult policy.version) := if_pos hcomplete
  rw [haggregate]
  have hcameras : (aggregateOf coverage denseResult policy.version).cameraResults.forM
      ((completionValues policy coarse coverage manifest denseResult
        coarseDigest).identified H digest).validateCameraBinding = .ok () := by
    rw [forM_eq_ok_iff]
    intro camera hcamera
    obtain ⟨cameraId, -, rfl⟩ := mem_map.mp hcamera
    unfold QACompletionResult.validateCameraBinding
    rw [require_bind_eq_ok, require_eq_ok]
    exact ⟨rfl, rfl⟩
  rw [require_bind_eq_ok]
  refine ⟨rfl, ?_⟩
  rw [hcameras, ok_bind, require_eq_ok]
  intro hnone
  have hnone : denseResult = none := hnone
  rcases gateStatus_complete_iff.mp hcomplete with hall | ⟨-, dense, hdense, -⟩
  · exact hgood hall
  · rw [hnone] at hdense
    cases hdense

section

variable (hinput : GateInput policy bounds coarse coverage)
include hinput

theorem completionValues_exact (hhash : H.Rfc8785)
    (hplanned : Planned H policy bounds coarse coverage manifest)
    (hmade : MadeFor H manifest denseResult) :
    (SemanticProjection.completion
      (completionValues policy coarse coverage manifest denseResult coarseDigest)).Exact := by
  have hcoverage : ∀ ref ∈ coverage, ref.packageOrdinal ≤ exactLimit :=
    fun ref href => ordinal_le_of_exact hinput.exact hinput.refs href
  have hmanifest : ∀ n ∈ manifest.ordinals, n ≤ exactLimit := by
    apply hplanned.units.ordinals_le
    intro item hitem
    rw [hplanned.items] at hitem
    split at hitem
    · obtain ⟨ref, href, rfl⟩ := mem_map.mp hitem
      exact hcoverage ref (mem_filter.mp href).1
    · cases hitem
  have hdense : ∀ n ∈ denseResult.elim [] (·.ordinals), n ≤ exactLimit := by
    cases denseResult with
    | none => exact fun n hn => (by cases hn)
    | some dense =>
      obtain ⟨version, evidence, hproject⟩ := hmade dense rfl
      exact (projectDense_eq_ok hproject).exact hhash
  have hobservations : ∀ item ∈ denseObservations denseResult, ∀ n ∈ item.ordinals,
      n ≤ exactLimit := by
    intro item hitem n hn
    apply hdense
    cases denseResult with
    | none => cases hitem
    | some dense =>
      obtain ⟨unit, hunit, hitem⟩ := mem_flatMap.mp hitem
      exact mem_flatMap.mpr ⟨unit, hunit, mem_append_right _ (mem_flatMap.mpr ⟨item, hitem, hn⟩)⟩
  have haggregate : ∀ n ∈ (aggregateOf coverage denseResult policy.version).ordinals,
      n ≤ exactLimit := by
    intro n hn
    obtain ⟨camera, hcamera, hn⟩ := mem_flatMap.mp hn
    obtain ⟨cameraId, -, rfl⟩ := mem_map.mp hcamera
    rcases mem_append.mp hn with hn | hn
    · obtain ⟨ref, href, rfl⟩ := mem_map.mp hn
      exact hcoverage ref (mem_filter.mp href).1
    · obtain ⟨item, hitem, hn⟩ := mem_flatMap.mp hn
      exact hobservations item (mem_filter.mp hitem).1 n hn
  intro n hn
  rcases mem_append.mp hn with hn | hn
  · rcases mem_append.mp hn with hn | hn
    · rcases mem_append.mp hn with hn | hn
      · obtain ⟨ref, href, rfl⟩ := mem_map.mp hn
        exact hcoverage ref href
      · exact hmanifest n hn
    · exact hdense n hn
  · unfold completionValues at hn
    dsimp only at hn
    split at hn
    · exact haggregate n hn
    · cases hn

/-- The completion projector accepts what the planner and the dense projector have made. -/
theorem project_completes (hhash : H.Rfc8785) (hplan : plan H policy coarse bounds = .ok manifest)
    (hplanned : Planned H policy bounds coarse coverage manifest)
    (hmade : MadeFor H manifest denseResult) :
    ∃ coarseDigest digest, project H policy coarse denseResult bounds =
      .ok ((completionValues policy coarse coverage manifest denseResult
        coarseDigest).identified H digest) := by
  have hchecked := hinput.valid.checked
  obtain ⟨coarseDigest, hcoarseDigest⟩ := hhash.digest_iff.mpr hinput.exact
  have hexact : (SemanticProjection.completion (completionValues policy coarse coverage manifest
      denseResult coarseDigest)).Exact := completionValues_exact hinput hhash hplanned hmade
  obtain ⟨digest, hdigest⟩ := hhash.digest_iff.mpr hexact
  have hcoverage : coarse.packageCameraResults.mapM completionObservationRef = .ok coverage :=
    mapM_observationRefOr hchecked hinput.refs _
  have hdense : validatedDenseResult H denseResult = .ok () := by
    cases denseResult with
    | none => rfl
    | some dense =>
      obtain ⟨version, evidence, hproject⟩ := hmade dense rfl
      exact revalidated_ok (projectDense_eq_ok hproject).modelValidate
  have hstatus : completionStatus coverage denseResult none =
      .ok (gateStatus coarse.localStatus denseResult) :=
    completionStatus_eq hinput.status (hplanned.none_or_required hmade)
  have hgood : coarse.localStatus = .complete → ∀ ref ∈ coverage, ref.localStatus = .good := by
    intro hcomplete ref href
    exact ((resultStatus_eq_ok hinput.status).2.2.mp hcomplete).2 _ (mem_map_of_mem href)
  have hallGood : gateStatus coarse.localStatus denseResult = .qaComplete →
      ∀ dense ∈ denseResult, dense.AllGood := by
    intro hcomplete dense hdense'
    have hnone := hplanned.none_or_required hmade
    rcases gateStatus_complete_iff.mp hcomplete with hall | ⟨-, dense', hdense'', hall⟩
    · rcases hnone with hnone | hrequired
      · rw [hnone] at hdense'
        cases hdense'
      · rw [hall] at hrequired
        cases hrequired
    · have hsame : dense' = dense := Option.some.inj (hdense''.symm.trans hdense')
      subst hsame
      obtain ⟨version, evidence, hproject⟩ := hmade dense' hdense'
      exact (projectDense_eq_ok hproject).complete_iff.mp hall
  have hvalid : ((completionValues policy coarse coverage manifest denseResult
      coarseDigest).identified H digest).validateResult H = .ok () := by
    have hrefs : ∀ ref ∈ coverage, coarse.packageIds[ref.packageOrdinal]? = some ref.packageId ∧
        ref.sourceOutput ∈ coarse.sourceOutputs := by
      intro ref href
      obtain ⟨item, hitem, hsame⟩ := exists_item_of_ref hinput.refs href
      obtain ⟨hid, hordinal, -, -, hout, -⟩ := ref?_keeps hsame
      rw [hid, hordinal, hout]
      exact ⟨hchecked.packageIds item hitem, hchecked.outputs item hitem⟩
    unfold QACompletionResult.validateResult
    rw [validateManifestBinding_completion hinput hplanned hmade,
      validateAggregateBinding_completion hgood]
    simp only [require_bind_eq_ok]
    refine ⟨hchecked.packages, hinput.ordered, hinput.coordinates,
      fun ref href => (hrefs ref href).1, fun ref href => (hrefs ref href).2, ?_⟩
    show (completionStatus coverage denseResult none >>= _) = _
    rw [hstatus]
    simp only [ok_bind, require_bind_eq_ok]
    refine ⟨rfl, ?_⟩
    refine bind_eq_ok.mpr ⟨digest, hdigest, ?_⟩
    rw [require_bind_eq_ok, require_eq_ok]
    exact ⟨rfl, rfl⟩
  have haggregate : aggregateAt (gateStatus coarse.localStatus denseResult) coverage denseResult
      policy.version =
        .ok (completionValues policy coarse coverage manifest denseResult
          coarseDigest).finalAggregate := by
    unfold aggregateAt
    by_cases hcomplete : gateStatus coarse.localStatus denseResult = .qaComplete
    · have hvalues : (completionValues policy coarse coverage manifest denseResult
          coarseDigest).finalAggregate = some (aggregateOf coverage denseResult policy.version) :=
        if_pos hcomplete
      rw [if_pos hcomplete, hvalues,
        finalAggregate_completes hinput.packages_ne_zero hinput.coordinates (hallGood hcomplete)]
      rfl
    · have hvalues : (completionValues policy coarse coverage manifest denseResult
          coarseDigest).finalAggregate = none := if_neg hcomplete
      rw [if_neg hcomplete, hvalues]
      rfl
  refine ⟨coarseDigest, digest, ?_⟩
  unfold project projectWith
  rw [revalidated_ok hinput.valid, ok_bind, hdense, ok_bind, hcoverage, ok_bind, hplan, ok_bind,
    hmade.validateBinding, ok_bind, hstatus, ok_bind, haggregate]
  show (H.digest _ >>= _) = _
  rw [hcoarseDigest]
  show (H.digest (.completion
    (completionValues policy coarse coverage manifest denseResult coarseDigest)) >>= _) = _
  rw [hdigest]
  show (((completionValues policy coarse coverage manifest denseResult coarseDigest).identified H
    digest).validateResult H >>= _) = _
  rw [hvalid]
  rfl

theorem project_refuses (hplan : plan H policy coarse bounds = .ok manifest)
    (houtcome : manifest.outcome ≠ .denseRequired) (dense : DenseQAResult) :
    ∃ e, project H policy coarse (some dense) bounds = .error e := by
  cases hproject : project H policy coarse (some dense) bounds with
  | error e => exact ⟨e, rfl⟩
  | ok result =>
    unfold project projectWith at hproject
    rw [revalidated_ok hinput.valid, ok_bind, bind_eq_ok] at hproject
    obtain ⟨_, -, hproject⟩ := hproject
    obtain ⟨_, -, hproject⟩ := bind_eq_ok.mp hproject
    rw [hplan, ok_bind] at hproject
    unfold validateDenseResultBinding at hproject
    rw [if_pos houtcome, require_bind_eq_ok] at hproject
    cases hproject.1

variable (hplanned : Planned H policy bounds coarse coverage manifest)
include hplanned

/-- The gate is complete exactly if all is good, or none is unknown and the dense work is good. -/
theorem gateStatus_iff (hmade : MadeFor H manifest denseResult) :
    gateStatus coarse.localStatus denseResult = .qaComplete ↔
      (∀ item ∈ coarse.packageCameraResults, item.localStatus = .good) ∨
      ((∀ item ∈ coarse.packageCameraResults, item.localStatus ≠ .unknown) ∧
        ∃ dense ∈ denseResult, dense.AllGood) := by
  have hstatus := hinput.valid.checked.status
  obtain ⟨-, hdense, hcomplete⟩ := resultStatus_eq_ok hstatus
  rw [gateStatus_complete_iff]
  constructor
  · rintro (hall | ⟨hrequired, dense, hmem, hall⟩)
    · left
      intro item hitem
      exact (hcomplete.mp hall).2 _ (mem_map_of_mem hitem)
    · right
      refine ⟨?_, dense, hmem, ?_⟩
      · intro item hitem hunknown
        exact (hdense.mp hrequired).1 (hunknown ▸ mem_map_of_mem hitem)
      · obtain ⟨version, evidence, hproject⟩ := hmade dense hmem
        exact (projectDense_eq_ok hproject).complete_iff.mp hall
  · rintro (hall | ⟨-, dense, hmem, hall⟩)
    · left
      rw [hcomplete]
      refine ⟨?_, ?_⟩
      · intro hnil
        rw [← hinput.statuses] at hnil
        have hordinals := observations_of_camera hinput.coordinates .cam01
        rw [map_eq_nil_iff.mp hnil] at hordinals
        exact hinput.packages_ne_zero (range_eq_nil.mp hordinals.symm)
      · intro status hs
        obtain ⟨item, hitem, rfl⟩ := mem_map.mp hs
        exact hall item hitem
    · right
      obtain ⟨version, evidence, hproject⟩ := hmade dense hmem
      have hdenseMade := projectDense_eq_ok hproject
      exact ⟨hplanned.required_iff.mp hdenseMade.required, dense, hmem,
        hdenseMade.complete_iff.mpr hall⟩

variable {item : CameraCoarseResult} (hitem : item ∈ coarse.packageCameraResults)
  (hsuspicious : item.localStatus.isSuspicious = true) {interval : NanosecondInterval}
  (hinterval : item.claim.interval = some interval) (hstart : interval.startNs ≤ t)
  (hend : t < interval.endNs)
include hitem hsuspicious hinterval hstart hend

/-- Every instant of a suspicious interval is covered by the packages of its unit. -/
theorem covered_of_made (hmade : DenseMade H version manifest dense) :
    ∃ unit ∈ manifest.units, (∃ source ∈ unit.sourceItems, item.ref? = some source.source) ∧
      ∃ result ∈ dense.units, result.workUnitId = unit.unitId ∧
        ∃ package ∈ result.evidence.packages,
          package.interval.startNs ≤ t ∧ t < package.interval.endNs := by
  obtain ⟨ref, href⟩ : ∃ ref, item.ref? = some ref := by
    unfold CameraCoarseResult.ref?
    rw [hinterval]
    exact ⟨_, rfl⟩
  obtain ⟨-, -, -, hlocal, -, hsame⟩ := ref?_keeps href
  have hcoverage : ref ∈ coverage := by
    have hmem : some ref ∈ coarse.packageCameraResults.map (·.ref?) :=
      href ▸ mem_map_of_mem hitem
    rw [hinput.refs, mem_map] at hmem
    obtain ⟨other, hother, heq⟩ := hmem
    exact Option.some.inj heq ▸ hother
  have hplannedItem : itemOf ref ∈ manifest.items := by
    rw [hplanned.items, if_pos (hplanned.required_iff.mp hmade.required)]
    exact mem_map_of_mem (mem_filter.mpr ⟨hcoverage, hlocal ▸ hsuspicious⟩)
  obtain ⟨unit, hunit, hsource⟩ :=
    mem_flatMap.mp (hplanned.units.partition.mem_iff.mpr hplannedItem)
  obtain ⟨result, hresult, hunitMade⟩ := exists_right_of_forall₂ hmade.units unit hunit
  refine ⟨unit, hunit, ⟨itemOf ref, hsource, href⟩, result, hresult, hunitMade.identity.1, ?_⟩
  -- the unit was asked for the whole hull of its sources, and its packages cover at least that
  have hhull := hplanned.units.hull unit hunit
  have hwithin := hplanned.units.within unit hunit
  cases hinterval.symm.trans hsame
  have hfirst : _ ≤ ref.interval.startNs := hhull.start.2 ⟨itemOf ref, hsource, rfl⟩
  have hlast : ref.interval.endNs ≤ _ := hhull.stop.2 ⟨itemOf ref, hsource, rfl⟩
  exact hunitMade.covers (by omega) (by omega)

/-- Where the gate is complete, every instant of every suspicious interval has been seen good. -/
theorem seenGood_of_complete (hmade : MadeFor H manifest denseResult)
    (hgate : gateStatus coarse.localStatus denseResult = .qaComplete) :
    ∃ unit ∈ manifest.units, (∃ source ∈ unit.sourceItems, item.ref? = some source.source) ∧
      ∃ dense ∈ denseResult, ∃ unitResult ∈ dense.units,
        unitResult.workUnitId = unit.unitId ∧ SeenGood unitResult.evidence t := by
  obtain ⟨-, -, hcomplete⟩ := resultStatus_eq_ok hinput.valid.checked.status
  rcases gateStatus_complete_iff.mp hgate with hall | ⟨-, dense, hmem, hall⟩
  · have hgood := (hcomplete.mp hall).2 _ (mem_map_of_mem hitem)
    rw [hgood] at hsuspicious
    cases hsuspicious
  · obtain ⟨version, evidence, hproject⟩ := hmade dense hmem
    have hdenseMade := projectDense_eq_ok hproject
    have hgood := hdenseMade.complete_iff.mp hall
    obtain ⟨unit, hunit, hsource, result, hresult, hid, package, hpackage, hcovers⟩ :=
      covered_of_made hinput hplanned hitem hsuspicious hinterval hstart hend hdenseMade
    exact ⟨unit, hunit, hsource, dense, hmem, result, hresult, hid, package, hpackage, hcovers.1,
      hcovers.2, fun observation hobservation _ => hgood result hresult observation hobservation⟩

end

theorem exists_coverage (hvalid : coarse.Valid)
    (hordered : (coarse.sourceOutputs.map (·.artifactId)).Pairwise (· < ·))
    (hexact : (SemanticProjection.coarseResult coarse).Exact)
    (hfits : ∀ item ∈ coarse.packageCameraResults, ∃ interval,
      item.claim.interval = some interval ∧ policy.Fits bounds interval) :
    ∃ coverage, GateInput policy bounds coarse coverage := by
  have hrefs : ∀ item ∈ coarse.packageCameraResults, ∃ ref, item.ref? = some ref ∧
      policy.Fits bounds ref.interval := by
    intro item hitem
    obtain ⟨interval, hinterval, hfit⟩ := hfits item hitem
    unfold CameraCoarseResult.ref?
    rw [hinterval]
    exact ⟨_, rfl, hfit⟩
  obtain ⟨coverage, hcoverage, hall⟩ : ∃ coverage : List CoarseQAObservationRef,
      coarse.packageCameraResults.map (·.ref?) = coverage.map some ∧
      ∀ ref ∈ coverage, policy.Fits bounds ref.interval := by
    generalize coarse.packageCameraResults = results at hrefs
    induction results with
    | nil => exact ⟨[], rfl, by simp⟩
    | cons item rest ih =>
      rw [forall_mem_cons] at hrefs
      obtain ⟨ref, href, hfit⟩ := hrefs.1
      obtain ⟨coverage, hrest, hall⟩ := ih hrefs.2
      refine ⟨ref :: coverage, ?_, forall_mem_cons.mpr ⟨hfit, hall⟩⟩
      rw [map_cons, map_cons, href, hrest]
  exact ⟨coverage, hvalid, hordered, hexact, hcoverage, hall⟩

end Gate

/-- **The completion gate.**  A valid coarse result in canonical order whose integers have canonical
JSON and whose claims fit into the recording is planned without an error, into units that are the
merge groups of its suspicious coordinates where dense work is required and into none elsewhere.
The completion accepts a dense result made for that plan, or none, and refuses one where no dense
work is planned.  It is complete exactly if all coordinates are good, or none is unknown and every
observation of every dense unit is good; and then every instant of every suspicious interval is
covered by a package of its unit in which all six cameras are good.  The order of the evidence does
not matter. -/
theorem completion_gate (H : Hashing) (hhash : H.Rfc8785) (policy : DenseQAPlanningPolicy)
    (bounds : Option NanosecondInterval) (coarse : CoarseQAResult) (hvalid : coarse.Valid)
    (hordered : (coarse.sourceOutputs.map (·.artifactId)).Pairwise (· < ·))
    (hexact : (SemanticProjection.coarseResult coarse).Exact)
    (hfits : ∀ item ∈ coarse.packageCameraResults, ∃ interval,
      item.claim.interval = some interval ∧ policy.Fits bounds interval) :
    ∃ manifest coverage, plan H policy coarse bounds = .ok manifest ∧
      coarse.packageCameraResults.map (·.ref?) = coverage.map some ∧
      manifest.items =
        (if coarse.localStatus = .requiresDense then suspiciousItems coverage else []) ∧
      MergeGroups policy bounds manifest.items manifest.units ∧
      (∀ denseResult, MadeFor H manifest denseResult → ∃ result,
        project H policy coarse denseResult bounds = .ok result ∧
        (result.status = .qaComplete ↔
          (∀ item ∈ coarse.packageCameraResults, item.localStatus = .good) ∨
          ((∀ item ∈ coarse.packageCameraResults, item.localStatus ≠ .unknown) ∧
            ∃ dense ∈ denseResult, dense.AllGood)) ∧
        (result.status = .qaComplete → ∀ item ∈ coarse.packageCameraResults,
          item.localStatus.isSuspicious = true → ∀ interval ∈ item.claim.interval,
          ∀ t, interval.startNs ≤ t → t < interval.endNs →
          ∃ unit ∈ manifest.units, (∃ source ∈ unit.sourceItems, item.ref? = some source.source) ∧
            ∃ dense ∈ denseResult, ∃ unitResult ∈ dense.units,
              unitResult.workUnitId = unit.unitId ∧ SeenGood unitResult.evidence t)) ∧
      (manifest.outcome ≠ .denseRequired → ∀ dense, ∃ e,
        project H policy coarse (some dense) bounds = .error e) ∧
      (∀ version evidence evidence' dense, evidence.Perm evidence' →
        projectDense H version manifest evidence = .ok dense →
        projectDense H version manifest evidence' = .ok dense) := by
  obtain ⟨coverage, hinput⟩ := exists_coverage hvalid hordered hexact hfits
  obtain ⟨manifest, hplan, hplanned⟩ :=
    plan_completes hhash hvalid hexact hinput.refs hinput.fits
  refine ⟨manifest, coverage, hplan, hinput.refs, hplanned.items, hplanned.units, ?_,
    project_refuses hinput hplan, fun _ _ _ _ hperm => projectDense_of_perm hperm⟩
  intro denseResult hmade
  obtain ⟨coarseDigest, digest, hproject⟩ := project_completes hinput hhash hplan hplanned hmade
  refine ⟨_, hproject, gateStatus_iff hinput hplanned hmade, ?_⟩
  intro hstatus item hitem hsuspicious interval hinterval t hstart hend
  exact seenGood_of_complete hinput hplanned hitem hsuspicious hinterval hstart hend hmade hstatus

/-! ## A sample recording -/

/-- Identities of a sample run: one digest and one identifier. -/
def sampleHashing : Hashing :=
  ⟨exactDigest SemanticProjection.ordinals fun _ => "d", fun _ => "u"⟩

def samplePolicy : DenseQAPlanningPolicy := ⟨"v", 5, 0⟩

def sampleInterval (startNs endNs : Int)
    (h : (startNs < endNs ∧ int64Min ≤ startNs) ∧ endNs ≤ int64Max) : NanosecondInterval :=
  ⟨startNs, endNs, h.1.2, h.2, h.1.1⟩

/-- The recording, the claims of its one coarse package, and two dense packages. -/
def sampleBounds : NanosecondInterval := sampleInterval 0 100 (by decide)

@[inherit_doc sampleBounds]
def sampleCoarseInterval : NanosecondInterval := sampleInterval 10 20 (by decide)

@[inherit_doc sampleBounds]
def sampleFirstPackage : DenseQAPackageRef :=
  ⟨"x", 0, sampleInterval 5 22 (by decide), "s", "x"⟩

@[inherit_doc sampleBounds]
def sampleSecondPackage : DenseQAPackageRef :=
  ⟨"y", 1, sampleInterval 21 25 (by decide), "s", "x"⟩

def sampleClaim (packageOrdinal : Nat) (cameraId : CameraId) (interval : Option NanosecondInterval)
    (observation : ProviderObservation) (packageId : OpaqueUuid) : EnrichedProviderClaim where
  claimId := "c"
  claimOrdinal := 0
  kind := .qaObservation
  packageId := some packageId
  packageOrdinal := some packageOrdinal
  cameraId := some cameraId
  interval := interval
  observation := observation
  evidence := [⟨"t", 0, packageId, packageOrdinal, "s", "x", cameraId, 0⟩]
  sourceClaimOrdinal := none

/-- A status as the validators expect it. -/
def sampleStatus (observation : ProviderObservation) : CameraQAStatus :=
  match coarseCameraStatus observation with
  | .ok status => status
  | .error _ => .incomplete

def sampleOutput (artifactId : OpaqueUuid) : CoarseQAOutputRef := ⟨artifactId, "s", "k", "i"⟩

/-- A coarse result of one package. -/
def sampleCoarse (outputs : List OpaqueUuid) (interval : Option NanosecondInterval)
    (observed : CameraId → ProviderObservation) (status : CoarseQAStatus) : CoarseQAResult where
  packageSetId := "q"
  mcapId := "m"
  inputPlanId := "i"
  inputPlanSemanticSha256 := "s"
  packageIds := ["p"]
  sourceOutputs := outputs.map sampleOutput
  packageCameraResults := CameraId.all.map fun cameraId =>
    { packageId := "p"
      packageOrdinal := 0
      cameraId := cameraId
      localStatus := sampleStatus (observed cameraId)
      sourceOutput := sampleOutput "a"
      claim := sampleClaim 0 cameraId interval (observed cameraId) "p" }
  localStatus := status
  complete := decide (status = .complete)
  requiresDense := decide (status = .requiresDense)
  policyVersion := "v"

def firstDegraded : CameraId → ProviderObservation
  | .cam01 => .degraded
  | _ => .good

/-- One camera is degraded and another one unknown. -/
def secondUnknown : CameraId → ProviderObservation
  | .cam01 => .degraded
  | .cam02 => .unknown
  | _ => .good

def sampleDenseOutput : DenseQAOutputRef := ⟨"o", "s", "k", "i", "j", "s"⟩

def sampleDenseResults (package : DenseQAPackageRef) (observed : CameraId → ProviderObservation) :
    List CameraDenseResult :=
  CameraId.all.map fun cameraId =>
    { packageId := package.packageId
      packageOrdinal := package.ordinal
      cameraId := cameraId
      localStatus := sampleStatus (observed cameraId)
      sourceOutput := sampleDenseOutput
      claim := sampleClaim package.ordinal cameraId (some package.interval) (observed cameraId)
        package.packageId }

/-- Evidence of two packages; the first one is good. -/
def sampleEvidence (observed : CameraId → ProviderObservation) : DenseQAUnitEvidence where
  unitId := "u"
  unitSemanticDigest := "d"
  mcapId := "m"
  cameraMappingRunId := "r"
  cameraMappingSemanticSha256 := "s"
  alignmentId := "l"
  alignmentSemanticSha256 := "s"
  packageSetId := "q"
  splitPlanDigest := "s"
  memberManifestSha256 := "s"
  packages := [sampleFirstPackage, sampleSecondPackage]
  inputPlan := ⟨"j", "s", ["x", "y"]⟩
  sourceOutputs := [sampleDenseOutput]
  packageCameraResults :=
    sampleDenseResults sampleFirstPackage (fun _ => .good) ++
      sampleDenseResults sampleSecondPackage observed

/-- The status that the three projectors together come to. -/
def gate (H : Hashing) (policy : DenseQAPlanningPolicy) (coarse : CoarseQAResult)
    (evidence : List DenseQAUnitEvidence) (bounds : Option NanosecondInterval) :
    Except QAError QACompletionStatus := do
  let manifest ← plan H policy coarse bounds
  let dense ← projectDense H policy.version manifest evidence
  let result ← project H policy coarse (some dense) bounds
  pure result.status

/-- A coarse result with one suspicious coordinate. -/
def sampleSuspicious (outputs : List OpaqueUuid) (interval : Option NanosecondInterval) :
    CoarseQAResult := sampleCoarse outputs interval firstDegraded .requiresDense

/-- Two dense packages that are good in all cameras complete the gate, and the suspicious interval
has been seen again. -/
theorem completion_gate_sample : ∃ manifest dense result,
    plan sampleHashing samplePolicy (sampleSuspicious ["a"] (some sampleCoarseInterval))
      (some sampleBounds) = .ok manifest ∧
    projectDense sampleHashing "v" manifest [sampleEvidence fun _ => .good] = .ok dense ∧
    project sampleHashing samplePolicy (sampleSuspicious ["a"] (some sampleCoarseInterval))
      (some dense) (some sampleBounds) = .ok result ∧ result.status = .qaComplete ∧
    ∃ unitResult ∈ dense.units, SeenGood unitResult.evidence 10 := by
  have hfits : ∀ item ∈ (sampleSuspicious ["a"] (some sampleCoarseInterval)).packageCameraResults,
      ∃ interval, item.claim.interval = some interval ∧
        samplePolicy.Fits (some sampleBounds) interval := by
    intro item hitem
    obtain ⟨cameraId, -, rfl⟩ := mem_map.mp hitem
    exact ⟨sampleCoarseInterval, rfl, by decide, by decide⟩
  have hvalid : (sampleSuspicious ["a"] (some sampleCoarseInterval)).modelValidate = .ok () := by
    decide +kernel
  have hexact : ∀ n ∈ (SemanticProjection.coarseResult
      (sampleSuspicious ["a"] (some sampleCoarseInterval))).ordinals, n ≤ exactLimit := by
    decide +kernel
  have hhash : sampleHashing.Rfc8785 := hashesExactly_exactDigest _ _
  obtain ⟨manifest, coverage, hplan, -, -, -, hproject, -⟩ :=
    completion_gate sampleHashing hhash samplePolicy (some sampleBounds)
      (sampleSuspicious ["a"] (some sampleCoarseInterval)) hvalid (by decide +kernel) hexact hfits
  have hrun : (plan sampleHashing samplePolicy (sampleSuspicious ["a"] (some sampleCoarseInterval))
      (some sampleBounds) >>= fun manifest =>
        (projectDense sampleHashing "v" manifest [sampleEvidence fun _ => .good]).map
          (·.status)) = .ok .complete := by decide +kernel
  rw [hplan, ok_bind] at hrun
  cases hdense : projectDense sampleHashing "v" manifest [sampleEvidence fun _ => .good] with
  | error e =>
    rw [hdense] at hrun
    cases hrun
  | ok dense =>
    rw [hdense] at hrun
    have hmade : MadeFor sampleHashing manifest (some dense) := by
      rintro _ ⟨⟩
      exact ⟨_, _, hdense⟩
    have hgood : dense.AllGood :=
      (projectDense_eq_ok hdense).complete_iff.mp (Except.ok.inj hrun)
    obtain ⟨result, hresult, hstatus, hseen⟩ := hproject (some dense) hmade
    have hknown : ∀ item ∈ (sampleSuspicious ["a"]
        (some sampleCoarseInterval)).packageCameraResults, item.localStatus ≠ .unknown := by
      decide +kernel
    have hcomplete := hstatus.mpr (.inr ⟨hknown, dense, rfl, hgood⟩)
    obtain ⟨-, -, -, _, hsame, unitResult, hunit, -, hcovered⟩ := hseen hcomplete _ mem_cons_self
      rfl _ rfl 10 (le_refl _) (by decide)
    cases hsame
    exact ⟨manifest, dense, result, hplan, hdense, hresult, hcomplete, unitResult, hunit, hcovered⟩

/-- A claim with an integer that has no canonical JSON. -/
def sampleInexact : CoarseQAResult :=
  { sampleSuspicious ["a"] (some sampleCoarseInterval) with
    packageCameraResults :=
      (sampleSuspicious ["a"] (some sampleCoarseInterval)).packageCameraResults.map fun item =>
        { item with claim := { item.claim with claimOrdinal := exactLimit + 1 } } }

/-- The gate asks for more than that the suspicious intervals are covered: a package in the padding
that is not good holds it back.  It refuses a coarse result whose output references are not in
canonical order, whose claims have no interval or whose integers have no canonical JSON, and where
a coordinate is unknown no unit is planned for a suspicious one. -/
theorem completion_gate_stricter :
    (gate sampleHashing samplePolicy (sampleSuspicious ["a"] (some sampleCoarseInterval))
        [sampleEvidence firstDegraded] (some sampleBounds) = .ok .qaIncomplete ∧
      ∀ t, sampleCoarseInterval.startNs ≤ t → t < sampleCoarseInterval.endNs →
        SeenGood (sampleEvidence firstDegraded) t) ∧
    ((sampleSuspicious ["b", "a"] (some sampleCoarseInterval)).modelValidate = .ok () ∧
      project sampleHashing samplePolicy (sampleSuspicious ["b", "a"] (some sampleCoarseInterval))
        none (some sampleBounds) =
          .error (.value "source outputs must be unique and canonically ordered")) ∧
    ((sampleSuspicious ["a"] none).modelValidate = .ok () ∧
      plan sampleHashing samplePolicy (sampleSuspicious ["a"] none) (some sampleBounds) =
        .error (.denseProjection "coarse observation is missing its exact interval")) ∧
    (sampleInexact.modelValidate = .ok () ∧
      plan sampleHashing samplePolicy sampleInexact (some sampleBounds) =
        .error .canonicalization) ∧
    ((sampleCoarse ["a"] (some sampleCoarseInterval) secondUnknown .incomplete).modelValidate =
        .ok () ∧
      ∃ manifest, plan sampleHashing samplePolicy
        (sampleCoarse ["a"] (some sampleCoarseInterval) secondUnknown .incomplete)
        (some sampleBounds) = .ok manifest ∧ manifest.units = []) := by
  refine ⟨⟨by decide +kernel, ?_⟩, ⟨by decide +kernel, by decide +kernel⟩,
    ⟨by decide +kernel, by decide +kernel⟩, ⟨by decide +kernel, by decide +kernel⟩,
    by decide +kernel, ?_⟩
  · intro t hstart hend
    have hstart : (10 : Int) ≤ t := hstart
    have hend : t < 20 := hend
    refine ⟨sampleFirstPackage, mem_cons_self, ?_, ?_, by decide⟩
    · show (5 : Int) ≤ t
      omega
    · show t < (22 : Int)
      omega
  · have hnone : (plan sampleHashing samplePolicy
        (sampleCoarse ["a"] (some sampleCoarseInterval) secondUnknown .incomplete)
        (some sampleBounds)).map (·.units) = .ok [] := by decide +kernel
    revert hnone
    cases plan sampleHashing samplePolicy _ _ with
    | error e => exact fun hnone => (by cases hnone)
    | ok manifest => exact fun hnone => ⟨manifest, rfl, Except.ok.inj hnone⟩

end Robata.QaPipeline
