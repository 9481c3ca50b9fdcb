import Robata.RecordingAssociation.AssociationEngine

/-!
# Classified pairs

What `_classify_pair` says of two inputs: the decision passes its own contract and binds the pair,
and an edge is a candidate whose decision is MERGED or, where bridges tie, AMBIGUOUS.
-/

namespace Robata.RecordingAssociation

open Contracts Lib List

@[simp] theorem orRaise_some {α : Type} (error : AssociationError) (a : α) :
    orRaise error (some a) = .ok a := rfl

/-! ## Pair keys -/

theorem pairKey_comm (left right : AssociationSourceActionRef) :
    pairKey left right = pairKey right left := by
  unfold pairKey
  by_cases h : left.sourceActionLogicalKey ≤ right.sourceActionLogicalKey
  · by_cases h' : right.sourceActionLogicalKey ≤ left.sourceActionLogicalKey
    · rw [if_pos h, if_pos h', le_antisymm h h']
    · rw [if_pos h, if_neg h']
  · rw [if_neg h, if_pos (le_of_not_ge h)]

theorem pairKey_eq_iff {a b c d : AssociationSourceActionRef} :
    pairKey a b = pairKey c d ↔
      (a.sourceActionLogicalKey = c.sourceActionLogicalKey ∧
        b.sourceActionLogicalKey = d.sourceActionLogicalKey) ∨
      (a.sourceActionLogicalKey = d.sourceActionLogicalKey ∧
        b.sourceActionLogicalKey = c.sourceActionLogicalKey) := by
  unfold pairKey
  constructor
  · intro h
    split_ifs at h <;> simp only [EmbeddingLike.apply_eq_iff_eq, Prod.mk.injEq] at h <;> tauto
  · rintro (⟨hac, hbd⟩ | ⟨had, hbc⟩)
    · rw [hac, hbd]
    · rw [had, hbc]
      exact pairKey_comm d c

theorem orderedSourceActionPair_cases (left right : AssociationSourceActionRef) :
    orderedSourceActionPair left right = (left, right) ∨
      orderedSourceActionPair left right = (right, left) := by
  by_cases h : left.sortKey ≤ right.sortKey
  · exact .inl (if_pos h)
  · exact .inr (if_neg h)

theorem orderedSourceActionPair_le (left right : AssociationSourceActionRef) :
    (orderedSourceActionPair left right).1.sortKey ≤
      (orderedSourceActionPair left right).2.sortKey := by
  unfold orderedSourceActionPair
  by_cases h : left.sortKey ≤ right.sortKey
  · rw [if_pos h]
    exact h
  · rw [if_neg h]
    exact le_of_not_ge h

theorem pairKey_ordered (left right : AssociationSourceActionRef) :
    pairKey (orderedSourceActionPair left right).1 (orderedSourceActionPair left right).2 =
      pairKey left right := by
  rcases orderedSourceActionPair_cases left right with h | h
  · rw [h]
  · rw [h]
    exact pairKey_comm right left

theorem orderedSourceActionPair_ne {left right : AssociationSourceActionRef} (h : left ≠ right) :
    (orderedSourceActionPair left right).1 ≠ (orderedSourceActionPair left right).2 := by
  rcases orderedSourceActionPair_cases left right with heq | heq
  · rw [heq]
    exact h
  · rw [heq]
    exact h.symm

theorem canonical_singleton {α κ : Type} [LinearOrder κ] [DecidableEq α] (key : α → κ) (a : α) :
    canonical key [a] = [a] :=
  canonical_of_pairwise (pairwise_singleton _ _)

theorem canonicalCameraIds_filter (p : CameraId → Bool) :
    canonicalCameraIds (CameraId.all.filter p) = CameraId.all.filter p := by
  unfold canonicalCameraIds
  simp [CameraId.mem_all]

theorem canonicalCameraIds_idem (cameraIds : List CameraId) :
    canonicalCameraIds (canonicalCameraIds cameraIds) = canonicalCameraIds cameraIds :=
  canonicalCameraIds_filter _

/-! ## Decisions -/

theorem construct_eq_ok {decision built : RecordingAssociationPairDecision} :
    construct decision = .ok built ↔ decision.validateDecision = .ok () ∧ decision = built := by
  unfold construct
  rw [bind_eq_ok]
  constructor
  · rintro ⟨_, hvalid, hbuilt⟩
    cases hbuilt
    exact ⟨hvalid, rfl⟩
  · rintro ⟨hvalid, rfl⟩
    exact ⟨(), hvalid, rfl⟩

theorem validateDecision_eq_ok {decision : RecordingAssociationPairDecision} :
    decision.validateDecision = .ok () ↔
      decision.sourceActions.1 ≠ decision.sourceActions.2 ∧
      decision.sourceActions.1.sortKey ≤ decision.sourceActions.2.sortKey ∧
      (decision.reasonCodes ≠ [] ∧
        decision.reasonCodes = canonical (·.value) decision.reasonCodes) ∧
      decision.sharedCameraIds = canonicalCameraIds decision.sharedCameraIds ∧
      decision.bridgeEvidenceLogicalKeys =
        canonical (fun key => key) decision.bridgeEvidenceLogicalKeys ∧
      (∀ key ∈ decision.selectedBridgeEvidenceLogicalKey,
        key ∈ decision.bridgeEvidenceLogicalKeys) ∧
      (decision.disposition = .merged → decision.confidenceMillionths ≠ none) ∧
      (decision.disposition = .merged → decision.sharedCameraIds ≠ []) := by
  unfold RecordingAssociationPairDecision.validateDecision
  simp only [require_bind_eq_ok, require_eq_ok]

theorem pairDecision_valid {left right : RecordingAssociationInput}
    (hne : left.sourceAction ≠ right.sourceAction) (reason : AssociationReasonCode) (gapNs : Nat)
    (sharedCameraIds : List CameraId) (bridgeKeys : List NodeLogicalKey) :
    (pairDecision left right reason gapNs sharedCameraIds bridgeKeys).validateDecision =
      .ok () := by
  rw [validateDecision_eq_ok]
  unfold pairDecision
  dsimp only
  refine ⟨orderedSourceActionPair_ne hne, orderedSourceActionPair_le _ _, ⟨?_, ?_⟩, ?_, ?_, ?_, ?_,
    ?_⟩
  · rw [canonical_singleton]
    simp
  · rw [canonical_canonical]
  · rw [canonicalCameraIds_idem]
  · rw [canonical_canonical]
  · simp
  · simp
  · simp

/-- What `_classify_pair` promises of a candidate edge. -/
structure CandidateEdge.Sound (edge : CandidateEdge) : Prop where
  distinct : edge.left ≠ edge.right
  reason : edge.reason ≠ .maxClusterMembersExceeded
  shared : edge.sharedCameraIds ≠ []
  cameras : canonicalCameraIds edge.sharedCameraIds = edge.sharedCameraIds
  bridges : edge.bridgeKeys.Pairwise (· < ·)

variable {edge : CandidateEdge}

theorem CandidateEdge.Sound.edgeDecision_valid (h : edge.Sound)
    (disposition : AssociationPairDisposition) (reason : AssociationReasonCode)
    {selected : Option NodeLogicalKey} (hselected : ∀ key ∈ selected, key ∈ edge.bridgeKeys) :
    (edgeDecision edge disposition reason selected).validateDecision = .ok () := by
  rw [validateDecision_eq_ok]
  unfold edgeDecision
  dsimp only
  refine ⟨orderedSourceActionPair_ne h.distinct, orderedSourceActionPair_le _ _, ⟨?_, ?_⟩, ?_, ?_,
    hselected, ?_, fun _ => h.shared⟩
  · simp
  · rw [canonical_singleton]
  · exact h.cameras.symm
  · exact (canonical_of_pairwise h.bridges).symm
  · simp

theorem CandidateEdge.Sound.ambiguous_valid (h : edge.Sound) :
    (ambiguousPairDecision edge).validateDecision = .ok () :=
  h.edgeDecision_valid _ _ fun _ hkey => absurd hkey (by simp)

theorem CandidateEdge.Sound.merged_valid (h : edge.Sound) :
    (mergedPairDecision edge).validateDecision = .ok () := by
  apply h.edgeDecision_valid
  intro key hkey
  by_cases hlength : edge.bridgeKeys.length = 1
  · rw [if_pos hlength] at hkey
    exact mem_of_mem_head? hkey
  · rw [if_neg hlength] at hkey
    exact absurd hkey (by simp)

theorem CandidateEdge.Sound.bridged_valid (h : edge.Sound) :
    (bridgedDecision edge).validateDecision = .ok () := by
  unfold bridgedDecision
  by_cases htied : 1 < edge.bridgeEvidence.length
  · rw [if_pos htied]
    exact h.ambiguous_valid
  · rw [if_neg htied]
    exact h.merged_valid

/-- The decision on an edge binds its pair, and gives the reason of the edge or the tie. -/
theorem bridgedDecision_eq (edge : CandidateEdge) :
    ∃ disposition reason selected,
      bridgedDecision edge = edgeDecision edge disposition reason selected ∧
      (reason = edge.reason ∨ reason = .ambiguousTiedBridgeSupport) := by
  unfold bridgedDecision
  by_cases htied : 1 < edge.bridgeEvidence.length
  · rw [if_pos htied]
    exact ⟨_, _, _, rfl, .inr rfl⟩
  · rw [if_neg htied]
    exact ⟨_, _, _, rfl, .inl rfl⟩

/-! ## The confidence of a camera -/

/-- A property of the confidence of a camera holds of none, or comes with an item of the camera. -/
theorem cameraConfidences_iff {P : Option ConfidenceMillionths → Prop}
    {Q : AssociationAcceptedEvidenceRef → Prop} {input : RecordingAssociationInput}
    {cameraId : CameraId}
    (hraise : ∀ values item, P (raiseConfidence values item item.cameraId) ↔
      P (values item.cameraId) ∨ Q item) :
    P (cameraConfidences input cameraId) ↔
      P none ∨ ∃ item ∈ input.acceptedEvidence, item.cameraId = cameraId ∧ Q item := by
  unfold cameraConfidences
  show _ ↔ P ((fun _ => none) cameraId) ∨ _
  generalize (fun _ : CameraId => (none : Option ConfidenceMillionths)) = values
  induction input.acceptedEvidence generalizing values with
  | nil => simp
  | cons item rest ih =>
    rw [foldl_cons, ih]
    by_cases hitem : item.cameraId = cameraId
    · subst hitem
      simp [hraise, or_assoc]
    · unfold raiseConfidence
      rw [Function.update_of_ne (Ne.symm hitem)]
      simp [hitem]

theorem cameraConfidences_isSome {input : RecordingAssociationInput} {cameraId : CameraId} :
    (cameraConfidences input cameraId).isSome = true ↔
      ∃ item ∈ input.acceptedEvidence, item.cameraId = cameraId := by
  refine (cameraConfidences_iff (P := fun value => value.isSome = true) (Q := fun _ => True)
    fun values item => ?_).trans (by simp)
  simp [raiseConfidence]

theorem sharedInputConfidence_completes {left right : RecordingAssociationInput}
    {sharedCameraIds : List CameraId} (hne : sharedCameraIds ≠ [])
    (hleft : ∀ cameraId ∈ sharedCameraIds, (cameraConfidences left cameraId).isSome = true)
    (hright : ∀ cameraId ∈ sharedCameraIds, (cameraConfidences right cameraId).isSome = true) :
    ∃ confidence, sharedInputConfidence left right sharedCameraIds = .ok confidence := by
  obtain ⟨confidences, hrun, hall⟩ :
      ∃ confidences, sharedCameraIds.mapM (sharedConfidence left right) = .ok confidences ∧
        List.Forall₂ (fun _ _ => True) sharedCameraIds confidences := by
    apply mapM_completes
    intro cameraId hcamera
    obtain ⟨l, hl⟩ := Option.isSome_iff_exists.mp (hleft cameraId hcamera)
    obtain ⟨r, hr⟩ := Option.isSome_iff_exists.mp (hright cameraId hcamera)
    refine ⟨min l r, ?_, trivial⟩
    unfold sharedConfidence
    rw [hl, hr]
    rfl
  have hconfidences : confidences ≠ [] := by
    rintro rfl
    exact hne (length_eq_zero_iff.mp hall.length_eq)
  obtain ⟨confidence, hmin⟩ := Option.ne_none_iff_exists'.mp
    (fun hnone => hconfidences (min?_eq_none_iff.mp hnone))
  refine ⟨confidence, ?_⟩
  unfold sharedInputConfidence
  rw [hrun, ok_bind, hmin, orRaise_some]

/-! ## The bridges of a pair -/

theorem bridge_pairKey {bridge : RecordingAssociationBridgeEvidence}
    (h : bridge.modelValidate = .ok ()) :
    pairKey bridge.sourceActions.1 bridge.sourceActions.2 =
      toLex (bridge.sourceActions.1.sourceActionLogicalKey,
        bridge.sourceActions.2.sourceActionLogicalKey) := by
  obtain ⟨_, -, h⟩ := bind_eq_ok.mp h
  obtain ⟨_, -, h⟩ := bind_eq_ok.mp h
  simp only [require_bind_eq_ok] at h
  have hle := h.2.1
  unfold AssociationSourceActionRef.sortKey at hle
  rw [Prod.Lex.toLex_le_toLex] at hle
  unfold pairKey
  rw [if_pos]
  rcases hle with hlt | heq
  · exact le_of_lt hlt
  · exact le_of_eq heq.1

variable {bridges : List RecordingAssociationBridgeEvidence}

theorem bridgesOfPair_sorted (hvalid : ∀ bridge ∈ bridges, bridge.modelValidate = .ok ())
    (hnodup : (bridges.map (·.acceptedBridgeEvidenceLogicalKey)).Nodup) (key : String ×ₗ String) :
    ((bridgesOfPair bridges key).map (·.acceptedBridgeEvidenceLogicalKey)).Pairwise (· < ·) := by
  have hmem : ∀ bridge ∈ bridgesOfPair bridges key,
      bridge ∈ bridges ∧ pairKey bridge.sourceActions.1 bridge.sourceActions.2 = key := by
    intro bridge hbridge
    unfold bridgesOfPair at hbridge
    rw [mem_sortedBy, mem_filter] at hbridge
    exact ⟨hbridge.1, of_decide_eq_true hbridge.2⟩
  have hdistinct : ((bridgesOfPair bridges key).map
      (·.acceptedBridgeEvidenceLogicalKey)).Nodup := by
    unfold bridgesOfPair
    rw [((sortedBy_perm _ _).map _).nodup_iff]
    exact hnodup.sublist (List.filter_sublist.map _)
  rw [List.Nodup, pairwise_map] at hdistinct
  rw [pairwise_map]
  have hsorted : (bridgesOfPair bridges key).Pairwise fun a b => a.sortKey ≤ b.sortKey :=
    sortedBy_pairwise _ _
  refine (hsorted.and hdistinct).imp_of_mem ?_
  intro a b ha hb hab
  -- two bridges of one pair differ in the last part of their sort keys only
  have hsame : toLex (a.sourceActions.1.sourceActionLogicalKey,
      a.sourceActions.2.sourceActionLogicalKey) = toLex (b.sourceActions.1.sourceActionLogicalKey,
        b.sourceActions.2.sourceActionLogicalKey) := by
    rw [← bridge_pairKey (hvalid a (hmem a ha).1), ← bridge_pairKey (hvalid b (hmem b hb).1),
      (hmem a ha).2, (hmem b hb).2]
  simp only [EmbeddingLike.apply_eq_iff_eq, Prod.mk.injEq] at hsame
  have hle := hab.1
  unfold RecordingAssociationBridgeEvidence.sortKey at hle
  rw [hsame.1, hsame.2, Prod.Lex.toLex_le_toLex] at hle
  have hle' := (hle.resolve_left (lt_irrefl _)).2
  rw [Prod.Lex.toLex_le_toLex] at hle'
  exact lt_of_le_of_ne (hle'.resolve_left (lt_irrefl _)).2 hab.2

theorem bridgesOfPair_pairwise (bridges : List RecordingAssociationBridgeEvidence)
    (key : String ×ₗ String) :
    (bridgesOfPair bridges key).Pairwise fun a b => a.sortKey ≤ b.sortKey :=
  sortedBy_pairwise _ _

theorem eligibleBridges_sublist (left right : RecordingAssociationInput)
    (hsorted : bridges.Pairwise fun a b => a.sortKey ≤ b.sortKey)
    (expectedKind : AssociationBridgeKind) (minimumConfidence : ConfidenceMillionths) :
    List.Sublist (eligibleBridges left right bridges expectedKind minimumConfidence).1 bridges := by
  unfold eligibleBridges
  dsimp only
  split_ifs with hcandidates
  · have hsublist : List.Sublist ((bridges.filter fun bridge => decide
        (bridge.kind = expectedKind)).filter fun bridge => decide
          (bridgeFailure left right minimumConfidence bridge = none)) bridges :=
      filter_sublist.trans filter_sublist
    rw [sortedBy_of_pairwise (hsorted.sublist hsublist)]
    exact hsublist
  · exact nil_sublist _

theorem eligibleBridges_reason (left right : RecordingAssociationInput)
    (bridges : List RecordingAssociationBridgeEvidence) (expectedKind : AssociationBridgeKind)
    (minimumConfidence : ConfidenceMillionths) :
    (eligibleBridges left right bridges expectedKind minimumConfidence).2 ≠
      some .maxClusterMembersExceeded := by
  unfold eligibleBridges
  dsimp only
  split_ifs with hcandidates
  · simp
  · intro hhead
    have hmem := mem_of_mem_head? hhead
    unfold canonical at hmem
    rw [mem_sortedBy, mem_dedup, mem_filterMap] at hmem
    obtain ⟨bridge, -, hfailure⟩ := hmem
    unfold bridgeFailure at hfailure
    split_ifs at hfailure <;> simp at hfailure

/-! ## Classification -/

/-- What a classified pair says of two inputs. -/
structure Classifies (left right : RecordingAssociationInput) (classified : Classified) :
    Prop where
  sourceActions : classified.decision.sourceActions =
    orderedSourceActionPair left.sourceAction right.sourceAction
  gap : classified.decision.temporalGapNs = temporalGap left.interval right.interval
  valid : classified.decision.validateDecision = .ok ()
  reasons : .maxClusterMembersExceeded ∉ classified.decision.reasonCodes
  splits : classified.edge = none → classified.decision.disposition = .split
  edges : ∀ edge ∈ classified.edge, edge.Sound ∧ edge.left = left.sourceAction ∧
    edge.right = right.sourceAction ∧
    edge.temporalGapNs = temporalGap left.interval right.interval ∧
    classified.decision = bridgedDecision edge

section Pair

variable {left right : RecordingAssociationInput} (hne : left.sourceAction ≠ right.sourceAction)
include hne

theorem splitPair_spec {reason : AssociationReasonCode}
    (hreason : reason ≠ .maxClusterMembersExceeded) (sharedCameraIds : List CameraId)
    (bridges : List RecordingAssociationBridgeEvidence) :
    ∃ classified, splitPair left right reason sharedCameraIds bridges = .ok classified ∧
      Classifies left right classified := by
  have hvalid := pairDecision_valid hne reason (temporalGap left.interval right.interval)
    sharedCameraIds (bridges.map (·.acceptedBridgeEvidenceLogicalKey))
  refine ⟨⟨pairDecision left right reason (temporalGap left.interval right.interval)
    sharedCameraIds (bridges.map (·.acceptedBridgeEvidenceLogicalKey)), none⟩, ?_, ?_⟩
  · unfold splitPair
    rw [construct_eq_ok.mpr ⟨hvalid, rfl⟩]
    rfl
  · constructor
    case sourceActions => rfl
    case gap => rfl
    case valid => exact hvalid
    case reasons =>
      show _ ∉ canonical (·.value) [reason]
      rw [canonical_singleton, mem_singleton]
      exact hreason.symm
    case splits => exact fun _ => rfl
    case edges => exact fun edge hedge => absurd hedge (by simp)

omit hne in
theorem classifies_of_edge (hsound : edge.Sound) (hleft : edge.left = left.sourceAction)
    (hright : edge.right = right.sourceAction)
    (hgap : edge.temporalGapNs = temporalGap left.interval right.interval) :
    Classifies left right ⟨bridgedDecision edge, some edge⟩ := by
  obtain ⟨disposition, reason, selected, heq, hreason⟩ := bridgedDecision_eq edge
  constructor
  case sourceActions =>
    rw [heq]
    show orderedSourceActionPair edge.left edge.right = _
    rw [hleft, hright]
  case gap =>
    rw [heq]
    exact hgap
  case valid => exact hsound.bridged_valid
  case reasons =>
    rw [heq]
    show _ ∉ [reason]
    rw [mem_singleton]
    rintro rfl
    rcases hreason with hreason | hreason
    · exact hsound.reason hreason.symm
    · cases hreason
  case splits => exact fun h => absurd h (by simp)
  case edges =>
    intro edge' hedge'
    cases hedge'
    exact ⟨hsound, hleft, hright, hgap, rfl⟩

variable (policy : RecordingAssociationPolicy)
include policy

theorem classifyTouching_spec (bridges : List RecordingAssociationBridgeEvidence) :
    ∃ classified, classifyTouching policy left right bridges = .ok classified ∧
      Classifies left right classified := by
  unfold classifyTouching
  dsimp only
  by_cases hshared :
      sharedTouchingOrOverlappingCameras left right policy.minInputConfidenceMillionths = []
  · rw [if_pos hshared]
    exact splitPair_spec hne (by decide) _ _
  · rw [if_neg hshared]
    have hevidence : ∀ cameraId ∈
        sharedTouchingOrOverlappingCameras left right policy.minInputConfidenceMillionths,
        (∃ item ∈ left.acceptedEvidence, item.cameraId = cameraId) ∧
          ∃ item ∈ right.acceptedEvidence, item.cameraId = cameraId := by
      intro cameraId hcamera
      obtain ⟨l, hl, r, hr, -⟩ := of_decide_eq_true (mem_filter.mp hcamera).2
      obtain ⟨hl, hlcamera⟩ := mem_filter.mp hl
      obtain ⟨hr, hrcamera⟩ := mem_filter.mp hr
      exact ⟨⟨l, hl, (of_decide_eq_true hlcamera).1⟩, ⟨r, hr, (of_decide_eq_true hrcamera).1⟩⟩
    obtain ⟨confidence, hconfidence⟩ := sharedInputConfidence_completes hshared
      (fun cameraId hcamera => cameraConfidences_isSome.mpr (hevidence cameraId hcamera).1)
      (fun cameraId hcamera => cameraConfidences_isSome.mpr (hevidence cameraId hcamera).2)
    rw [hconfidence, ok_bind]
    have hcameras : canonicalCameraIds (sharedTouchingOrOverlappingCameras left right
        policy.minInputConfidenceMillionths) = _ := canonicalCameraIds_filter _
    have hsound : CandidateEdge.Sound {
        left := left.sourceAction
        right := right.sourceAction
        reason := .touchingOrOverlappingSharedCamera
        temporalGapNs := temporalGap left.interval right.interval
        confidenceMillionths := confidence
        sharedCameraIds :=
          sharedTouchingOrOverlappingCameras left right policy.minInputConfidenceMillionths
        bridgeEvidence := [] } :=
      ⟨hne, by simp, hshared, hcameras, List.Pairwise.nil⟩
    rw [construct_eq_ok.mpr ⟨hsound.merged_valid, rfl⟩]
    exact ⟨_, rfl, classifies_of_edge hsound rfl rfl rfl⟩

theorem classifyBridged_spec {sharedCameraIds : List CameraId} (hshared : sharedCameraIds ≠ [])
    (hcameras : canonicalCameraIds sharedCameraIds = sharedCameraIds)
    (hsorted : bridges.Pairwise fun a b => a.sortKey ≤ b.sortKey)
    (hkeys : (bridges.map (·.acceptedBridgeEvidenceLogicalKey)).Pairwise (· < ·)) :
    ∃ classified, classifyBridged policy left right sharedCameraIds bridges = .ok classified ∧
      Classifies left right classified := by
  unfold classifyBridged
  dsimp only
  generalize hkind : (if left.label ≠ right.label then AssociationBridgeKind.labelTransition
    else .gapContinuity) = expectedKind
  have hsublist := eligibleBridges_sublist left right hsorted expectedKind
    policy.minBridgeConfidenceMillionths
  have hfailure := eligibleBridges_reason left right bridges expectedKind
    policy.minBridgeConfidenceMillionths
  generalize eligibleBridges left right bridges expectedKind policy.minBridgeConfidenceMillionths =
    eligible at hsublist hfailure
  cases (eligible.1.map (·.confidenceMillionths)).max? with
  | none =>
    apply splitPair_spec hne
    cases hreason : eligible.2 with
    | none =>
      split_ifs <;> simp
    | some reason =>
      rintro rfl
      exact hfailure hreason
  | some topConfidence =>
    have hsound : (bridgedEdge left right sharedCameraIds topConfidence eligible.1).Sound := by
      refine ⟨hne, ?_, hshared, hcameras, ?_⟩
      · show (if left.label ≠ right.label then AssociationReasonCode.labelTransitionEvidence
          else .gapContinuityEvidence) ≠ _
        split_ifs <;> simp
      · exact hkeys.sublist ((filter_sublist.trans hsublist).map _)
    dsimp only
    rw [construct_eq_ok.mpr ⟨hsound.bridged_valid, rfl⟩]
    exact ⟨_, rfl, classifies_of_edge hsound rfl rfl rfl⟩

theorem classifyPair_spec (hsorted : bridges.Pairwise fun a b => a.sortKey ≤ b.sortKey)
    (hkeys : (bridges.map (·.acceptedBridgeEvidenceLogicalKey)).Pairwise (· < ·)) :
    ∃ classified, classifyPair policy left right bridges = .ok classified ∧
      Classifies left right classified := by
  unfold classifyPair
  dsimp only
  split_ifs with htouching hgap hshared htransition
  · exact classifyTouching_spec hne policy bridges
  · exact splitPair_spec hne (by decide) _ _
  · exact splitPair_spec hne (by decide) _ _
  · exact splitPair_spec hne (by decide) _ _
  · exact classifyBridged_spec hne policy hshared (canonicalCameraIds_filter _) hsorted hkeys

end Pair

end Robata.RecordingAssociation
