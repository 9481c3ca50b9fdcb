import Robata.RecordingAssociation.ConnectedComponents

/-!
# The evidence behind a merge

What `_classify_pair` looks up before it merges two inputs.  A camera without evidence counts as
one with confidence zero, so a threshold of zero is met by cameras that nothing was seen on; two
inputs with one label that touch are compared by their evidence itself and are not affected.
-/

namespace Robata.RecordingAssociation

open Contracts Lib List

variable {H : Hashing} {policy : RecordingAssociationPolicy}
  {recording : CompletedRecordingAssociationBinding} {inputs : List RecordingAssociationInput}
  {bridges : List RecordingAssociationBridgeEvidence}
  {left right : RecordingAssociationInput} {decision : RecordingAssociationPairDecision}

/-! ## Evidence of a camera -/

/-- An input holds accepted evidence on a camera, with at least the given confidence. -/
def Holds (input : RecordingAssociationInput) (cameraId : CameraId)
    (minimumConfidence : ConfidenceMillionths) : Prop :=
  ∃ item ∈ input.acceptedEvidence, item.cameraId = cameraId ∧
    minimumConfidence ≤ item.confidenceMillionths

variable (left right) in
/-- Both inputs hold evidence on a camera. -/
def HoldBoth (cameraId : CameraId) (minimumConfidence : ConfidenceMillionths) : Prop :=
  Holds left cameraId minimumConfidence ∧ Holds right cameraId minimumConfidence

variable {minimumConfidence : ConfidenceMillionths} {cameraId : CameraId}

theorem HoldBoth.symm (h : HoldBoth left right cameraId minimumConfidence) :
    HoldBoth right left cameraId minimumConfidence := ⟨h.2, h.1⟩

theorem Holds.weaken {input : RecordingAssociationInput}
    (h : Holds input cameraId minimumConfidence) :
    Holds input cameraId 0 := by
  obtain ⟨item, hitem, hcamera, _⟩ := h
  exact ⟨item, hitem, hcamera, Fin.zero_le _⟩

theorem HoldBoth.weaken (h : HoldBoth left right cameraId minimumConfidence) :
    HoldBoth left right cameraId 0 :=
  ⟨h.1.weaken, h.2.weaken⟩

/-- The confidence of a camera reaches a bound through evidence, or because the bound is zero. -/
theorem le_cameraConfidences_iff {input : RecordingAssociationInput} :
    minimumConfidence ≤ (cameraConfidences input cameraId).getD 0 ↔
      minimumConfidence = 0 ∨ Holds input cameraId minimumConfidence := by
  refine (cameraConfidences_iff (P := fun value => minimumConfidence ≤ value.getD 0)
    (Q := fun item => minimumConfidence ≤ item.confidenceMillionths)
    fun values item => ?_).trans (by simp [Holds])
  simp [raiseConfidence]

theorem le_both_iff :
    (minimumConfidence ≤ (cameraConfidences left cameraId).getD 0 ∧
        minimumConfidence ≤ (cameraConfidences right cameraId).getD 0) ↔
      minimumConfidence = 0 ∨ HoldBoth left right cameraId minimumConfidence := by
  rw [le_cameraConfidences_iff, le_cameraConfidences_iff]
  unfold HoldBoth
  tauto

/-! ## Bridges -/

/-- Two inputs with one label that touch or overlap. -/
def Touching (left right : RecordingAssociationInput) : Prop :=
  left.label = right.label ∧ temporalGap left.interval right.interval = 0

/-- The kind of bridge that can merge two inputs that do not touch. -/
def requiredKind (left right : RecordingAssociationInput) : AssociationBridgeKind :=
  if left.label ≠ right.label then .labelTransition else .gapContinuity

/-- A bridge reaches from the end of the earlier input to the start of the later one. -/
def Spans (bridge : RecordingAssociationBridgeEvidence)
    (left right : RecordingAssociationInput) : Prop :=
  ∀ earlier later, (earlier = left ∧ later = right ∨ earlier = right ∧ later = left) →
    toLex (earlier.interval.startNs, earlier.interval.endNs) ≤
      toLex (later.interval.startNs, later.interval.endNs) →
    bridge.interval.startNs ≤ earlier.interval.endNs ∧
      later.interval.startNs ≤ bridge.interval.endNs

variable (policy left right) in
/-- A bridge of the required kind and confidence that spans two inputs. -/
structure Bridges (bridge : RecordingAssociationBridgeEvidence) : Prop where
  confident : policy.minBridgeConfidenceMillionths ≤ bridge.confidenceMillionths
  kind : bridge.kind = requiredKind left right
  spans : Spans bridge left right

variable (policy bridges left right) in
/-- A bridge between two inputs that `_eligible_bridges` admits. -/
structure Usable (bridge : RecordingAssociationBridgeEvidence) : Prop extends
    Bridges policy left right bridge where
  member : bridge ∈ bridges
  between : pairKey bridge.sourceActions.1 bridge.sourceActions.2 =
    pairKey left.sourceAction right.sourceAction
  supported : policy.minBridgeConfidenceMillionths = 0 ∨
    HoldBoth left right bridge.cameraId policy.minBridgeConfidenceMillionths

variable (policy bridges left right) in
/-- A usable bridge that no other one exceeds in confidence. -/
def Strongest (bridge : RecordingAssociationBridgeEvidence) : Prop :=
  Usable policy bridges left right bridge ∧
    ∀ other, Usable policy bridges left right other →
      other.confidenceMillionths ≤ bridge.confidenceMillionths

variable {bridge : RecordingAssociationBridgeEvidence}

theorem bridgeSpansInputs_iff :
    bridgeSpansInputs bridge left right = true ↔ Spans bridge left right := by
  unfold bridgeSpansInputs
  by_cases h : toLex (left.interval.startNs, left.interval.endNs) ≤
      toLex (right.interval.startNs, right.interval.endNs)
  · rw [if_pos h]
    simp only [decide_eq_true_eq]
    constructor
    · rintro hspans earlier later (⟨rfl, rfl⟩ | ⟨rfl, rfl⟩) hle
      · exact hspans
      · -- the two intervals are equal
        have heq := toLex.injective (le_antisymm h hle)
        rw [Prod.mk.injEq] at heq
        omega
    · intro hspans
      exact hspans left right (.inl ⟨rfl, rfl⟩) h
  · rw [if_neg h]
    simp only [decide_eq_true_eq]
    constructor
    · rintro hspans earlier later (⟨rfl, rfl⟩ | ⟨rfl, rfl⟩) hle
      · exact absurd hle h
      · exact hspans
    · intro hspans
      exact hspans right left (.inr ⟨rfl, rfl⟩) (le_of_not_ge h)

theorem Spans.symm (h : Spans bridge left right) : Spans bridge right left :=
  fun earlier later hcases => h earlier later hcases.symm

theorem requiredKind_comm : requiredKind left right = requiredKind right left := by
  unfold requiredKind
  simp only [ne_comm]

theorem Touching.symm (h : Touching left right) : Touching right left := by
  refine ⟨h.1.symm, ?_⟩
  rw [temporalGap_comm]
  exact h.2

theorem Bridges.symm (h : Bridges policy left right bridge) : Bridges policy right left bridge :=
  ⟨h.confident, h.kind.trans requiredKind_comm, h.spans.symm⟩

theorem Usable.symm (h : Usable policy bridges left right bridge) :
    Usable policy bridges right left bridge where
  toBridges := h.toBridges.symm
  member := h.member
  between := h.between.trans (pairKey_comm _ _)
  supported := h.supported.imp_right (·.symm)

theorem Strongest.symm (h : Strongest policy bridges left right bridge) :
    Strongest policy bridges right left bridge :=
  ⟨h.1.symm, fun other hother => h.2 other hother.symm⟩

/-- A bridge fails for no reason exactly if it is confident, supported and spans the inputs. -/
theorem bridgeFailure_eq_none :
    bridgeFailure left right minimumConfidence bridge = none ↔
      minimumConfidence ≤ bridge.confidenceMillionths ∧
      (minimumConfidence = 0 ∨ HoldBoth left right bridge.cameraId minimumConfidence) ∧
      Spans bridge left right := by
  rw [← le_both_iff, ← bridgeSpansInputs_iff]
  unfold bridgeFailure
  by_cases hconfident : bridge.confidenceMillionths < minimumConfidence
  · simp [hconfident]
  · by_cases hsupported : (cameraConfidences left bridge.cameraId).getD 0 < minimumConfidence ∨
        (cameraConfidences right bridge.cameraId).getD 0 < minimumConfidence
    · rw [if_neg hconfident, if_pos hsupported]
      simp only [reduceCtorEq, false_iff, not_and]
      intro _ hboth
      rcases hsupported with hless | hless
      · exact absurd hboth.1 (not_le.mpr hless)
      · exact absurd hboth.2 (not_le.mpr hless)
    · rw [if_neg hconfident, if_neg hsupported]
      rw [not_or, not_lt, not_lt] at hsupported
      simp [not_lt.mp hconfident, hsupported.1, hsupported.2]

theorem mem_eligibleBridges :
    bridge ∈ (eligibleBridges left right
        (bridgesOfPair bridges (pairKey left.sourceAction right.sourceAction))
        (requiredKind left right) policy.minBridgeConfidenceMillionths).1 ↔
      Usable policy bridges left right bridge := by
  have hcandidates : bridge ∈ (eligibleBridges left right
      (bridgesOfPair bridges (pairKey left.sourceAction right.sourceAction))
      (requiredKind left right) policy.minBridgeConfidenceMillionths).1 ↔
      (bridge ∈ bridgesOfPair bridges (pairKey left.sourceAction right.sourceAction) ∧
        bridge.kind = requiredKind left right) ∧
        bridgeFailure left right policy.minBridgeConfidenceMillionths bridge = none := by
    unfold eligibleBridges
    dsimp only
    split_ifs with hnone
    · simp only [mem_sortedBy, mem_filter, decide_eq_true_eq]
    · rw [not_not] at hnone
      have hmem := eq_nil_iff_forall_not_mem.mp hnone bridge
      simp only [mem_filter, decide_eq_true_eq] at hmem
      simp only [not_mem_nil, false_iff]
      exact hmem
  rw [hcandidates, bridgeFailure_eq_none]
  unfold bridgesOfPair
  rw [mem_sortedBy, mem_filter, decide_eq_true_eq]
  constructor
  · rintro ⟨⟨⟨hmember, hbetween⟩, hkind⟩, hconfident, hsupported, hspans⟩
    exact ⟨⟨hconfident, hkind, hspans⟩, hmember, hbetween, hsupported⟩
  · rintro ⟨⟨hconfident, hkind, hspans⟩, hmember, hbetween, hsupported⟩
    exact ⟨⟨⟨hmember, hbetween⟩, hkind⟩, hconfident, hsupported, hspans⟩

/-! ## Edges -/

variable (policy bridges left right) in
/-- What an edge of two inputs rests on. -/
structure EdgeEvidence (edge : CandidateEdge) : Prop where
  touching : Touching left right → edge.bridgeEvidence = [] ∧ edge.sharedCameraIds =
    sharedTouchingOrOverlappingCameras left right policy.minInputConfidenceMillionths
  bridged : ¬Touching left right → edge.bridgeEvidence ≠ [] ∧
    (∀ bridge, bridge ∈ edge.bridgeEvidence ↔ Strongest policy bridges left right bridge) ∧
    edge.sharedCameraIds = sharedSupportedCameras left right policy.minInputConfidenceMillionths

variable {classified : Classified}

theorem splitPair_edge {reason : AssociationReasonCode} {sharedCameraIds : List CameraId}
    (h : splitPair left right reason sharedCameraIds bridges = .ok classified) :
    classified.edge = none := by
  obtain ⟨_, _, h⟩ := bind_eq_ok.mp h
  cases h
  rfl

theorem classifyTouching_edge {pairBridges : List RecordingAssociationBridgeEvidence}
    (htouching : Touching left right)
    (h : classifyTouching policy left right pairBridges = .ok classified) :
    ∀ edge ∈ classified.edge, EdgeEvidence policy bridges left right edge := by
  unfold classifyTouching at h
  dsimp only at h
  split_ifs at h with hshared
  · rw [splitPair_edge h]
    exact fun edge hedge => absurd hedge (by simp)
  · obtain ⟨_, _, h⟩ := bind_eq_ok.mp h
    obtain ⟨_, _, h⟩ := bind_eq_ok.mp h
    cases h
    intro edge hedge
    cases hedge
    exact ⟨fun _ => ⟨rfl, rfl⟩, fun hnot => absurd htouching hnot⟩

theorem classifyBridged_edge (hnot : ¬Touching left right)
    (h : classifyBridged policy left right
      (sharedSupportedCameras left right policy.minInputConfidenceMillionths)
      (bridgesOfPair bridges (pairKey left.sourceAction right.sourceAction)) = .ok classified) :
    ∀ edge ∈ classified.edge, EdgeEvidence policy bridges left right edge := by
  have hmem : ∀ bridge, bridge ∈ (eligibleBridges left right
      (bridgesOfPair bridges (pairKey left.sourceAction right.sourceAction))
      (requiredKind left right) policy.minBridgeConfidenceMillionths).1 ↔
      Usable policy bridges left right bridge := fun bridge => mem_eligibleBridges
  unfold classifyBridged at h
  dsimp only at h
  generalize hkind : (if left.label ≠ right.label then AssociationBridgeKind.labelTransition
    else .gapContinuity) = expectedKind at h
  have hrequired : requiredKind left right = expectedKind := hkind
  subst hrequired
  generalize eligibleBridges left right
    (bridgesOfPair bridges (pairKey left.sourceAction right.sourceAction))
    (requiredKind left right) policy.minBridgeConfidenceMillionths = eligible at h hmem
  cases htop : (eligible.1.map (·.confidenceMillionths)).max? with
  | none =>
    rw [htop] at h
    rw [splitPair_edge h]
    exact fun edge hedge => absurd hedge (by simp)
  | some topConfidence =>
    rw [htop] at h
    obtain ⟨_, _, h⟩ := bind_eq_ok.mp h
    cases h
    intro edge hedge
    cases hedge
    obtain ⟨hattained, hgreatest⟩ := max?_eq_some_iff.mp htop
    obtain ⟨best, hbest, hconfidence⟩ := mem_map.mp hattained
    have hle : ∀ bridge, Usable policy bridges left right bridge →
        bridge.confidenceMillionths ≤ topConfidence := fun bridge husable =>
      hgreatest _ (mem_map_of_mem ((hmem bridge).mpr husable))
    refine ⟨fun htouching => absurd htouching hnot, fun _ => ⟨?_, ?_, rfl⟩⟩
    · exact ne_nil_of_mem
        (mem_filter.mpr ⟨hbest, decide_eq_true hconfidence⟩)
    · intro bridge
      show bridge ∈ List.filter _ eligible.1 ↔ _
      rw [mem_filter, decide_eq_true_eq, hmem]
      constructor
      · rintro ⟨husable, rfl⟩
        exact ⟨husable, hle⟩
      · rintro ⟨husable, hstrongest⟩
        refine ⟨husable, le_antisymm (hle bridge husable) ?_⟩
        rw [← hconfidence]
        exact hstrongest best ((hmem best).mp hbest)

theorem classify_edge (h : classify policy bridges (left, right) = .ok classified) :
    ∀ edge ∈ classified.edge, EdgeEvidence policy bridges left right edge := by
  unfold classify classifyPair at h
  dsimp only at h
  split_ifs at h with htouching hgap hshared htransition
  · exact classifyTouching_edge htouching h
  · rw [splitPair_edge h]
    exact fun edge hedge => absurd hedge (by simp)
  · rw [splitPair_edge h]
    exact fun edge hedge => absurd hedge (by simp)
  · rw [splitPair_edge h]
    exact fun edge hedge => absurd hedge (by simp)
  · exact classifyBridged_edge htouching h

/-! ## Decisions -/

variable (policy bridges left right decision) in
/-- What a merged decision on two inputs rests on. -/
structure MergedBy (edge : CandidateEdge) : Prop where
  evidence : EdgeEvidence policy bridges left right edge
  single : edge.bridgeEvidence.length ≤ 1
  decision_eq : decision = mergedPairDecision edge
  actions : decision.sourceActions = orderedSourceActionPair left.sourceAction right.sourceAction

variable {edge : CandidateEdge}

theorem joinEdge_merged {fuel maxInputs : Nat}
    {s s' : List RecordingAssociationPairDecision × DisjointSet String}
    (h : joinEdge fuel maxInputs s edge = .ok s') :
    ∀ decision ∈ s'.1, decision.disposition = .merged → decision ∈ s.1 := by
  obtain ⟨⟨size, disjoint⟩, _, h⟩ := bind_eq_ok.mp h
  dsimp only at h
  by_cases hsize : maxInputs < size
  · rw [if_pos hsize, bind_eq_ok] at h
    obtain ⟨split, hsplit, h⟩ := h
    cases h
    obtain ⟨_, rfl⟩ := construct_eq_ok.mp hsplit
    intro decision hdecision hmerged
    obtain ⟨other, hother, heq⟩ := mem_map.mp hdecision
    split_ifs at heq with hkey
    · rw [← heq] at hmerged
      cases hmerged
    · exact heq ▸ hother
  · rw [if_neg hsize, bind_eq_ok] at h
    obtain ⟨_, _, h⟩ := h
    cases h
    exact fun _ hdecision _ => hdecision

theorem resolveAmbiguous_merged {ambiguous : List (String ×ₗ String)}
    (hclassified : Classifies left right classified)
    (hevidence : ∀ edge ∈ classified.edge, EdgeEvidence policy bridges left right edge)
    (h : resolveAmbiguous ambiguous classified = .ok decision)
    (hmerged : decision.disposition = .merged) :
    ∃ edge, MergedBy policy bridges left right decision edge := by
  unfold resolveAmbiguous at h
  cases hedge : classified.edge with
  | none =>
    rw [hedge] at h
    cases h
    rw [hclassified.splits hedge] at hmerged
    cases hmerged
  | some edge =>
    obtain ⟨_, hleft, hright, _, hdecision⟩ := hclassified.edges edge hedge
    rw [hedge] at h
    dsimp only at h
    by_cases hambiguous : edge.key ∈ ambiguous
    · rw [if_pos hambiguous, construct_eq_ok] at h
      rw [← h.2] at hmerged
      cases hmerged
    · rw [if_neg hambiguous] at h
      cases h
      unfold bridgedDecision at hdecision
      by_cases htied : 1 < edge.bridgeEvidence.length
      · rw [if_pos htied] at hdecision
        rw [hdecision] at hmerged
        cases hmerged
      · rw [if_neg htied] at hdecision
        exact ⟨edge, hevidence edge hedge, not_lt.mp htied, hdecision, hclassified.sourceActions⟩

theorem decidePairs_merged (hdistinct : (inputs.map (·.key)).Nodup)
    (hbridges : ∀ bridge ∈ bridges, bridge.modelValidate = .ok ())
    (hbridgeKeys : (bridges.map (·.acceptedBridgeEvidenceLogicalKey)).Nodup)
    {decisions : List RecordingAssociationPairDecision} {disjoint : DisjointSet String}
    (h : decidePairs policy inputs bridges = .ok (decisions, disjoint)) :
    ∀ decision ∈ decisions, decision.disposition = .merged →
      ∃ p ∈ pairs inputs, ∃ edge, MergedBy policy bridges p.1 p.2 decision edge := by
  obtain ⟨classified, hclassify, h⟩ := bind_eq_ok.mp h
  obtain ⟨ambiguous, _, h⟩ := bind_eq_ok.mp h
  obtain ⟨resolved, hresolve, hjoin⟩ := bind_eq_ok.mp h
  -- the loop over the edges keeps only decisions that were there, or splits them
  have hkept : ∀ decision ∈ decisions, decision.disposition = .merged → decision ∈ resolved := by
    refine foldlM_invariant (fun _ state => ∀ decision ∈ state.1,
      decision.disposition = .merged → decision ∈ resolved) ?_ _ _ _ ?_ hjoin
    · intro edge _ s s' hs hstep decision hdecision hmerged
      exact hs decision (joinEdge_merged hstep decision hdecision hmerged) hmerged
    · exact fun _ hdecision _ => hdecision
  intro decision hdecision hmerged
  obtain ⟨c, hc, hresolved⟩ := exists_left_of_forall₂ (mapM_forall₂ hresolve) decision
    (hkept decision hdecision hmerged)
  obtain ⟨p, hp, hrun⟩ := exists_left_of_forall₂ (mapM_forall₂ hclassify) c hc
  have hne : p.1.sourceAction ≠ p.2.sourceAction := by
    intro heq
    apply ne_of_mem_pairs hdistinct hp
    unfold RecordingAssociationInput.key
    rw [heq]
  obtain ⟨c', hrun', hclassified⟩ := classifyPair_spec hne policy
    (bridgesOfPair_pairwise bridges _) (bridgesOfPair_sorted hbridges hbridgeKeys _)
  have hsame : classify policy bridges p = .ok c' := hrun'
  rw [hrun] at hsame
  cases hsame
  exact ⟨p, hp, resolveAmbiguous_merged hclassified (classify_edge hrun) hresolved hmerged⟩

/-! ## The report -/

variable (policy recording inputs bridges) in
/-- What `derive` has checked when it returns, and the draft that the report is made of. -/
structure Derived (report : RecordingAssociationReport) : Prop where
  distinct : (inputs.map (·.key)).Nodup
  validBridges : ∀ bridge ∈ bridges, bridge.modelValidate = .ok ()
  bridgeKeys : (bridges.map (·.acceptedBridgeEvidenceLogicalKey)).Nodup
  draft : associate policy recording inputs bridges =
    .ok report.toRecordingAssociationReportProjection

variable {report : RecordingAssociationReport}

theorem publish_ok {draft : RecordingAssociationReportProjection} (h : publish H draft = .ok report) :
    report.toRecordingAssociationReportProjection = draft := by
  obtain ⟨_, _, h⟩ := bind_eq_ok.mp h
  obtain ⟨_, _, h⟩ := bind_eq_ok.mp h
  cases h
  rfl

theorem derived_of_ok (h : derive H policy recording inputs bridges = .ok report) :
    Derived policy recording (sortedBy (·.sortKey) inputs) (sortedBy (·.sortKey) bridges)
      report := by
  simp only [derive, bind_eq_ok] at h
  obtain ⟨_, -, _, -, _, -, _, -, _, hdistinct, _, -, _, hbridges, _, hbridgeKeys, _, -, draft,
    hdraft, h⟩ := h
  refine ⟨requireInput_eq_ok.mp hdistinct, ?_, requireInput_eq_ok.mp hbridgeKeys, ?_⟩
  · intro bridge hbridge
    exact forM_eq_ok_iff.mp hbridges bridge (mem_sortedBy.mp hbridge)
  · rw [publish_ok h]
    exact hdraft

theorem Derived.merged (h : Derived policy recording inputs bridges report) :
    ∀ decision ∈ report.pairDecisions, decision.disposition = .merged →
      ∃ p ∈ pairs inputs, ∃ edge, MergedBy policy bridges p.1 p.2 decision edge := by
  have hdraft := h.draft
  obtain ⟨⟨decisions, disjoint⟩, hdecide, hdraft⟩ := bind_eq_ok.mp hdraft
  obtain ⟨_, _, hdraft⟩ := bind_eq_ok.mp hdraft
  obtain ⟨_, _, hdraft⟩ := bind_eq_ok.mp hdraft
  have hpairs : report.pairDecisions = sortedBy (·.key) decisions := by
    rw [← Except.ok.inj hdraft]
  intro decision hdecision hmerged
  rw [hpairs, mem_sortedBy] at hdecision
  exact decidePairs_merged h.distinct h.validBridges h.bridgeKeys hdecide decision hdecision hmerged

variable (policy bridges left right decision) in
/-- The inputs hold what a merged decision says of them: evidence on its cameras, and on the camera
of the bridge that it rests on, which has the confidence and the kind that the policy requires and
spans the inputs. -/
structure RealEvidence : Prop where
  cameras : ∀ cameraId ∈ decision.sharedCameraIds,
    HoldBoth left right cameraId policy.minInputConfidenceMillionths
  bridge : ∀ bridge ∈ bridges,
    decision.selectedBridgeEvidenceLogicalKey = some bridge.acceptedBridgeEvidenceLogicalKey →
      HoldBoth left right bridge.cameraId 0 ∧ Bridges policy left right bridge

/-- Where a threshold is zero, the inputs hold the evidence that it does not ask for. -/
def EvidenceRequired (policy : RecordingAssociationPolicy)
    (bridges : List RecordingAssociationBridgeEvidence) (left right : RecordingAssociationInput) :
    Prop :=
  Touching left right ∨
    (0 < policy.minInputConfidenceMillionths ∨ ∀ cameraId, HoldBoth left right cameraId 0) ∧
    (0 < policy.minBridgeConfidenceMillionths ∨
      ∀ bridge, Strongest policy bridges left right bridge → HoldBoth left right bridge.cameraId 0)

theorem RealEvidence.symm (h : RealEvidence policy bridges left right decision) :
    RealEvidence policy bridges right left decision where
  cameras := fun cameraId hcamera => (h.cameras cameraId hcamera).symm
  bridge := fun bridge hbridge hselected =>
    ⟨(h.bridge bridge hbridge hselected).1.symm, (h.bridge bridge hbridge hselected).2.symm⟩

theorem EvidenceRequired.symm (h : EvidenceRequired policy bridges left right) :
    EvidenceRequired policy bridges right left := by
  rcases h with htouching | ⟨hcameras, hbridge⟩
  · exact .inl htouching.symm
  · exact .inr ⟨hcameras.imp_right fun hall cameraId => (hall cameraId).symm,
      hbridge.imp_right fun hall bridge hstrongest => (hall bridge hstrongest.symm).symm⟩

theorem holdBoth_of_touching
    (h : cameraId ∈ sharedTouchingOrOverlappingCameras left right minimumConfidence) :
    HoldBoth left right cameraId minimumConfidence := by
  obtain ⟨l, hl, r, hr, _⟩ := of_decide_eq_true (mem_filter.mp h).2
  obtain ⟨hl, hlcamera⟩ := mem_filter.mp hl
  obtain ⟨hr, hrcamera⟩ := mem_filter.mp hr
  exact ⟨⟨l, hl, of_decide_eq_true hlcamera⟩, ⟨r, hr, of_decide_eq_true hrcamera⟩⟩

theorem mem_sharedSupportedCameras :
    cameraId ∈ sharedSupportedCameras left right minimumConfidence ↔
      minimumConfidence = 0 ∨ HoldBoth left right cameraId minimumConfidence := by
  unfold sharedSupportedCameras
  rw [mem_filter, decide_eq_true_eq, le_both_iff]
  simp [CameraId.mem_all]

/-- The cameras that support two inputs are real unless the threshold is zero. -/
theorem sharedSupportedCameras_real :
    (∀ cameraId ∈ sharedSupportedCameras left right minimumConfidence,
        HoldBoth left right cameraId minimumConfidence) ↔
      0 < minimumConfidence ∨ ∀ cameraId, HoldBoth left right cameraId 0 := by
  simp only [mem_sharedSupportedCameras]
  by_cases hzero : minimumConfidence = 0
  · subst hzero
    simp
  · simp [hzero, Fin.pos_iff_ne_zero]

theorem mergedPairDecision_selected (h : edge.bridgeEvidence = [bridge]) :
    (mergedPairDecision edge).selectedBridgeEvidenceLogicalKey =
      some bridge.acceptedBridgeEvidenceLogicalKey := by
  unfold mergedPairDecision CandidateEdge.bridgeKeys
  rw [h]
  rfl

section

variable (h : MergedBy policy bridges left right decision edge)
include h

theorem MergedBy.touching (htouching : Touching left right) :
    RealEvidence policy bridges left right decision := by
  obtain ⟨hnone, hcameras⟩ := h.evidence.touching htouching
  rw [h.decision_eq]
  constructor
  case cameras =>
    intro cameraId hcamera
    change cameraId ∈ edge.sharedCameraIds at hcamera
    rw [hcameras] at hcamera
    exact holdBoth_of_touching hcamera
  case bridge =>
    intro bridge _ hselected
    unfold mergedPairDecision CandidateEdge.bridgeKeys at hselected
    rw [hnone] at hselected
    cases hselected

theorem MergedBy.selects (hnot : ¬Touching left right) :
    ∃ bridge, Strongest policy bridges left right bridge ∧
      (∀ other, Strongest policy bridges left right other → other = bridge) ∧
      decision.selectedBridgeEvidenceLogicalKey = some bridge.acceptedBridgeEvidenceLogicalKey := by
  obtain ⟨hne, hmem, _⟩ := h.evidence.bridged hnot
  have hlength := h.single
  cases hbridges : edge.bridgeEvidence with
  | nil => exact absurd hbridges hne
  | cons bridge rest =>
    have hrest : rest = [] := by
      rw [hbridges, length_cons] at hlength
      exact length_eq_zero_iff.mp (by omega)
    rw [hrest] at hbridges
    rw [hbridges] at hmem
    refine ⟨bridge, (hmem bridge).mp mem_cons_self, ?_, ?_⟩
    · intro other hother
      exact mem_singleton.mp ((hmem other).mpr hother)
    · rw [h.decision_eq]
      exact mergedPairDecision_selected hbridges

theorem MergedBy.real_iff (hkeys : (bridges.map (·.acceptedBridgeEvidenceLogicalKey)).Nodup) :
    RealEvidence policy bridges left right decision ↔
      EvidenceRequired policy bridges left right := by
  by_cases htouching : Touching left right
  · exact ⟨fun _ => .inl htouching, fun _ => h.touching htouching⟩
  · obtain ⟨selected, hstrongest, hunique, hselected⟩ := h.selects htouching
    have hcameras : decision.sharedCameraIds =
        sharedSupportedCameras left right policy.minInputConfidenceMillionths := by
      rw [h.decision_eq]
      exact (h.evidence.bridged htouching).2.2
    have honly : ∀ bridge ∈ bridges, decision.selectedBridgeEvidenceLogicalKey =
        some bridge.acceptedBridgeEvidenceLogicalKey → bridge = selected := by
      intro bridge hbridge hkey
      rw [hselected, Option.some.injEq] at hkey
      exact inj_on_of_nodup_map hkeys hbridge hstrongest.1.member hkey.symm
    have hreal : RealEvidence policy bridges left right decision ↔
        (∀ cameraId ∈ sharedSupportedCameras left right policy.minInputConfidenceMillionths,
          HoldBoth left right cameraId policy.minInputConfidenceMillionths) ∧
        HoldBoth left right selected.cameraId 0 := by
      constructor
      · intro hall
        exact ⟨hcameras ▸ hall.cameras, (hall.bridge selected hstrongest.1.member hselected).1⟩
      · rintro ⟨hall, hholds⟩
        refine ⟨hcameras ▸ hall, fun bridge hbridge hkey => ?_⟩
        rw [honly bridge hbridge hkey]
        exact ⟨hholds, hstrongest.1.toBridges⟩
    have hsupported : HoldBoth left right selected.cameraId 0 ↔
        0 < policy.minBridgeConfidenceMillionths ∨ ∀ bridge,
          Strongest policy bridges left right bridge → HoldBoth left right bridge.cameraId 0 := by
      constructor
      · intro hholds
        refine .inr fun bridge hbridge => ?_
        rw [hunique bridge hbridge]
        exact hholds
      · rintro (hpositive | hall)
        · rcases hstrongest.1.supported with hzero | hholds
          · exact absurd hzero (Fin.pos_iff_ne_zero.mp hpositive)
          · exact hholds.weaken
        · exact hall selected hstrongest
    unfold EvidenceRequired
    rw [hreal, sharedSupportedCameras_real, hsupported, or_iff_right htouching]

end

variable {bridges' : List RecordingAssociationBridgeEvidence}

section

variable (hmem : ∀ bridge, bridge ∈ bridges ↔ bridge ∈ bridges')
include hmem

theorem RealEvidence.congr : RealEvidence policy bridges left right decision ↔
      RealEvidence policy bridges' left right decision := by
  constructor
  · intro h
    exact ⟨h.cameras, fun bridge hbridge => h.bridge bridge ((hmem bridge).mpr hbridge)⟩
  · intro h
    exact ⟨h.cameras, fun bridge hbridge => h.bridge bridge ((hmem bridge).mp hbridge)⟩

theorem strongest_congr :
    Strongest policy bridges left right bridge ↔ Strongest policy bridges' left right bridge := by
  have husable : ∀ other, Usable policy bridges left right other ↔
      Usable policy bridges' left right other := by
    intro other
    constructor
    · intro h
      exact ⟨h.toBridges, (hmem other).mp h.member, h.between, h.supported⟩
    · intro h
      exact ⟨h.toBridges, (hmem other).mpr h.member, h.between, h.supported⟩
  unfold Strongest
  simp only [husable]

theorem evidenceRequired_congr :
    EvidenceRequired policy bridges left right ↔ EvidenceRequired policy bridges' left right := by
  unfold EvidenceRequired
  simp only [strongest_congr hmem]

end

theorem inputs_of_actions (hdistinct : (inputs.map (·.key)).Nodup)
    {p : RecordingAssociationInput × RecordingAssociationInput} (hp : p ∈ pairs inputs)
    (hleft : left ∈ inputs) (hright : right ∈ inputs)
    (h : orderedSourceActionPair p.1.sourceAction p.2.sourceAction =
      orderedSourceActionPair left.sourceAction right.sourceAction) :
    p = (left, right) ∨ p = (right, left) := by
  have hkeys : pairKey p.1.sourceAction p.2.sourceAction =
      pairKey left.sourceAction right.sourceAction := by
    rw [← pairKey_ordered, h, pairKey_ordered]
  have hsame : ∀ {a b : RecordingAssociationInput}, a ∈ inputs → b ∈ inputs →
      a.key = b.key → a = b := fun ha hb => inj_on_of_nodup_map hdistinct ha hb
  obtain ⟨hfirst, hsecond⟩ := mem_pairs hp
  rcases pairKey_eq_iff.mp hkeys with ⟨h₁, h₂⟩ | ⟨h₁, h₂⟩
  · exact .inl (Prod.ext (hsame hfirst hleft h₁) (hsame hsecond hright h₂))
  · exact .inr (Prod.ext (hsame hfirst hright h₁) (hsame hsecond hleft h₂))

/-- The evidence of a merged pair is real exactly if the inputs touch under one label, or hold
evidence on every camera that a threshold of zero does not ask for; inputs that do not touch are
merged by a bridge. -/
theorem merged_realEvidence_iff {report : RecordingAssociationReport}
    (h : derive H policy recording inputs bridges = .ok report)
    (hleft : left ∈ inputs) (hright : right ∈ inputs) (hdecision : decision ∈ report.pairDecisions)
    (hactions : decision.sourceActions =
      orderedSourceActionPair left.sourceAction right.sourceAction)
    (hmerged : decision.disposition = .merged) :
    (¬Touching left right → ∃ bridge ∈ bridges, decision.selectedBridgeEvidenceLogicalKey =
        some bridge.acceptedBridgeEvidenceLogicalKey) ∧
      (RealEvidence policy bridges left right decision ↔
        EvidenceRequired policy bridges left right) := by
  have hderived := derived_of_ok h
  have hmem : ∀ bridge, bridge ∈ sortedBy (·.sortKey) bridges ↔ bridge ∈ bridges :=
    fun bridge => mem_sortedBy
  obtain ⟨p, hp, edge, hby⟩ := hderived.merged decision hdecision hmerged
  have hinputs := inputs_of_actions hderived.distinct hp (mem_sortedBy.mpr hleft)
    (mem_sortedBy.mpr hright) (hby.actions.symm.trans hactions)
  have hiff := hby.real_iff hderived.bridgeKeys
  rw [RealEvidence.congr hmem, evidenceRequired_congr hmem] at hiff
  have hselects : ¬Touching p.1 p.2 → ∃ bridge ∈ bridges,
      decision.selectedBridgeEvidenceLogicalKey = some bridge.acceptedBridgeEvidenceLogicalKey := by
    intro hnot
    obtain ⟨bridge, hstrongest, _, hselected⟩ := hby.selects hnot
    exact ⟨bridge, (hmem bridge).mp hstrongest.1.member, hselected⟩
  rcases hinputs with rfl | rfl
  · exact ⟨hselects, hiff⟩
  · refine ⟨fun hnot => hselects fun htouching => hnot htouching.symm, ?_⟩
    constructor
    · exact fun hreal => (hiff.mp hreal.symm).symm
    · exact fun hrequired => (hiff.mpr hrequired.symm).symm

/-! ## Samples -/

/-- A policy without thresholds. -/
def openPolicy : RecordingAssociationPolicy where
  version := "1"
  maxGapNs := 100
  minInputConfidenceMillionths := 0
  minBridgeConfidenceMillionths := 0
  allowLabelTransitions := false
  maxInputs := 4
  semanticSha256 := "d"

/-- Two inputs with a gap between them. -/
def apartInputs : List RecordingAssociationInput := [sampleInput "a:d" 0, sampleInput "b:d" 20]

/-- A bridge over the gap on a camera that neither input has evidence of. -/
def strangeBridge : RecordingAssociationBridgeEvidence where
  sourceActions := (⟨"a:d", "d"⟩, ⟨"b:d", "d"⟩)
  acceptedBridgeEvidenceLogicalKey := "bridge:d"
  acceptedBridgeEvidenceSemanticSha256 := "d"
  acceptedBridgeEvidenceExactSha256 := "exact"
  cameraId := .cam02
  interval := sampleInterval 10
  confidenceMillionths := sampleConfidence
  kind := .gapContinuity

/-- The decision on the two inputs. -/
def strangeDecision : RecordingAssociationPairDecision where
  sourceActions := (⟨"a:d", "d"⟩, ⟨"b:d", "d"⟩)
  disposition := .merged
  reasonCodes := [.gapContinuityEvidence]
  temporalGapNs := 10
  sharedCameraIds := CameraId.all
  bridgeEvidenceLogicalKeys := ["bridge:d"]
  selectedBridgeEvidenceLogicalKey := some "bridge:d"
  confidenceMillionths := some sampleConfidence

/-- The bridge on the camera of both inputs. -/
def seenBridge : RecordingAssociationBridgeEvidence := { strangeBridge with cameraId := .cam01 }

/-- The decision where both thresholds ask for evidence. -/
def seenDecision : RecordingAssociationPairDecision :=
  { strangeDecision with sharedCameraIds := [.cam01] }

theorem derive_decides {policy : RecordingAssociationPolicy}
    {bridge : RecordingAssociationBridgeEvidence} {decision : RecordingAssociationPairDecision}
    (hdecisions : (derive sampleHashing policy sampleRecording apartInputs [bridge]).map
      (·.pairDecisions) = .ok [decision]) :
    ∃ report : RecordingAssociationReport,
      derive sampleHashing policy sampleRecording apartInputs [bridge] = .ok report ∧
        decision ∈ report.pairDecisions := by
  cases hderive : derive sampleHashing policy sampleRecording apartInputs [bridge] with
  | error error =>
    rw [hderive] at hdecisions
    cases hdecisions
  | ok report =>
    rw [hderive] at hdecisions
    have hsame : report.pairDecisions = [decision] := Except.ok.inj hdecisions
    exact ⟨report, rfl, hsame ▸ mem_cons_self⟩

theorem seen_decisions : (derive sampleHashing samplePolicy sampleRecording apartInputs
    [seenBridge]).map (·.pairDecisions) = .ok [seenDecision] := by
  decide +kernel

theorem strange_decisions : (derive sampleHashing openPolicy sampleRecording apartInputs
    [strangeBridge]).map (·.pairDecisions) = .ok [strangeDecision] := by
  decide +kernel

/-- With thresholds the evidence of the merged inputs is real; without, it is not asked for. -/
theorem merged_realEvidence_iff_sample :
    (∃ report : RecordingAssociationReport,
      derive sampleHashing samplePolicy sampleRecording apartInputs [seenBridge] = .ok report ∧
        RealEvidence samplePolicy [seenBridge] (sampleInput "a:d" 0) (sampleInput "b:d" 20)
          seenDecision) ∧
    ∃ report : RecordingAssociationReport,
      derive sampleHashing openPolicy sampleRecording apartInputs [strangeBridge] = .ok report ∧
        ¬RealEvidence openPolicy [strangeBridge] (sampleInput "a:d" 0) (sampleInput "b:d" 20)
          strangeDecision := by
  obtain ⟨seen, hseen, hseenMem⟩ := derive_decides seen_decisions
  obtain ⟨strange, hstrange, hstrangeMem⟩ := derive_decides strange_decisions
  refine ⟨⟨seen, hseen, ?_⟩, strange, hstrange, ?_⟩
  · refine (merged_realEvidence_iff hseen (by decide) (by decide) hseenMem (by decide +kernel)
      rfl).2.mpr (.inr ⟨.inl (by decide), .inl (by decide)⟩)
  · rw [(merged_realEvidence_iff hstrange (by decide) (by decide) hstrangeMem (by decide +kernel)
      rfl).2]
    rintro (htouching | ⟨hthreshold | hall, -⟩)
    · have hgap : temporalGap (sampleInput "a:d" 0).interval (sampleInput "b:d" 20).interval ≠ 0 := by
        decide
      exact hgap htouching.2
    · exact absurd hthreshold (by decide)
    · -- neither input has evidence of the second camera
      obtain ⟨⟨item, hitem, hcamera, -⟩, -⟩ := hall .cam02
      have hfirst : ∀ item ∈ (sampleInput "a:d" 0).acceptedEvidence, item.cameraId ≠ .cam02 := by
        decide
      exact hfirst item hitem hcamera

/-- Without thresholds two inputs are merged over all cameras, although they hold evidence of the
first one only, and by a bridge on a camera that neither of them has seen. -/
theorem derive_merges_without_evidence : openPolicy.validateIdentity sampleHashing = .ok () ∧
    ∃ report : RecordingAssociationReport,
      derive sampleHashing openPolicy sampleRecording apartInputs [strangeBridge] = .ok report ∧
        ∃ decision ∈ report.pairDecisions, decision.disposition = .merged ∧
          decision.sourceActions = (⟨"a:d", "d"⟩, ⟨"b:d", "d"⟩) ∧
          CameraId.cam02 ∈ decision.sharedCameraIds ∧
          decision.selectedBridgeEvidenceLogicalKey =
            some strangeBridge.acceptedBridgeEvidenceLogicalKey ∧
          strangeBridge.cameraId = .cam02 ∧
          ∀ input ∈ apartInputs, ∀ item ∈ input.acceptedEvidence, item.cameraId ≠ .cam02 := by
  obtain ⟨report, hreport, hmem⟩ := derive_decides strange_decisions
  exact ⟨by decide +kernel, report, hreport, strangeDecision, hmem, rfl, rfl, by decide, rfl, rfl,
    by decide⟩

end Robata.RecordingAssociation
