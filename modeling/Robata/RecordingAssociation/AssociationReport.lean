import Robata.RecordingAssociation.AssociationClusters

/-!
# The association report

`derive` over valid arguments: its report passes its own validation, does not depend on the order of
the arguments, decides every pair once, and groups the connected components of the merged pairs.
The one thing that can fail is the identity of the report, where two inputs are so far apart that
the gap between them has no exact JSON number.
-/

namespace Robata.RecordingAssociation

open Contracts Lib List

/-! ## Arguments in any order -/

variable {inputs : List RecordingAssociationInput}

theorem validateInputLineage_eq_ok {recording : CompletedRecordingAssociationBinding} :
    validateInputLineage recording inputs = .ok () ↔
      ∀ item ∈ inputs, item.mcapId = recording.mcapId ∧
        item.sourceContentSha256 = recording.sourceContentSha256 ∧
        item.cameraMappingSemanticSha256 = recording.cameraMappingSemanticSha256 ∧
        item.alignmentSemanticSha256 = recording.alignmentSemanticSha256 := by
  exact requireInput_eq_ok

theorem validateBridges_eq_ok {bridges : List RecordingAssociationBridgeEvidence} :
    validateBridges inputs bridges = .ok () ↔
      ∀ bridge ∈ bridges, ∀ ref ∈ [bridge.sourceActions.1, bridge.sourceActions.2],
        (∃ item ∈ inputs, item.key = ref.sourceActionLogicalKey) ∧
        ∀ item ∈ inputs, item.key = ref.sourceActionLogicalKey → item.sourceAction = ref := by
  unfold validateBridges
  rw [forM_eq_ok_iff]
  refine forall₂_congr fun bridge _ => ?_
  unfold validateBridge
  rw [bind_eq_ok]
  simp only [requireInput_eq_ok, mem_map, exists_const]
  exact forall₂_and.symm

theorem sortedInputs_of_perm {inputs' : List RecordingAssociationInput}
    (hperm : inputs.Perm inputs') (hnodup : (inputs.map (·.key)).Nodup) :
    sortedBy (·.sortKey) inputs = sortedBy (·.sortKey) inputs' := by
  apply sortedBy_eq_of_perm hperm
  apply List.Nodup.of_map fun k => (ofLex (ofLex (ofLex k).2).2).2
  rw [map_map]
  exact hnodup

theorem sortedBridges_of_perm {bridges bridges' : List RecordingAssociationBridgeEvidence}
    (hperm : bridges.Perm bridges')
    (hnodup : (bridges.map (·.acceptedBridgeEvidenceLogicalKey)).Nodup) :
    sortedBy (·.sortKey) bridges = sortedBy (·.sortKey) bridges' := by
  apply sortedBy_eq_of_perm hperm
  apply List.Nodup.of_map fun k => (ofLex (ofLex k).2).2
  rw [map_map]
  exact hnodup

variable (H : Hashing)

/-- What the callers of `derive` pass. -/
structure Arguments (policy : RecordingAssociationPolicy)
    (recording : CompletedRecordingAssociationBinding) (inputs : List RecordingAssociationInput)
    (bridges : List RecordingAssociationBridgeEvidence) : Prop where
  validRecording : recording.validateBinding = .ok ()
  validInputs : ∀ input ∈ inputs, input.modelValidate H = .ok ()
  limit : inputs.length ≤ policy.maxInputs
  distinct : (inputs.map (·.key)).Nodup
  lineage : validateInputLineage recording inputs = .ok ()
  validBridges : ∀ bridge ∈ bridges, bridge.modelValidate = .ok ()
  bridgeKeys : (bridges.map (·.acceptedBridgeEvidenceLogicalKey)).Nodup
  references : validateBridges inputs bridges = .ok ()

variable {H} {policy : RecordingAssociationPolicy}
  {recording : CompletedRecordingAssociationBinding}
  {inputs inputs' : List RecordingAssociationInput}
  {bridges bridges' : List RecordingAssociationBridgeEvidence}

section

variable (h : Arguments H policy recording inputs bridges)
include h

theorem Arguments.perm (hinputs : inputs.Perm inputs') (hbridges : bridges.Perm bridges') :
    Arguments H policy recording inputs' bridges' where
  validRecording := h.validRecording
  validInputs := fun input hinput => h.validInputs input (hinputs.mem_iff.mpr hinput)
  limit := hinputs.length_eq ▸ h.limit
  distinct := (hinputs.map _).nodup_iff.mp h.distinct
  lineage := by
    have hlineage := validateInputLineage_eq_ok.mp h.lineage
    exact validateInputLineage_eq_ok.mpr fun item hitem => hlineage item (hinputs.mem_iff.mpr hitem)
  validBridges := fun bridge hbridge => h.validBridges bridge (hbridges.mem_iff.mpr hbridge)
  bridgeKeys := (hbridges.map _).nodup_iff.mp h.bridgeKeys
  references := by
    have href := validateBridges_eq_ok.mp h.references
    simp only [hbridges.mem_iff, hinputs.mem_iff] at href
    exact validateBridges_eq_ok.mpr href

theorem Arguments.derive_eq (hne : inputs ≠ []) : derive H policy recording inputs bridges =
      (associate policy recording (sortedBy (·.sortKey) inputs) (sortedBy (·.sortKey) bridges) >>=
        publish H) := by
  have hsorted := h.perm (sortedBy_perm (·.sortKey) inputs).symm
    (sortedBy_perm (·.sortKey) bridges).symm
  have hnonempty : sortedBy (·.sortKey) inputs ≠ [] := by
    intro heq
    have hlength := (sortedBy_perm (·.sortKey) inputs).length_eq
    rw [heq] at hlength
    exact hne (length_eq_zero_iff.mp hlength.symm)
  unfold derive
  rw [h.validRecording, ok_bind, forM_eq_ok_iff.mpr h.validInputs, ok_bind]
  dsimp only
  have hpass : ∀ (condition : Prop) [Decidable condition] (message : String), condition →
      requireInput condition message = .ok () := fun _ _ _ hc => requireInput_eq_ok.mpr hc
  rw [hpass _ _ hnonempty, ok_bind, hpass _ _ hsorted.limit, ok_bind, hpass _ _ hsorted.distinct,
    ok_bind, hsorted.lineage, ok_bind, forM_eq_ok_iff.mpr h.validBridges, ok_bind,
    hpass _ _ hsorted.bridgeKeys, ok_bind, hsorted.references, ok_bind]

theorem Arguments.derive_perm (hne : inputs ≠ [])
    (hinputs : inputs.Perm inputs') (hbridges : bridges.Perm bridges') :
    derive H policy recording inputs' bridges' = derive H policy recording inputs bridges := by
  have hne' : inputs' ≠ [] := by
    rintro rfl
    exact hne hinputs.eq_nil
  rw [h.derive_eq hne, (h.perm hinputs hbridges).derive_eq hne',
    sortedInputs_of_perm hinputs h.distinct, sortedBridges_of_perm hbridges h.bridgeKeys]

end

/-! ## The draft of the report -/

variable {decisions decisions' : List RecordingAssociationPairDecision}

section

variable (h : ∀ decision, decision ∈ decisions ↔ decision ∈ decisions')
include h

theorem MergedPair.congr : MergedPair decisions = MergedPair decisions' := by
  unfold MergedPair
  simp only [h]

theorem mergedConfidences_congr (keys : List NodeLogicalKey) :
    mergedConfidences decisions keys = mergedConfidences decisions' keys := by
  unfold mergedConfidences
  simp only [h]

theorem ClustersOf.congr
    {clusters : List RecordingAssociationCluster} (hof : ClustersOf inputs decisions clusters) :
    ClustersOf inputs decisions' clusters where
  each := by
    intro cluster hcluster
    have heach := hof.each cluster hcluster
    exact ⟨heach.actions, heach.start, heach.stop,
      mergedConfidences_congr h cluster.memberKeys ▸ heach.confidence⟩
  valid := hof.valid
  component := MergedPair.congr h ▸ hof.component
  covers := MergedPair.congr h ▸ hof.covers
  separate := hof.separate
  sorted := hof.sorted
  ordinals := hof.ordinals

end

theorem buildInputDecision_completes (clustered ambiguous : List NodeLogicalKey)
    (input : RecordingAssociationInput) :
    ∃ decision, buildInputDecision clustered ambiguous input = .ok decision ∧
      input.sourceAction = decision.sourceAction := by
  have hreasons : (inputStatus clustered ambiguous input.key).2 ≠ [] := by
    unfold inputStatus
    split_ifs <;> simp
  have hcanonical : canonical (·.value) (inputStatus clustered ambiguous input.key).2 ≠ [] := by
    obtain ⟨reason, hreason⟩ := exists_mem_of_ne_nil _ hreasons
    have hmem : reason ∈ canonical (·.value) (inputStatus clustered ambiguous input.key).2 := by
      unfold canonical
      rw [mem_sortedBy, mem_dedup]
      exact hreason
    exact ne_nil_of_mem hmem
  unfold buildInputDecision
  dsimp only
  unfold RecordingAssociationInputDecision.validateDecision
  rw [require_eq_ok (u := ()) |>.mpr ⟨hcanonical, (canonical_canonical _ _).symm⟩]
  exact ⟨_, rfl, rfl⟩

variable (policy recording inputs bridges) in
/-- What `associate` makes of sorted arguments. -/
structure DraftOf (draft : RecordingAssociationReportProjection) : Prop where
  sameRecording : draft.recording = recording
  samePolicy : draft.policy = policy
  sameInputs : draft.inputs = inputs
  sameBridges : draft.bridgeEvidence = bridges
  sorted : sortedBy (·.key) draft.pairDecisions = draft.pairDecisions
  keys : (draft.pairDecisions.map (·.key)).Perm ((pairs inputs).map inputPairKey)
  decisions : ∀ decision ∈ draft.pairDecisions, ∃ p ∈ pairs inputs, DecisionOf p decision
  gaps : ∀ p ∈ pairs inputs, ∃ decision ∈ draft.pairDecisions,
    decision.temporalGapNs = temporalGap p.1.interval p.2.interval
  inputDecisions : draft.inputDecisions.map (·.sourceAction) = inputs.map (·.sourceAction)
  clusters : ClustersOf inputs draft.pairDecisions draft.clusters
  outcome : draft.outcome = outcomeOf draft.clusters

variable (recording) in
theorem associate_spec (hlimit : inputs.length ≤ policy.maxInputs)
    (hdistinct : (inputs.map (·.key)).Nodup)
    (hbridges : ∀ bridge ∈ bridges, bridge.modelValidate = .ok ())
    (hbridgeKeys : (bridges.map (·.acceptedBridgeEvidenceLogicalKey)).Nodup) :
    ∃ draft, associate policy recording inputs bridges = .ok draft ∧
      DraftOf policy recording inputs bridges draft := by
  obtain ⟨decisions, d, root, hdecide, hdecisions, hforest, hclasses⟩ :=
    decidePairs_spec hlimit hdistinct hbridges hbridgeKeys
  obtain ⟨clusters, hbuild, hclusters⟩ := buildClusters_spec hdecisions hdistinct hforest hclasses
  obtain ⟨inputDecisions, hinput, hinputDecisions⟩ :
      ∃ inputDecisions, buildInputDecisions inputs decisions clusters = .ok inputDecisions ∧
        List.Forall₂ (fun (input : RecordingAssociationInput)
          (decision : RecordingAssociationInputDecision) =>
            input.sourceAction = decision.sourceAction) inputs inputDecisions := by
    unfold buildInputDecisions
    exact mapM_completes fun input _ => buildInputDecision_completes _ _ input
  have hmem : ∀ decision, decision ∈ decisions ↔ decision ∈ sortedBy (·.key) decisions :=
    fun decision => mem_sortedBy.symm
  refine ⟨{
    recording := recording
    policy := policy
    inputs := inputs
    bridgeEvidence := bridges
    pairDecisions := sortedBy (·.key) decisions
    inputDecisions := inputDecisions
    clusters := clusters
    outcome := outcomeOf clusters }, ?_, ?_⟩
  · unfold associate
    rw [hdecide, ok_bind]
    dsimp only
    rw [hbuild, ok_bind, hinput, ok_bind]
    rfl
  · constructor
    case sameRecording => rfl
    case samePolicy => rfl
    case sameInputs => rfl
    case sameBridges => rfl
    case sorted => exact sortedBy_sortedBy _ _
    case keys =>
      rw [map_eq_of_forall₂ (g := (·.key)) hdecisions fun p decision h => h.key_eq.symm]
      exact (sortedBy_perm _ _).map _
    case decisions =>
      intro decision hdecision
      exact exists_left_of_forall₂ hdecisions decision (mem_sortedBy.mp hdecision)
    case gaps =>
      intro p hp
      obtain ⟨decision, hdecision, hof⟩ := exists_right_of_forall₂ hdecisions p hp
      exact ⟨decision, mem_sortedBy.mpr hdecision, hof.gap⟩
    case inputDecisions => exact (map_eq_of_forall₂ hinputDecisions fun _ _ h => h).symm
    case clusters => exact hclusters.congr hmem
    case outcome => rfl

/-! ## The identity of the report -/

theorem ClustersOf.length_le {clusters : List RecordingAssociationCluster}
    (h : ClustersOf inputs decisions clusters) :
    clusters.length ≤ inputs.length := by
  have hmembers : (clusters.flatMap (·.memberKeys)).length ≤ (inputs.map (·.key)).length := by
    refine (h.separate.subperm ?_).length_le
    intro key hkey
    obtain ⟨cluster, hcluster, hmem⟩ := mem_flatMap.mp hkey
    exact ((h.component cluster hcluster key hmem key).mp hmem).1
  have hcount : ∀ {items : List RecordingAssociationCluster},
      (∀ cluster ∈ items, cluster.memberKeys ≠ []) →
        items.length ≤ (items.flatMap (·.memberKeys)).length := by
    intro items
    induction items with
    | nil => simp
    | cons cluster rest ih =>
      intro hne
      have hfirst := length_pos_of_ne_nil (hne cluster mem_cons_self)
      have hrest := ih fun other hother => hne other (mem_cons_of_mem _ hother)
      rw [length_cons, flatMap_cons, length_append]
      omega
  have hne : ∀ cluster ∈ clusters, cluster.memberKeys ≠ [] := by
    intro cluster hcluster hnil
    have hlength := (validateCluster_eq_ok.mp (h.valid cluster hcluster)).1
    unfold RecordingAssociationCluster.memberKeys at hnil
    rw [map_eq_nil_iff] at hnil
    rw [hnil, length_nil] at hlength
    omega
  rw [length_map] at hmembers
  have hle := hcount hne
  omega

theorem policy_integers (hrfc : H.Rfc8785) (h : policy.validateIdentity H = .ok ()) :
    ∀ n ∈ policy.integers, n ≤ exactLimit := by
  unfold RecordingAssociationPolicy.validateIdentity at h
  rw [require_eq_ok] at h
  exact (hrfc (.policy policy.toRecordingAssociationPolicyProjection)).mp (by rw [← h]; rfl)

theorem confidence_le (c : ConfidenceMillionths) : c.val ≤ exactLimit := by
  unfold exactLimit
  omega

/-- A draft has an identity exactly if no gap between its inputs is too large. -/
theorem DraftOf.integers_le (hrfc : H.Rfc8785) (hpolicy : policy.validateIdentity H = .ok ())
    (hlimit : inputs.length ≤ policy.maxInputs) {draft : RecordingAssociationReportProjection}
    (h : DraftOf policy recording inputs bridges draft) :
    (∀ n ∈ (SemanticProjection.report draft).integers, n ≤ exactLimit) ↔
      ∀ p ∈ pairs inputs, temporalGap p.1.interval p.2.interval ≤ exactLimit := by
  have hintegers := policy_integers hrfc hpolicy
  constructor
  · intro hall p hp
    obtain ⟨decision, hdecision, hgap⟩ := h.gaps p hp
    rw [← hgap]
    apply hall
    refine mem_append_left _ (mem_append_right _ (mem_flatMap.mpr ?_))
    exact ⟨decision, hdecision, mem_cons_self⟩
  · intro hgaps n hn
    unfold SemanticProjection.integers at hn
    simp only [mem_append] at hn
    rcases hn with (((hpolicyInt | hinput) | hbridge) | hdecision) | hcluster
    · rw [h.samePolicy] at hpolicyInt
      exact hintegers n hpolicyInt
    · obtain ⟨input, -, hmem⟩ := mem_flatMap.mp hinput
      obtain ⟨evidence, -, rfl⟩ := mem_map.mp hmem
      exact confidence_le _
    · obtain ⟨bridge, -, rfl⟩ := mem_map.mp hbridge
      exact confidence_le _
    · obtain ⟨decision, hpair, hmem⟩ := mem_flatMap.mp hdecision
      rcases mem_cons.mp hmem with rfl | hconfidence
      · obtain ⟨p, hp, hof⟩ := h.decisions decision hpair
        rw [hof.gap]
        exact hgaps p hp
      · obtain ⟨c, -, rfl⟩ := Option.map_eq_some_iff.mp (Option.mem_toList.mp hconfidence)
        exact confidence_le c
    · obtain ⟨cluster, hmember, hmem⟩ := mem_flatMap.mp hcluster
      rcases mem_cons.mp hmem with rfl | hconfidence
      · have hordinal : cluster.ordinal ∈ draft.clusters.map (·.ordinal) :=
          mem_map_of_mem hmember
        rw [h.clusters.ordinals, mem_range] at hordinal
        have hmax : policy.maxInputs ≤ exactLimit := hintegers _ (by
          unfold RecordingAssociationPolicyProjection.integers
          simp)
        have hcount := h.clusters.length_le
        omega
      · rw [mem_singleton.mp hconfidence]
        exact confidence_le _

theorem DraftOf.publish_eq (h : Arguments H policy recording inputs bridges) (hne : inputs ≠ [])
    {draft : RecordingAssociationReportProjection}
    (hinputs : sortedBy (·.sortKey) inputs = inputs)
    (hbridges : sortedBy (·.sortKey) bridges = bridges)
    (hdraft : DraftOf policy recording inputs bridges draft) {digest : Sha256Digest}
    (hdigest : H.semanticSha256 (.report draft) = some digest) :
    ∃ report : RecordingAssociationReport, publish H draft = .ok report ∧
      report.toRecordingAssociationReportProjection = draft ∧
      report.validateReport H = .ok () := by
  let report : RecordingAssociationReport := {
    draft with
    semanticSha256 := digest
    logicalKey := "recording-association-report-v1:" ++ digest }
  have hkeys := hdraft.keys
  have hexpected : (pairs draft.inputs).map (fun p => pairKey p.1.sourceAction p.2.sourceAction) =
      (pairs inputs).map inputPairKey := by
    rw [hdraft.sameInputs]
    rfl
  have hvalid : report.validateReport H = .ok () := by
    unfold RecordingAssociationReport.validateReport
    simp only [require_bind_eq_ok]
    have hlineage : validateInputLineage draft.recording draft.inputs = .ok () := by
      rw [hdraft.sameRecording, hdraft.sameInputs]
      exact h.lineage
    have hrefs : validateBridges draft.inputs draft.bridgeEvidence = .ok () := by
      rw [hdraft.sameInputs, hdraft.sameBridges]
      exact h.references
    refine ⟨hdraft.sameInputs ▸ hne, ?_, ?_, ?_⟩
    · rw [hdraft.sameInputs, hinputs]
    · rw [hdraft.sameInputs]
      exact h.distinct
    rw [hlineage, ok_bind, require_bind_eq_ok, require_bind_eq_ok]
    refine ⟨?_, ?_, ?_⟩
    · rw [hdraft.sameBridges, hbridges]
    · rw [hdraft.sameBridges]
      exact h.bridgeKeys
    rw [hrefs, ok_bind]
    simp only [require_bind_eq_ok]
    refine ⟨hdraft.sorted.symm, ⟨?_, ?_, ?_⟩, ?_, ⟨hdraft.clusters.sorted, hdraft.clusters.ordinals⟩,
      hdraft.clusters.separate, ?_, hdraft.outcome, ?_⟩
    · rw [hexpected]
      exact hkeys.subset
    · rw [hexpected]
      exact hkeys.symm.subset
    · exact hkeys.nodup_iff.mpr (inputPairKeys_nodup h.distinct)
    · rw [hdraft.inputDecisions, hdraft.sameInputs]
    · intro key hkey
      obtain ⟨cluster, hcluster, hmem⟩ := mem_flatMap.mp hkey
      rw [hdraft.sameInputs]
      exact ((hdraft.clusters.component cluster hcluster key hmem key).mp hmem).1
    · rw [hdigest]
      exact require_eq_ok.mpr ⟨rfl, rfl⟩
  refine ⟨report, ?_, rfl, hvalid⟩
  unfold publish
  rw [hdigest]
  show (report.validateReport H >>= fun _ => Except.ok report) = _
  rw [hvalid, ok_bind]

end Robata.RecordingAssociation
