import Mathlib.Order.Bounds.Basic
import Robata.RecordingAssociation.AssociationReport

/-!
# Connected components

The law of recording association: over valid arguments the report exists exactly if no gap between
two inputs is too large for an exact JSON number, and then it is one report for every order of the
arguments, with one decision for each pair and the connected components of the merged pairs as its
clusters.
-/

namespace Robata.RecordingAssociation

open Contracts Lib List

/-- The clusters of a report are the connected components of its merged pairs. -/
structure ConnectedComponents (inputs : List RecordingAssociationInput)
    (report : RecordingAssociationReport) : Prop where
  inputs : report.inputs.Perm inputs
  one : ∀ left ∈ report.inputs, ∀ right ∈ report.inputs, left.key ≠ right.key →
    (report.pairDecisions.map (·.key)).count (pairKey left.sourceAction right.sourceAction) = 1
  pairs : ∀ decision ∈ report.pairDecisions, ∃ left ∈ report.inputs, ∃ right ∈ report.inputs,
    left.key ≠ right.key ∧
      decision.sourceActions = orderedSourceActionPair left.sourceAction right.sourceAction
  limit : ∀ decision ∈ report.pairDecisions, .maxClusterMembersExceeded ∉ decision.reasonCodes
  ambiguous : ∀ decision ∈ report.pairDecisions, decision.disposition = .ambiguous →
    ∀ other ∈ report.pairDecisions, other.disposition = .merged → other.key ≠ decision.key
  component : ∀ cluster ∈ report.clusters, 2 ≤ cluster.memberKeys.length ∧
    cluster.memberKeys.Nodup ∧ ∀ x ∈ cluster.memberKeys, ∀ y, y ∈ cluster.memberKeys ↔
      y ∈ report.inputs.map (·.key) ∧ Relation.EqvGen (MergedPair report.pairDecisions) x y
  covers : ∀ x ∈ report.inputs.map (·.key), ∀ y ∈ report.inputs.map (·.key), x ≠ y →
    Relation.EqvGen (MergedPair report.pairDecisions) x y →
      ∃ cluster ∈ report.clusters, x ∈ cluster.memberKeys
  separate : (report.clusters.flatMap (·.memberKeys)).Nodup
  each : ∀ cluster ∈ report.clusters, ClusterOf report.inputs report.pairDecisions cluster

variable {H : Hashing} {policy : RecordingAssociationPolicy}
  {recording : CompletedRecordingAssociationBinding} {inputs : List RecordingAssociationInput}
  {bridges : List RecordingAssociationBridgeEvidence}

theorem temporalGap_comm (left right : NanosecondInterval) :
    temporalGap left right = temporalGap right left := by
  have hleft := left.nonempty
  have hright := right.nonempty
  unfold temporalGap
  split_ifs <;> omega

theorem temporalGap_self (interval : NanosecondInterval) : temporalGap interval interval = 0 := by
  have hnonempty := interval.nonempty
  unfold temporalGap
  split_ifs <;> omega

theorem gaps_le_iff (hdistinct : (inputs.map (·.key)).Nodup) {limit : Nat} :
    (∀ p ∈ pairs inputs, temporalGap p.1.interval p.2.interval ≤ limit) ↔
      ∀ left ∈ inputs, ∀ right ∈ inputs, temporalGap left.interval right.interval ≤ limit := by
  constructor
  · intro h left hleft right hright
    by_cases hkey : left.key = right.key
    · rw [inj_on_of_nodup_map hdistinct hleft hright hkey, temporalGap_self]
      exact Nat.zero_le _
    · rcases pairs_complete (·.key) hleft hright hkey with hp | hp
      · exact h _ hp
      · rw [temporalGap_comm]
        exact h _ hp
  · intro h p hp
    exact h p.1 (mem_pairs hp).1 p.2 (mem_pairs hp).2

theorem DraftOf.connectedComponents (hdistinct : (inputs.map (·.key)).Nodup)
    {report : RecordingAssociationReport}
    (h : DraftOf policy recording inputs bridges report.toRecordingAssociationReportProjection) :
    ConnectedComponents inputs report := by
  have hinputs : report.inputs = inputs := h.sameInputs
  have hkeys := h.keys
  have hnodup : (report.pairDecisions.map (·.key)).Nodup :=
    hkeys.nodup_iff.mpr (inputPairKeys_nodup hdistinct)
  constructor
  case inputs => exact .of_eq hinputs
  case one =>
    rw [hinputs]
    intro left hleft right hright hne
    apply count_eq_one_of_mem hnodup
    rw [hkeys.mem_iff]
    rcases pairs_complete (·.key) hleft hright hne with hp | hp
    · exact mem_map_of_mem hp
    · rw [pairKey_comm]
      exact mem_map_of_mem hp
  case pairs =>
    rw [hinputs]
    intro decision hdecision
    obtain ⟨p, hp, hof⟩ := h.decisions decision hdecision
    exact ⟨p.1, (mem_pairs hp).1, p.2, (mem_pairs hp).2, ne_of_mem_pairs hdistinct hp,
      hof.sourceActions⟩
  case limit =>
    intro decision hdecision
    obtain ⟨p, -, hof⟩ := h.decisions decision hdecision
    exact hof.reasons
  case ambiguous =>
    intro decision hdecision hambiguous other hother hmerged hkey
    cases inj_on_of_nodup_map hnodup hother hdecision hkey
    rw [hambiguous] at hmerged
    cases hmerged
  case component =>
    rw [hinputs]
    intro cluster hcluster
    obtain ⟨hlength, -, hmembers, -⟩ :=
      validateCluster_eq_ok.mp (h.clusters.valid cluster hcluster)
    refine ⟨?_, hmembers, h.clusters.component cluster hcluster⟩
    unfold RecordingAssociationCluster.memberKeys
    rw [length_map]
    exact hlength
  case covers =>
    rw [hinputs]
    exact h.clusters.covers
  case separate => exact h.clusters.separate
  case each =>
    rw [hinputs]
    exact h.clusters.each

theorem ConnectedComponents.perm {inputs' : List RecordingAssociationInput}
    {report : RecordingAssociationReport} (h : ConnectedComponents inputs' report)
    (hperm : inputs'.Perm inputs) : ConnectedComponents inputs report :=
  { h with inputs := h.inputs.trans hperm }

/-- Over valid arguments `derive` succeeds exactly if every gap between two inputs is an exact JSON
number; its report is valid, does not depend on the order of the arguments, and its clusters are the
connected components of the merged pairs. -/
theorem derive_connectedComponents (hrfc : H.Rfc8785)
    (hpolicy : policy.validateIdentity H = .ok ()) (hne : inputs ≠ [])
    (h : Arguments H policy recording inputs bridges) :
    ((∃ report, derive H policy recording inputs bridges = .ok report) ↔
      ∀ left ∈ inputs, ∀ right ∈ inputs, temporalGap left.interval right.interval ≤ exactLimit) ∧
    ∀ report, derive H policy recording inputs bridges = .ok report →
      report.validateReport H = .ok () ∧
      (∀ inputs' bridges', inputs.Perm inputs' → bridges.Perm bridges' →
        derive H policy recording inputs' bridges' = .ok report) ∧
      ConnectedComponents inputs report := by
  have hperm := sortedBy_perm (·.sortKey) inputs
  have hsorted := h.perm hperm.symm (sortedBy_perm (·.sortKey) bridges).symm
  have hne' : sortedBy (·.sortKey) inputs ≠ [] := by
    intro heq
    rw [heq] at hperm
    exact hne hperm.symm.eq_nil
  obtain ⟨draft, hassociate, hdraft⟩ := associate_spec recording
    hsorted.limit hsorted.distinct hsorted.validBridges hsorted.bridgeKeys
  have hderive : derive H policy recording inputs bridges = publish H draft := by
    rw [h.derive_eq hne, hassociate, ok_bind]
  have hgaps : (H.semanticSha256 (.report draft)).isSome = true ↔
      ∀ left ∈ inputs, ∀ right ∈ inputs, temporalGap left.interval right.interval ≤ exactLimit := by
    rw [hrfc, hdraft.integers_le hrfc hpolicy hsorted.limit, gaps_le_iff hsorted.distinct]
    simp only [mem_sortedBy]
  rw [← hgaps]
  cases hdigest : H.semanticSha256 (.report draft) with
  | none =>
    have hfails : derive H policy recording inputs bridges = .error .canonicalization := by
      rw [hderive]
      unfold publish
      rw [hdigest]
      rfl
    rw [hfails]
    simp
  | some digest =>
    obtain ⟨report, hpublish, hsame, hvalid⟩ := hdraft.publish_eq hsorted hne'
      (sortedBy_sortedBy _ _) (sortedBy_sortedBy _ _) hdigest
    refine ⟨⟨fun _ => rfl, fun _ => ⟨report, hderive.trans hpublish⟩⟩, ?_⟩
    intro report' hreport'
    rw [hderive, hpublish] at hreport'
    cases hreport'
    refine ⟨hvalid, ?_, ?_⟩
    · intro inputs' bridges' hinputs' hbridges'
      rw [h.derive_perm hne hinputs' hbridges', hderive, hpublish]
    · rw [← hsame] at hdraft
      exact (hdraft.connectedComponents hsorted.distinct).perm hperm

/-! ## Samples -/

/-- A digest wherever RFC 8785 has a canonical form. -/
def sampleHashing : Hashing where
  semanticSha256 := exactDigest SemanticProjection.integers fun _ => "d"

theorem sampleHashing_rfc8785 : sampleHashing.Rfc8785 :=
  hashesExactly_exactDigest _ _

theorem sampleConfidence_lt : 500000 < 1000001 := by decide

def sampleConfidence : ConfidenceMillionths := ⟨500000, sampleConfidence_lt⟩

def samplePolicy : RecordingAssociationPolicy where
  version := "1"
  maxGapNs := 100
  minInputConfidenceMillionths := sampleConfidence
  minBridgeConfidenceMillionths := sampleConfidence
  allowLabelTransitions := false
  maxInputs := 4
  semanticSha256 := "d"

def sampleRecording : CompletedRecordingAssociationBinding where
  completedRunId := "run"
  completedRecordingLogicalKey := "recording:d"
  completedRecordingSemanticSha256 := "d"
  completedRecordingExactSha256 := "exact"
  mcapId := "mcap"
  sourceContentSha256 := "source"
  cameraMappingSemanticSha256 := "mapping"
  alignmentSemanticSha256 := "alignment"

theorem sample_bounds (startNs : Fin (2 ^ 62)) :
    int64Min ≤ (startNs.val : Int) ∧ (startNs.val : Int) + 10 ≤ int64Max := by
  unfold int64Min int64Max
  omega

theorem sample_nonempty (startNs : Fin (2 ^ 62)) :
    (startNs.val : Int) < (startNs.val : Int) + 10 := by omega

instance neZeroSample : NeZero (2 ^ 62) := ⟨by decide⟩

/-- Ten nanoseconds. -/
def sampleInterval (startNs : Fin (2 ^ 62)) : NanosecondInterval :=
  ⟨startNs.val, startNs.val + 10, (sample_bounds startNs).1, (sample_bounds startNs).2,
    sample_nonempty startNs⟩

/-- An input with one observation of the first camera. -/
def sampleInput (key : NodeLogicalKey) (startNs : Fin (2 ^ 62)) : RecordingAssociationInput where
  sourceAction := ⟨key, "d"⟩
  mcapId := "mcap"
  sourceContentSha256 := "source"
  cameraMappingSemanticSha256 := "mapping"
  alignmentSemanticSha256 := "alignment"
  interval := sampleInterval startNs
  label := "open"
  acceptedEvidence := [{
    sourceAction := ⟨key, "d"⟩
    acceptedEvidenceLogicalKey := "evidence:d"
    acceptedEvidenceSemanticSha256 := "d"
    acceptedEvidenceExactSha256 := "exact"
    cameraId := .cam01
    interval := sampleInterval startNs
    label := "open"
    confidenceMillionths := sampleConfidence }]
  semanticSha256 := "d"

/-- Four inputs, of which the first two touch. -/
def sampleInputs : List RecordingAssociationInput :=
  [sampleInput "a:d" 0, sampleInput "b:d" 10, sampleInput "c:d" 30, sampleInput "e:d" 1000]

/-- A bridge from the second input to the third. -/
def sampleBridge : RecordingAssociationBridgeEvidence where
  sourceActions := (⟨"b:d", "d"⟩, ⟨"c:d", "d"⟩)
  acceptedBridgeEvidenceLogicalKey := "bridge:d"
  acceptedBridgeEvidenceSemanticSha256 := "d"
  acceptedBridgeEvidenceExactSha256 := "exact"
  cameraId := .cam01
  interval := sampleInterval 20
  confidenceMillionths := sampleConfidence
  kind := .gapContinuity

theorem sampleArguments :
    Arguments sampleHashing samplePolicy sampleRecording sampleInputs [sampleBridge] where
  validRecording := by decide +kernel
  validInputs := by decide +kernel
  limit := by decide
  distinct := by decide
  lineage := by decide +kernel
  validBridges := by decide +kernel
  bridgeKeys := by decide
  references := by decide +kernel

theorem samplePolicy_valid : samplePolicy.validateIdentity sampleHashing = .ok () := by
  decide +kernel

/-- The first three inputs are one cluster, of which the bridge is one of the edges. -/
theorem derive_connectedComponents_sample :
    ∃ report, derive sampleHashing samplePolicy sampleRecording sampleInputs [sampleBridge] =
        .ok report ∧
      report.clusters.map (·.sourceActions.map (·.sourceActionLogicalKey)) =
        [["a:d", "b:d", "c:d"]] ∧
      ConnectedComponents sampleInputs report := by
  have h := derive_connectedComponents sampleHashing_rfc8785 samplePolicy_valid
    (cons_ne_nil _ _) sampleArguments
  have hclusters : (derive sampleHashing samplePolicy sampleRecording sampleInputs
      [sampleBridge]).map (·.clusters.map (·.sourceActions.map (·.sourceActionLogicalKey))) =
        .ok [["a:d", "b:d", "c:d"]] := by decide +kernel
  obtain ⟨report, hreport⟩ := h.1.mpr (by decide +kernel)
  have hreport : derive sampleHashing samplePolicy sampleRecording sampleInputs [sampleBridge] =
      .ok report := hreport
  rw [hreport] at hclusters
  exact ⟨report, hreport, Except.ok.inj hclusters, (h.2 report hreport).2.2⟩

/-- Two inputs that are further apart than an exact JSON number says. -/
def remoteInputs : List RecordingAssociationInput :=
  [sampleInput "a:d" 0, sampleInput "b:d" (2 ^ 60)]

theorem remoteArguments : Arguments sampleHashing samplePolicy sampleRecording remoteInputs [] where
  validRecording := by decide +kernel
  validInputs := by decide +kernel
  limit := by decide
  distinct := by decide
  lineage := by decide +kernel
  validBridges := forall_mem_nil _
  bridgeKeys := nodup_nil
  references := rfl

/-- No report over no inputs, and none over two valid inputs that are too far apart. -/
theorem derive_refuses :
    Arguments sampleHashing samplePolicy sampleRecording [] [] ∧
      derive sampleHashing samplePolicy sampleRecording [] [] =
        .error (.association "recording association requires at least one input") ∧
    Arguments sampleHashing samplePolicy sampleRecording remoteInputs [] ∧
      derive sampleHashing samplePolicy sampleRecording remoteInputs [] =
        .error .canonicalization := by
  refine ⟨⟨?_, forall_mem_nil _, Nat.zero_le _, nodup_nil, rfl,
    forall_mem_nil _, nodup_nil, rfl⟩, by decide +kernel, remoteArguments,
    by decide +kernel⟩
  decide +kernel

end Robata.RecordingAssociation
