import Mathlib.Data.Prod.Lex
import Mathlib.Data.String.Basic
import Robata.Fusion.Enrichment
import Robata.Lib.Grouping

/-!
# Reduction over call parts

The two reducers of `reduction.py`: `_reduce_provider_claim_payloads` on what the provider
returned for each part, and `_build_canonical_fusion_reduction` on the enriched parts.  Both keep
one claim of several equal ones, and both refuse a part that says one thing twice.
-/

namespace Robata.Fusion

open Contracts Lib

variable (H : Hashing)

/-! ## Payloads -/

/-- The digest a provider claim is compared by: all of it but its ordinal. -/
def providerClaimDigest (claim : ProviderTaskClaim) : Sha256Digest :=
  H.semanticSha256 (.providerClaim claim.toProviderClaimContent)

/-- The claims reduced so far, and `seen_across_parts`. -/
structure ReducedClaims where
  seenAcrossParts : List Sha256Digest
  claims : List ProviderTaskClaim

/-- A claim that was seen in an earlier part is dropped; another one gets the next ordinal. -/
def ReducedClaims.push (reduced : ReducedClaims) (claim : ProviderTaskClaim) : ReducedClaims :=
  let digest := providerClaimDigest H claim
  if digest ∈ reduced.seenAcrossParts then reduced
  else
    { seenAcrossParts := digest :: reduced.seenAcrossParts
      claims := reduced.claims ++ [{ claim with claimOrdinal := reduced.claims.length }] }

/-- The loop over the claims of one part, with `seen_in_part`. -/
def reducePart (reduced : ReducedClaims) (payload : ProviderClaimPayload) :
    Except FusionError ReducedClaims :=
  foldDistinct (providerClaimDigest H) (fun reduced claim => reduced.push H claim)
    (.configuration "one call part contains duplicate provider claims") payload.claims [] reduced

/-- The payload that has been reduced, which its contract checks. -/
def reducedPayload (claims : List ProviderTaskClaim) (abstained : Bool) :
    Except FusionError ProviderClaimPayload := do
  let payload : ProviderClaimPayload := { claims, abstained }
  payload.validateOrdinals
  pure payload

def reduceProviderClaimPayloads (payloads : List ProviderClaimPayload) :
    Except FusionError ProviderClaimPayload := do
  require (payloads ≠ [])
    (.configuration "provider claim reduction requires at least one part payload")
  if payloads.all (·.abstained) then
    reducedPayload [] true
  else do
    require (payloads.any (·.abstained) = false)
      (.configuration "required part payloads cannot mix claims and abstentions")
    let reduced ← payloads.foldlM (reducePart H) { seenAcrossParts := [], claims := [] }
    reducedPayload reduced.claims false

/-! ## Enriched claims -/

/-- `_fusion_claim_reduction_projection`, one evidence reference. -/
def EnrichedEvidenceReference.projection (item : EnrichedEvidenceReference) :
    FusionEvidenceProjection where
  packageOrdinal := item.packageOrdinal
  packageSemanticContentSha256 := item.packageSemanticContentSha256
  cameraId := item.cameraId
  cameraOrdinal := item.cameraOrdinal
  frameOrdinal := item.frameOrdinal
  alignedTimestampNs := item.alignedTimestampNs
  sourceTimestampNs := item.sourceTimestampNs
  sourceArtifactSha256 := item.sourceArtifactSha256

def fusionClaimReductionProjection (claim : EnrichedProviderClaim) : FusionClaimProjection where
  kind := claim.kind
  packageOrdinal := claim.packageOrdinal
  cameraId := claim.cameraId
  interval := claim.interval
  label := claim.label
  observation := claim.observation
  evidence := claim.evidence.map (·.projection)
  modelReportedConfidence := claim.modelReportedConfidence.map fun confidence =>
    (confidence.producerVersion, confidence.value)
  conflictCodes := claim.conflictCodes

def fusionClaimReductionDigest (claim : EnrichedProviderClaim) : Sha256Digest :=
  H.semanticSha256 (.fusionClaim (fusionClaimReductionProjection claim))

/-! ## Records of the reduction -/

inductive CanonicalOfflinePartStatus
  | enriched
  | terminalFailed
  | postSelectionInvalid
  deriving DecidableEq

/-- Exact per-part lineage, with what the reduction reads of it. -/
structure CanonicalOfflinePartResult where
  partOrdinal : Nat
  partSemanticSha256 : Sha256Digest
  status : CanonicalOfflinePartStatus
  (completionId inferenceId : OpaqueUuid)
  selectedOutput : Option SelectedAttemptOutput
  enrichedOutput : Option OrchestratorEnrichedOutput

structure PlatformEnrichedOutputReference where
  recordingIdentity : Sha256Digest
  enrichmentLogicalKey : NodeLogicalKey
  enrichedOutputSemanticSha256 : Sha256Digest
  enrichmentPolicyVersion : SchemaVersion

structure CanonicalFusionPartSource where
  partOrdinal : Nat
  partSemanticSha256 : Sha256Digest
  (completionId inferenceId : OpaqueUuid)
  selectedAttemptOutputSha256 : Sha256Digest
  enrichment : PlatformEnrichedOutputReference
  abstained : Bool

structure CanonicalFusionClaimSource where
  (partOrdinal sourceClaimOrdinal : Nat)
  sourceClaimId : OpaqueUuid
  enrichmentLogicalKey : NodeLogicalKey
  deriving DecidableEq

structure CanonicalReducedFusionClaim where
  fusionOutputOrdinal : Nat
  claimSemanticSha256 : Sha256Digest
  representative : EnrichedProviderClaim
  sources : List CanonicalFusionClaimSource

/-- The barrier reduction, with what the fusion reduction reads of it. -/
structure InferenceCallReduction where
  reductionId : OpaqueUuid
  (reductionSemanticSha256 inputPlanSemanticSha256 : Sha256Digest)
  orderedCompletionIds : List OpaqueUuid
  reductionPolicy : String
  reductionPolicyVersion : SchemaVersion

structure CanonicalFusionReduction where
  reductionId : OpaqueUuid
  reductionLogicalKey : NodeLogicalKey
  (semanticSha256 inputPlanSemanticSha256 : Sha256Digest)
  barrierReductionId : OpaqueUuid
  barrierReductionSemanticSha256 : Sha256Digest
  reductionPolicy : String
  reductionPolicyVersion : SchemaVersion
  outcome : FusionOutcome
  parts : List CanonicalFusionPartSource
  claims : List CanonicalReducedFusionClaim
  createdAt : String

/-- `PlatformEnrichedOutputReference.from_output`, with `validate_key`. -/
def PlatformEnrichedOutputReference.fromOutput (output : OrchestratorEnrichedOutput) :
    Except FusionError PlatformEnrichedOutputReference := do
  require ("orchestrator-enrichment:".toList.isPrefixOf output.enrichmentLogicalKey.toList)
    (.value "event hypotheses require an orchestrator enrichment logical key")
  pure
    { recordingIdentity := output.authority.recordingIdentity
      enrichmentLogicalKey := output.enrichmentLogicalKey
      enrichedOutputSemanticSha256 := output.semanticSha256
      enrichmentPolicyVersion := output.enrichmentPolicyVersion }

/-- The key of `sorted` over the sources of a claim. -/
def CanonicalFusionClaimSource.sortKey (source : CanonicalFusionClaimSource) :
    Nat ×ₗ Nat ×ₗ OpaqueUuid :=
  toLex (source.partOrdinal, toLex (source.sourceClaimOrdinal, source.sourceClaimId))

def CanonicalReducedFusionClaim.validateReducedClaim (claim : CanonicalReducedFusionClaim) :
    Except FusionError Unit := do
  require (claim.representative.kind = .fusionHypothesis)
    (.value "fusion reduction accepts only fusion hypotheses")
  require (claim.sources ≠ [] ∧ claim.sources = sortedBy (·.sortKey) claim.sources)
    (.value "fusion claim sources must be nonempty and canonical")
  require (claim.sources.map (·.sortKey)).Nodup (.value "fusion claim sources must be unique")
  require (claim.claimSemanticSha256 = fusionClaimReductionDigest H claim.representative)
    (.value "fusion claim semantic digest is inconsistent")

/-- One part in `_canonical_fusion_reduction_projection_values`. -/
def CanonicalFusionPartSource.projection (part : CanonicalFusionPartSource) :
    FusionPartProjection where
  partOrdinal := part.partOrdinal
  partSemanticSha256 := part.partSemanticSha256
  selectedAttemptOutputSha256 := part.selectedAttemptOutputSha256
  recordingIdentity := part.enrichment.recordingIdentity
  enrichmentLogicalKey := part.enrichment.enrichmentLogicalKey
  enrichmentPolicyVersion := part.enrichment.enrichmentPolicyVersion
  abstained := part.abstained

/-- One claim in `_canonical_fusion_reduction_projection_values`. -/
def CanonicalReducedFusionClaim.projection (claim : CanonicalReducedFusionClaim) :
    ReducedClaimProjection where
  fusionOutputOrdinal := claim.fusionOutputOrdinal
  claimSemanticSha256 := claim.claimSemanticSha256
  representative := fusionClaimReductionProjection claim.representative
  sources := claim.sources.map fun item =>
    (item.partOrdinal, item.sourceClaimOrdinal, item.enrichmentLogicalKey)

def CanonicalFusionReduction.projection (reduction : CanonicalFusionReduction) :
    FusionReductionProjection where
  inputPlanSemanticSha256 := reduction.inputPlanSemanticSha256
  barrierReductionSemanticSha256 := reduction.barrierReductionSemanticSha256
  reductionPolicy := reduction.reductionPolicy
  reductionPolicyVersion := reduction.reductionPolicyVersion
  outcome := reduction.outcome
  parts := reduction.parts.map (·.projection)
  claims := reduction.claims.map (·.projection)

/-- The shape each outcome asks for. -/
def validateOutcome (reduction : CanonicalFusionReduction) : Except FusionError Unit :=
  match reduction.outcome with
  | .allPartsAbstained =>
    require (reduction.claims = [] ∧ reduction.parts ≠ [] ∧
        reduction.parts.all (·.abstained) = true)
      (.value "all-parts abstention has an inconsistent reduction shape")
  | .noSurvivingEvents =>
    require (reduction.claims = [] ∧ reduction.parts ≠ [] ∧
        reduction.parts.any (·.abstained) = false)
      (.value "empty fusion reduction has an inconsistent shape")
  | .claims =>
    require (reduction.claims ≠ [] ∧ reduction.parts.any (·.abstained) = false)
      (.value "claim reduction requires every required part to complete")

/-- The part of a source is in the manifest, with the enrichment the source names. -/
def validateSource (parts : List CanonicalFusionPartSource) (source : CanonicalFusionClaimSource) :
    Except FusionError Unit :=
  require (((Dict.index (·.partOrdinal) parts).get? source.partOrdinal).map
      (·.enrichment.enrichmentLogicalKey) = some source.enrichmentLogicalKey)
    (.value "reduced claim source is outside the part manifest")

def CanonicalFusionReduction.validateReduction (reduction : CanonicalFusionReduction) :
    Except FusionError Unit := do
  require (reduction.parts.map (·.partOrdinal) = List.range reduction.parts.length)
    (.value "fusion reduction parts must be complete and ordered")
  require (reduction.parts.map (·.enrichment.enrichmentLogicalKey)).Nodup
    (.value "fusion reduction enrichments must be unique")
  require (reduction.claims.map (·.fusionOutputOrdinal) = List.range reduction.claims.length)
    (.value "reduced fusion ordinals must be contiguous from zero")
  reduction.claims.forM (·.sources.forM (validateSource reduction.parts))
  validateOutcome reduction
  let expected := H.semanticSha256 (.reduction reduction.projection)
  require (reduction.semanticSha256 = expected)
    (.value "fusion reduction semantic digest is inconsistent")
  require (reduction.reductionLogicalKey = "fusion-reduction:" ++ expected)
    (.value "fusion reduction logical key is inconsistent")
  require (reduction.reductionId = H.uuid5 ("robata:canonical-fusion-reduction:" ++ expected))
    (.value "fusion reduction ID is inconsistent")

/-! ## The reduction of the enriched parts -/

/-- The enriched claims of one group, each with the result of its part. -/
abbrev ClaimGroup : Type := List (CanonicalOfflinePartResult × EnrichedProviderClaim)

/-- `grouped_claims.setdefault(digest, []).append((result, claim))`. -/
def appendToGroup (grouped : Dict Sha256Digest ClaimGroup)
    (item : CanonicalOfflinePartResult × EnrichedProviderClaim) : Dict Sha256Digest ClaimGroup :=
  grouped.append (fusionClaimReductionDigest H item.2) item

/-- The loop over the claims of one part, with `seen_in_part`. -/
def groupPart (result : CanonicalOfflinePartResult) (claims : List EnrichedProviderClaim)
    (grouped : Dict Sha256Digest ClaimGroup) :
    Except FusionError (Dict Sha256Digest ClaimGroup) :=
  foldDistinct (fusionClaimReductionDigest H)
    (fun grouped claim => appendToGroup H grouped (result, claim))
    (.configuration "one enriched part contains duplicate fusion claim semantics") claims [] grouped

/-- `part_sources` and `grouped_claims`. -/
structure CollectedParts where
  partSources : List CanonicalFusionPartSource
  groupedClaims : Dict Sha256Digest ClaimGroup

def partSource (result : CanonicalOfflinePartResult) (selected : SelectedAttemptOutput)
    (enriched : OrchestratorEnrichedOutput) (enrichment : PlatformEnrichedOutputReference) :
    CanonicalFusionPartSource where
  partOrdinal := result.partOrdinal
  partSemanticSha256 := result.partSemanticSha256
  completionId := result.completionId
  inferenceId := result.inferenceId
  selectedAttemptOutputSha256 := selected.outputSha256
  enrichment
  abstained := enriched.abstained

/-- One iteration of the loop over the planned parts and their results. -/
def collectPart (collected : CollectedParts)
    (step : InferenceCallPart × CanonicalOfflinePartResult) : Except FusionError CollectedParts :=
  match step.2.enrichedOutput, step.2.selectedOutput with
  | some enriched, some selected => do
      require (step.2.status = .enriched ∧ step.2.partSemanticSha256 = step.1.partSemanticSha256)
        (.configuration "fusion reduction requires exact enriched lineage for every part")
      let enrichment ← PlatformEnrichedOutputReference.fromOutput enriched
      let grouped ← groupPart H step.2 enriched.claims collected.groupedClaims
      pure
        { partSources :=
            collected.partSources ++ [partSource step.2 selected enriched enrichment]
          groupedClaims := grouped }
  | _, _ =>
    .error (.configuration "fusion reduction requires exact enriched lineage for every part")

/-- The key of `sorted` over the groups: the interval of the first claim, then the digest. -/
def groupKey (entry : Sha256Digest × ClaimGroup) : Int ×ₗ Int ×ₗ Sha256Digest :=
  let interval := entry.2.head?.bind fun first => first.2.interval
  toLex (((interval.map (·.startNs)).getD (-1)),
    toLex (((interval.map (·.endNs)).getD (-1)), entry.1))

/-- The key of `sorted` over a group. -/
def memberKey (item : CanonicalOfflinePartResult × EnrichedProviderClaim) :
    Nat ×ₗ Nat ×ₗ OpaqueUuid :=
  toLex (item.1.partOrdinal, toLex (item.2.claimOrdinal, item.2.claimId))

/-- The source record of a claim of an enriched part. -/
def claimSource (item : CanonicalOfflinePartResult × EnrichedProviderClaim) :
    Option CanonicalFusionClaimSource :=
  item.1.enrichedOutput.map fun enriched =>
    { partOrdinal := item.1.partOrdinal
      sourceClaimOrdinal := item.2.claimOrdinal
      sourceClaimId := item.2.claimId
      enrichmentLogicalKey := enriched.enrichmentLogicalKey }

/-- The reduced claim of a group, at its place in the output. -/
def reducedClaim (place : (Sha256Digest × ClaimGroup) × Nat) :
    Except FusionError CanonicalReducedFusionClaim :=
  match sortedBy memberKey place.1.2 with
  | [] => .error .index
  | first :: rest => do
      let claim : CanonicalReducedFusionClaim :=
        { fusionOutputOrdinal := place.2
          claimSemanticSha256 := place.1.1
          representative := first.2
          sources := (first :: rest).filterMap claimSource }
      claim.validateReducedClaim H
      pure claim

def fusionOutcome (partSources : List CanonicalFusionPartSource)
    (claims : List CanonicalReducedFusionClaim) : FusionOutcome :=
  if partSources.all (·.abstained) then .allPartsAbstained
  else if claims ≠ [] then .claims
  else .noSurvivingEvents

/-- The reduction with its identity, derived from what is projected of it. -/
def identifiedReduction (values : CanonicalFusionReduction) : CanonicalFusionReduction :=
  let digest := H.semanticSha256 (.reduction values.projection)
  { values with
    reductionId := H.uuid5 ("robata:canonical-fusion-reduction:" ++ digest)
    reductionLogicalKey := "fusion-reduction:" ++ digest
    semanticSha256 := digest }

/-- The results are those of the complete ordered call plan. -/
def MatchesCallPlan (plan : InferenceInputPlan) (barrier : InferenceCallReduction)
    (results : List CanonicalOfflinePartResult) : Prop :=
  results.length = plan.callPlan.parts.length ∧
    results.map (·.partOrdinal) = List.range plan.callPlan.parts.length ∧
    barrier.inputPlanSemanticSha256 = plan.semanticSha256 ∧
    barrier.orderedCompletionIds = results.map (·.completionId) ∧
    barrier.reductionPolicy = plan.callPlan.reductionPolicy ∧
    barrier.reductionPolicyVersion = plan.callPlan.reductionPolicyVersion

instance decidableMatchesCallPlan (plan : InferenceInputPlan) (barrier : InferenceCallReduction)
    (results : List CanonicalOfflinePartResult) : Decidable (MatchesCallPlan plan barrier results) :=
  inferInstanceAs (Decidable (_ ∧ _ ∧ _ ∧ _ ∧ _ ∧ _))

def buildCanonicalFusionReduction (plan : InferenceInputPlan) (barrier : InferenceCallReduction)
    (results : List CanonicalOfflinePartResult) (createdAt : String) :
    Except FusionError CanonicalFusionReduction := do
  require (MatchesCallPlan plan barrier results)
    (.configuration "fusion reduction inputs do not match the complete ordered call plan")
  let collected ← (plan.callPlan.parts.zip results).foldlM (collectPart H)
    { partSources := [], groupedClaims := KeyedTable.empty }
  require (¬(collected.partSources.any (·.abstained) = true ∧
      ¬collected.partSources.all (·.abstained) = true))
    (.configuration "fusion reduction cannot mix required abstentions and claims")
  let claims ← (sortedBy groupKey collected.groupedClaims.rows).zipIdx.mapM (reducedClaim H)
  let reduction := identifiedReduction H
    { reductionId := ""
      reductionLogicalKey := ""
      semanticSha256 := ""
      inputPlanSemanticSha256 := plan.semanticSha256
      barrierReductionId := barrier.reductionId
      barrierReductionSemanticSha256 := barrier.reductionSemanticSha256
      reductionPolicy := plan.callPlan.reductionPolicy
      reductionPolicyVersion := plan.callPlan.reductionPolicyVersion
      outcome := fusionOutcome collected.partSources claims
      parts := collected.partSources
      claims
      createdAt }
  reduction.validateReduction H
  pure reduction

end Robata.Fusion
