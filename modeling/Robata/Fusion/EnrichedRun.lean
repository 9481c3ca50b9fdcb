import Robata.Fusion.Citations
import Robata.Fusion.PartReduction

/-!
# A run of enriched parts

A payload for each part of an input plan, enriched part by part under one reference catalog.  Every
claim of the run stands beside the enriched claim that was made of it, and the digests by which the
reducers compare them tell exactly what the claims have in common.
-/

namespace Robata.Fusion

open Contracts Lib List
open SemanticProjection (enrichment fusionClaim providerClaim selectedAttempt)

variable {H : Hashing} {registry : SchemaRegistry} {plan : InferenceInputPlan}
  {reference : ProviderReferenceCatalog} {calls : List EnrichmentCall}
  {barrier : InferenceCallReduction} {results : List CanonicalOfflinePartResult}

/-! ## The run -/

variable (H registry plan reference calls barrier results) in
/-- The payloads of all parts, enriched part by part under one input plan and one reference
catalog, with results that carry the enriched outputs. -/
structure EnrichedRun : Prop where
  task : plan.subjectTask = .fusionAdjudication
  parts : List.Forall₂ (fun part call => enrichmentPart plan call.inputPlanPartOrdinal = .ok part)
    plan.callPlan.parts calls
  accepted : ∀ call ∈ calls, call.parsed.Accepted ∧ call.selected.Accepted H
  -- every part is an invocation of its own
  selections : (calls.map (·.selected.selectionDecisionLogicalKey)).Nodup
  enriched : List.Forall₂ (fun call result => ∃ output,
    enrich H registry plan reference call = .ok output ∧ result.status = .enriched ∧
      result.selectedOutput = some call.selected ∧ result.enrichedOutput = some output)
    calls results
  callPlan : MatchesCallPlan plan barrier results
  identities : List.Forall₂ (fun part result => result.partSemanticSha256 =
    part.partSemanticSha256) plan.callPlan.parts results

/-- The payloads of the parts, in their order. -/
def payloadsOf (calls : List EnrichmentCall) : List ProviderClaimPayload :=
  calls.map (·.parsed.payload)

/-- What is hashed for a call: its claims, its selected output and its enrichment key. -/
def hashedOf (plan : InferenceInputPlan) (call : EnrichmentCall) : List SemanticProjection :=
  .selectedAttempt call.selected.rawResponseSha256 call.selected.parsedClaimSha256
      call.selected.selectionDecisionLogicalKey ::
    .enrichment call.selected.outputSha256 plan.requestCatalog.semanticSha256
      call.enrichedOutputSchema.sha256 call.enrichmentPolicyVersion ::
    call.parsed.payload.claims.map fun claim => .providerClaim claim.toProviderClaimContent

variable (plan calls results) in
/-- What is hashed in a run to compare claims and parts. -/
def hashedIn : List SemanticProjection :=
  calls.flatMap (hashedOf plan) ++
    (partClaims results).map fun item => .fusionClaim (fusionClaimReductionProjection item.2)

/-! ## One part -/

variable (H plan reference) in
/-- What a successful call of `enrich` tells. -/
structure Enriches (call : EnrichmentCall) (output : OrchestratorEnrichedOutput) : Prop where
  task : call.parsed.task = plan.subjectTask
  entries : reference.entries = expectedReferenceEntries H plan reference.tokenPolicyVersion
  target : call.parsed.rawResponse.target = plan.target
  key : output.enrichmentLogicalKey = "orchestrator-enrichment:" ++ call.logicalDigest H plan
  abstained : output.abstained = call.parsed.payload.abstained
  claims : ∃ part, enrichClaims H plan part reference call.parsed call.selected
    (call.logicalDigest H plan) = .ok output.claims

theorem enrich_spec {call : EnrichmentCall} {output : OrchestratorEnrichedOutput}
    (h : enrich H registry plan reference call = .ok output) :
    Enriches H plan reference call output := by
  obtain ⟨part, _, h⟩ := bind_eq_ok.mp h
  obtain ⟨_, hboundary, h⟩ := bind_eq_ok.mp h
  obtain ⟨claims, hclaims, h⟩ := bind_eq_ok.mp h
  obtain ⟨_, _, h⟩ := bind_eq_ok.mp h
  obtain ⟨_, _, h⟩ := bind_eq_ok.mp h
  cases h
  unfold validateBoundary at hboundary
  simp only [require_bind_eq_ok] at hboundary
  obtain ⟨⟨htask, _⟩, ⟨_, _, _, _, _, hentries⟩, _, _, _, _, _, _, htarget, _⟩ := hboundary
  exact ⟨htask, hentries, htarget, rfl, rfl, part, hclaims⟩

variable (H plan reference calls results) in
/-- A provider claim of a part and the enriched claim that was made of it. -/
structure ClaimPair (part : Nat) (claim : ProviderTaskClaim) (item : PartClaim) : Prop where
  shape : FusionShape claim
  origin : ∃ call, calls[part]? = some call ∧ claim ∈ call.parsed.payload.claims ∧
    call.parsed.rawResponse.target = plan.target ∧
    ∃ digest refs, EnrichedFrom H plan reference call.parsed call.selected digest claim item.2 refs
  member : item ∈ partClaims results
  pair : item.pair = (part, claim.claimOrdinal)

variable (H plan reference calls results) in
/-- A part of the run: its claims are enriched one by one. -/
structure PartPair (part : Nat) (call : EnrichmentCall) (result : CanonicalOfflinePartResult)
    : Prop where
  callAt : calls[part]? = some call
  resultAt : results[part]? = some result
  ordinal : result.partOrdinal = part
  abstained : result.abstained = call.parsed.payload.abstained
  key : result.enrichedOutput.map (·.enrichmentLogicalKey) =
    some ("orchestrator-enrichment:" ++ call.logicalDigest H plan)
  claims : List.Forall₂ (fun claim enriched =>
      ClaimPair H plan reference calls results part claim (result, enriched))
    call.parsed.payload.claims result.claims

section

variable (h : EnrichedRun H registry plan reference calls barrier results)
include h

theorem EnrichedRun.entries :
    reference.entries = expectedReferenceEntries H plan reference.tokenPolicyVersion := by
  have hne : results ≠ [] := by
    rintro rfl
    exact plan.callPlan.nonempty (eq_nil_of_length_eq_zero h.callPlan.1.symm)
  obtain ⟨result, hresult⟩ := exists_mem_of_ne_nil results hne
  obtain ⟨call, _, output, houtput, _⟩ := exists_left_of_forall₂ h.enriched result hresult
  exact (enrich_spec houtput).entries

theorem EnrichedRun.partPair
    {part : Nat} {call : EnrichmentCall} (hcall : calls[part]? = some call) :
    ∃ result, PartPair H plan reference calls results part call result := by
  obtain ⟨result, hresult, output, houtput, _, _, henriched⟩ := getElem?_of_forall₂ h.enriched hcall
  have hspec := enrich_spec houtput
  have haccepted := (h.accepted call (mem_of_getElem? hcall)).1
  have hordinal : result.partOrdinal = part := by
    refine ordinal_of_getElem? (fun r : CanonicalOfflinePartResult => r.partOrdinal) ?_ hresult
    rw [h.callPlan.2.1, h.callPlan.1]
  have hclaims : result.claims = output.claims := by
    unfold CanonicalOfflinePartResult.claims
    rw [henriched]
    rfl
  refine ⟨result, hcall, hresult, hordinal, ?_, ?_, ?_⟩
  · unfold CanonicalOfflinePartResult.abstained
    rw [henriched]
    exact hspec.abstained
  · rw [henriched]
    exact congrArg some hspec.key
  · obtain ⟨range, hmapM⟩ := hspec.claims
    rw [hclaims]
    refine (forall₂_with_mem (mapM_forall₂ hmapM)).imp ?_
    rintro claim enriched ⟨henrich, hclaim, hmem⟩
    have hkind : claim.kind = .fusionHypothesis := by
      have := haccepted.kinds claim hclaim
      rw [hspec.task, h.task] at this
      exact mem_singleton.mp this
    obtain ⟨refs, hfrom⟩ := enrichClaim_spec hkind henrich
    refine ⟨fusionShape_of_accepted hkind (haccepted.payload.shapes claim hclaim),
      ⟨call, hcall, hclaim, hspec.target, _, refs, hfrom⟩, ?_, ?_⟩
    · rw [mem_partClaims, hclaims]
      exact ⟨mem_of_getElem? hresult, hmem⟩
    · unfold PartClaim.pair
      rw [hordinal, hfrom.claimOrdinal]

end

/-! ## Pairs of claims -/

section Pairs

variable {part part' : Nat} {claim claim' : ProviderTaskClaim} {item item' : PartClaim}
  {call : EnrichmentCall} {result : CanonicalOfflinePartResult}

section

variable (h : EnrichedRun H registry plan reference calls barrier results)
include h

theorem EnrichedRun.exists_item
    (hcall : calls[part]? = some call) (hclaim : claim ∈ call.parsed.payload.claims) :
    ∃ item, ClaimPair H plan reference calls results part claim item := by
  obtain ⟨result, hpair⟩ := h.partPair hcall
  obtain ⟨enriched, _, hclaims⟩ := exists_right_of_forall₂ hpair.claims claim hclaim
  exact ⟨(result, enriched), hclaims⟩

theorem EnrichedRun.exists_partPair (hresult : result ∈ results) :
    ∃ part call, PartPair H plan reference calls results part call result := by
  obtain ⟨part, hpart⟩ := mem_iff_getElem?.mp hresult
  have hlength := h.enriched.length_eq
  obtain ⟨hlt, _⟩ := List.getElem?_eq_some_iff.mp hpart
  obtain ⟨result', hpair⟩ := h.partPair (getElem?_eq_getElem (hlength ▸ hlt))
  obtain rfl : result = result' := Option.some.inj (hpart.symm.trans hpair.resultAt)
  exact ⟨part, _, hpair⟩

theorem EnrichedRun.exists_claim (hitem : item ∈ partClaims results) :
    ∃ part claim, ClaimPair H plan reference calls results part claim item := by
  obtain ⟨hresult, hclaim⟩ := mem_partClaims.mp hitem
  obtain ⟨part, call, hpair⟩ := h.exists_partPair hresult
  obtain ⟨claim, _, hclaims⟩ := exists_left_of_forall₂ hpair.claims item.2 hclaim
  exact ⟨part, claim, hclaims⟩

end

variable (hfree : H.CollisionFree (hashedIn plan calls results))

include hfree

theorem providerClaimDigest_eq_iff {call' : EnrichmentCall} (hcall : call ∈ calls)
    (hcall' : call' ∈ calls) (hclaim : claim ∈ call.parsed.payload.claims)
    (hclaim' : claim' ∈ call'.parsed.payload.claims) :
    providerClaimDigest H claim = providerClaimDigest H claim' ↔
      SameApartFromOrdinals claim claim' := by
  have hmem {c : EnrichmentCall} {d : ProviderTaskClaim} (hc : c ∈ calls)
      (hd : d ∈ c.parsed.payload.claims) :
      providerClaim d.toProviderClaimContent ∈ hashedIn plan calls results := by
    apply mem_append_left
    rw [mem_flatMap]
    exact ⟨c, hc, mem_cons_of_mem _ (mem_cons_of_mem _ (mem_map.mpr ⟨d, hd, rfl⟩))⟩
  constructor
  · intro hdigest
    have := hfree _ (hmem hcall hclaim) _ (hmem hcall' hclaim') hdigest
    exact providerClaim.inj this
  · exact SameApartFromOrdinals.digest_eq

/-- Enriched claims with one digest are made of claims that are equal but for their ordinals and
the order of their citations. -/
theorem partClaimDigest_eq_iff
    (hentries : reference.entries = expectedReferenceEntries H plan reference.tokenPolicyVersion)
    (h : ClaimPair H plan reference calls results part claim item)
    (h' : ClaimPair H plan reference calls results part' claim' item') :
    partClaimDigest H item = partClaimDigest H item' ↔ SameUpToCitationOrder claim claim' := by
  obtain ⟨call, _, _, htarget, digest, refs, hfrom⟩ := h.origin
  obtain ⟨call', _, _, htarget', digest', refs', hfrom'⟩ := h'.origin
  have hversion : call.parsed.rawResponse.target.modelVersion =
      call'.parsed.rawResponse.target.modelVersion := by
    rw [htarget, htarget']
  rw [← fusionClaimReductionProjection_eq_iff hentries hversion h.shape h'.shape hfrom hfrom']
  constructor
  · intro hdigest
    have hmem {x : PartClaim} (hx : x ∈ partClaims results) :
        fusionClaim (fusionClaimReductionProjection x.2) ∈ hashedIn plan calls results :=
      mem_append_right _ (mem_map.mpr ⟨x, hx, rfl⟩)
    have := hfree _ (hmem h.member) _ (hmem h'.member) hdigest
    exact fusionClaim.inj this
  · intro hprojection
    unfold partClaimDigest fusionClaimReductionDigest
    rw [hprojection]

variable (h : EnrichedRun H registry plan reference calls barrier results)
include h

theorem EnrichedRun.keys_nodup : (results.map fun result =>
      result.enrichedOutput.map (·.enrichmentLogicalKey)).Nodup := by
  have hkeys : (calls.map fun call =>
        some ("orchestrator-enrichment:" ++ call.logicalDigest H plan)) =
      results.map fun result =>
        result.enrichedOutput.map fun enriched => enriched.enrichmentLogicalKey := by
    refine map_eq_of_forall₂ h.enriched ?_
    rintro call result ⟨output, houtput, _, _, henriched⟩
    rw [henriched, Option.map_some, (enrich_spec houtput).key]
  have hselections := h.selections
  rw [List.Nodup, pairwise_map] at hselections
  rw [← hkeys, List.Nodup, pairwise_map]
  refine List.Pairwise.imp_of_mem ?_ hselections
  intro call call' hcall hcall' hne heq
  apply hne
  -- equal keys, equal digests, equal selected outputs, equal selections
  have hdigest : call.logicalDigest H plan = call'.logicalDigest H plan := by
    have hlist := congrArg String.toList (Option.some.inj heq)
    rw [String.toList_append, String.toList_append] at hlist
    exact String.toList_injective (append_cancel_left hlist)
  have hmem {c : EnrichmentCall} (hc : c ∈ calls) {p : SemanticProjection}
      (hp : p ∈ hashedOf plan c) : p ∈ hashedIn plan calls results :=
    mem_append_left _ (mem_flatMap.mpr ⟨c, hc, hp⟩)
  have henrichment := hfree _ (hmem hcall (mem_cons_of_mem _ mem_cons_self)) _
    (hmem hcall' (mem_cons_of_mem _ mem_cons_self)) hdigest
  have houtput := (enrichment.inj henrichment).1
  rw [(h.accepted call hcall).2, (h.accepted call' hcall').2] at houtput
  have hselected := hfree _ (hmem hcall mem_cons_self) _ (hmem hcall' mem_cons_self) houtput
  exact (selectedAttempt.inj hselected).2.2

theorem EnrichedRun.partsComplete : PartsComplete plan barrier results where
  callPlan := h.callPlan
  complete := by
    refine (forall₂_with_mem h.identities).imp ?_
    rintro part result ⟨hidentity, _, hresult⟩
    obtain ⟨call, _, output, houtput, hstatus, hselected, henriched⟩ :=
      exists_left_of_forall₂ h.enriched result hresult
    refine ⟨hstatus, hidentity, ⟨_, hselected⟩, output, henriched, ?_⟩
    rw [(enrich_spec houtput).key, isPrefixOf_iff_prefix, String.toList_append]
    exact prefix_append _ _
  keys := h.keys_nodup hfree
  ordinals result hresult := by
    obtain ⟨part, call, hpair⟩ := h.exists_partPair hresult
    have hordinals : call.parsed.payload.claims.map (·.claimOrdinal) =
        result.claims.map (·.claimOrdinal) :=
      map_eq_of_forall₂ hpair.claims fun _ _ hclaim => (congrArg Prod.snd hclaim.pair).symm
    have hvalid := (h.accepted call (mem_of_getElem? hpair.callAt)).1.payload.ordinals
    rw [← hordinals, (require_bind_eq_ok.mp hvalid).1]
    exact nodup_range
  kinds result hresult enriched henriched := by
    obtain ⟨part, call, hpair⟩ := h.exists_partPair hresult
    obtain ⟨claim, _, hclaim⟩ := exists_left_of_forall₂ hpair.claims enriched henriched
    obtain ⟨_, _, _, _, _, _, hfrom⟩ := hclaim.origin
    exact hfrom.kind.trans hclaim.shape.kind
  abstention result hresult habstained := by
    obtain ⟨part, call, hpair⟩ := h.exists_partPair hresult
    have hvalid := (h.accepted call (mem_of_getElem? hpair.callAt)).1.payload.ordinals
    rw [hpair.abstained] at habstained
    have hnil := require_eq_ok.mp (require_bind_eq_ok.mp hvalid).2 habstained
    have hlength := hpair.claims.length_eq
    rw [hnil] at hlength
    exact eq_nil_of_length_eq_zero hlength.symm

end Pairs

end Robata.Fusion
