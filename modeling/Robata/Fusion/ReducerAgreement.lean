import Robata.Fusion.EnrichedRun

/-!
# The two reducers agree

One run: a payload for each part of an input plan, enriched part by part.  Claims that are equal
but for their ordinals and the order of their citations become one fusion claim; the payload
reducer tells citation orders apart.
-/

namespace Robata.Fusion

open Contracts Lib List

variable {H : Hashing} {registry : SchemaRegistry} {plan : InferenceInputPlan}
  {reference : ProviderReferenceCatalog} {calls : List EnrichmentCall}
  {barrier : InferenceCallReduction} {results : List CanonicalOfflinePartResult}

/-! ## Agreement -/

/-- Two claims that differ only in the order of their citations do not stand together. -/
def CitesInOneOrder (claims : List ProviderTaskClaim) : Prop :=
  claims.Pairwise fun claim claim' =>
    SameUpToCitationOrder claim claim' → SameApartFromOrdinals claim claim'

/-- All provider claims, part by part. -/
def allClaims (calls : List EnrichmentCall) : List ProviderTaskClaim :=
  (payloadsOf calls).flatMap (·.claims)

variable (plan reference) in
/-- A reduced payload claim and a reduced fusion claim say the same and cite the same frames. -/
structure SaysTheSame (claim : ProviderTaskClaim) (fused : CanonicalReducedFusionClaim) : Prop where
  interval : fused.representative.interval = claim.interval
  label : fused.representative.label = claim.label
  observation : fused.representative.observation = claim.observation
  score : fused.representative.modelReportedConfidence.map (·.value) = claim.modelReportedScore
  conflictCodes : fused.representative.conflictCodes = claim.conflictCodes
  frames : ∀ frameId, (∃ item ∈ fused.representative.evidence, item.frameId = frameId) ↔
    ∃ token ∈ claim.evidenceTokens, (standsFor plan reference token).map (·.frameId) = some frameId

/-- All abstained, no claims, or claims. -/
def SameOutcome (payload : ProviderClaimPayload) (reduction : CanonicalFusionReduction) : Prop :=
  payload.abstained = true ∧ payload.claims = [] ∧ reduction.claims = [] ∧
      reduction.outcome = .allPartsAbstained ∨
    payload.abstained = false ∧ payload.claims = [] ∧ reduction.claims = [] ∧
      reduction.outcome = .noSurvivingEvents ∨
    payload.abstained = false ∧ payload.claims ≠ [] ∧ reduction.claims ≠ [] ∧
      reduction.outcome = .claims

variable (plan reference) in
/-- The reduced payload claims are mapped onto the reduced fusion claims, and two of them to one
claim exactly when they differ only in the order of their citations. -/
structure Correspondence (payload : ProviderClaimPayload) (reduction : CanonicalFusionReduction)
    (toFusion : Fin payload.claims.length → Fin reduction.claims.length) : Prop where
  saysTheSame : ∀ i, SaysTheSame plan reference (payload.claims.get i)
    (reduction.claims.get (toFusion i))
  onto : Function.Surjective toFusion
  same : ∀ i j, toFusion i = toFusion j ↔
    SameUpToCitationOrder (payload.claims.get i) (payload.claims.get j)

/-- The places that the sources of a reduced fusion claim name. -/
def CanonicalReducedFusionClaim.pairs (claim : CanonicalReducedFusionClaim) : List (Nat × Nat) :=
  claim.sources.map (·.pair)

/-- The sources of the fusion claims partition the claims of the parts, and claims of two parts
stand together when they are equal but for their ordinals and the order of their citations. -/
structure Partition (calls : List EnrichmentCall) (reduction : CanonicalFusionReduction) :
    Prop where
  distinct : (reduction.claims.flatMap (·.pairs)).Nodup
  places : ∀ part ordinal, (part, ordinal) ∈ reduction.claims.flatMap (·.pairs) ↔
    ∃ call, calls[part]? = some call ∧
      ∃ claim ∈ call.parsed.payload.claims, claim.claimOrdinal = ordinal
  together : ∀ part call part' call', calls[part]? = some call → calls[part']? = some call' →
    ∀ claim ∈ call.parsed.payload.claims, ∀ claim' ∈ call'.parsed.payload.claims,
      (∃ fused ∈ reduction.claims, (part, claim.claimOrdinal) ∈ fused.pairs ∧
        (part', claim'.claimOrdinal) ∈ fused.pairs) ↔ SameUpToCitationOrder claim claim'

section Agreement

variable (h : EnrichedRun H registry plan reference calls barrier results)
  (hfree : H.CollisionFree (hashedIn plan calls results))

include h

theorem EnrichedRun.partPairs :
    List.Forall₂ (fun call result =>
      ∃ part, PartPair H plan reference calls results part call result) calls results := by
  rw [forall₂_iff_get]
  refine ⟨h.enriched.length_eq, fun i hi hi' => ?_⟩
  obtain ⟨result, hpair⟩ := h.partPair (getElem?_eq_getElem hi)
  obtain rfl := Option.some.inj ((getElem?_eq_getElem hi').symm.trans hpair.resultAt)
  exact ⟨i, hpair⟩

theorem EnrichedRun.abstained_eq :
    (payloadsOf calls).any (·.abstained) = results.any (·.abstained) ∧
      (payloadsOf calls).all (·.abstained) = results.all (·.abstained) := by
  have hflags : (payloadsOf calls).map (·.abstained) = results.map (·.abstained) := by
    unfold payloadsOf
    rw [map_map]
    refine map_eq_of_forall₂ h.partPairs ?_
    rintro call result ⟨part, hpair⟩
    exact hpair.abstained.symm
  constructor
  · have := congrArg (fun l : List Bool => l.any id) hflags
    rw [any_map, any_map] at this
    exact this
  · have := congrArg (fun l : List Bool => l.all id) hflags
    rw [all_map, all_map] at this
    exact this

include hfree

/-- A part says nothing twice after enrichment when it says nothing twice before and no two of its
claims differ only in the order of their citations. -/
theorem EnrichedRun.distinct_iff :
    (∀ result ∈ results, (result.claims.map (fusionClaimReductionDigest H)).Nodup) ↔
      (∀ payload ∈ payloadsOf calls, (payload.claims.map (providerClaimDigest H)).Nodup) ∧
        ∀ call ∈ calls, CitesInOneOrder call.parsed.payload.claims := by
  have hpart : ∀ call result, (∃ part, PartPair H plan reference calls results part call result) →
      ((result.claims.map (fusionClaimReductionDigest H)).Nodup ↔
        (call.parsed.payload.claims.map (providerClaimDigest H)).Nodup ∧
          CitesInOneOrder call.parsed.payload.claims) := by
    rintro call result ⟨part, hpair⟩
    have hcall := mem_of_getElem? hpair.callAt
    have hfused : (result.claims.map (fusionClaimReductionDigest H)).Nodup ↔
        call.parsed.payload.claims.Pairwise fun c d => ¬SameUpToCitationOrder c d := by
      rw [List.Nodup, pairwise_map]
      refine (pairwise_iff_of_forall₂ hpair.claims ?_).symm
      intro c c' e e' hc hc'
      exact not_congr (partClaimDigest_eq_iff hfree h.entries hc hc').symm
    have hraw : (call.parsed.payload.claims.map (providerClaimDigest H)).Nodup ↔
        call.parsed.payload.claims.Pairwise fun c d => ¬SameApartFromOrdinals c d := by
      rw [List.Nodup, pairwise_map]
      constructor
      · refine List.Pairwise.imp_of_mem ?_
        intro c d hc hd hne
        rwa [Ne, providerClaimDigest_eq_iff hfree hcall hcall hc hd] at hne
      · refine List.Pairwise.imp_of_mem ?_
        intro c d hc hd hne
        rwa [Ne, providerClaimDigest_eq_iff hfree hcall hcall hc hd]
    rw [hfused, hraw]
    unfold CitesInOneOrder
    rw [← pairwise_and_iff]
    constructor
    · refine List.Pairwise.imp ?_
      intro c d hne
      exact ⟨fun hsame => hne hsame.upToCitationOrder, fun hsame => absurd hsame hne⟩
    · refine List.Pairwise.imp ?_
      rintro c d ⟨hne, himp⟩ hsame
      exact hne (himp hsame)
  have hpairs := h.partPairs
  unfold payloadsOf
  rw [forall_mem_map]
  constructor
  · intro hall
    constructor
    · intro call hcall
      obtain ⟨result, hresult, hpair⟩ := exists_right_of_forall₂ hpairs call hcall
      exact ((hpart call result hpair).mp (hall result hresult)).1
    · intro call hcall
      obtain ⟨result, hresult, hpair⟩ := exists_right_of_forall₂ hpairs call hcall
      exact ((hpart call result hpair).mp (hall result hresult)).2
  · rintro ⟨hraw, horder⟩ result hresult
    obtain ⟨call, hcall, hpair⟩ := exists_left_of_forall₂ hpairs result hresult
    exact (hpart call result hpair).mpr ⟨hraw call hcall, horder call hcall⟩

end Agreement

/-! ## The correspondence -/

section Correspondence

variable (h : EnrichedRun H registry plan reference calls barrier results)
  (hfree : H.CollisionFree (hashedIn plan calls results))

include h

variable {payload : ProviderClaimPayload}

/-- A kept payload claim comes from a claim of the run, with its enriched claim. -/
theorem EnrichedRun.exists_origin
    (hpayload : payload.claims = (reducedClaims H (allClaims calls)).claims)
    {kept : ProviderTaskClaim} (hkept : kept ∈ payload.claims) :
    ∃ part claim item, ClaimPair H plan reference calls results part claim item ∧
      SameApartFromOrdinals claim kept := by
  rw [hpayload] at hkept
  obtain ⟨claim, hclaim, hsame⟩ := (reduces_reducedClaims H (allClaims calls)).origin kept hkept
  obtain ⟨payload, hmem, hclaim⟩ := mem_flatMap.mp hclaim
  obtain ⟨call, hcall, rfl⟩ := mem_map.mp hmem
  obtain ⟨part, hpart⟩ := mem_iff_getElem?.mp hcall
  obtain ⟨item, hitem⟩ := h.exists_item hpart hclaim
  exact ⟨part, claim, item, hitem, hsame⟩

include hfree

theorem EnrichedRun.exists_kept
    (hpayload : payload.claims = (reducedClaims H (allClaims calls)).claims)
    {part : Nat} {claim : ProviderTaskClaim} {item : PartClaim}
    (hpair : ClaimPair H plan reference calls results part claim item) :
    ∃ kept ∈ payload.claims, SameApartFromOrdinals claim kept := by
  obtain ⟨call, hcall, hclaim, _⟩ := hpair.origin
  have hreduces := reduces_reducedClaims H (allClaims calls)
  have hmem : providerClaimDigest H claim ∈
      (reducedClaims H (allClaims calls)).claims.map (providerClaimDigest H) := by
    rw [hreduces.kept]
    exact mem_map_of_mem (mem_flatMap.mpr
      ⟨call.parsed.payload, mem_map_of_mem (mem_of_getElem? hcall), hclaim⟩)
  obtain ⟨kept, hkept, hdigest⟩ := mem_map.mp hmem
  rw [← hpayload] at hkept
  obtain ⟨part', claim', item', hpair', hsame⟩ := h.exists_origin hpayload hkept
  obtain ⟨call', hcall', hclaim', _⟩ := hpair'.origin
  rw [← hsame.digest_eq, eq_comm, providerClaimDigest_eq_iff hfree (mem_of_getElem? hcall)
    (mem_of_getElem? hcall') hclaim hclaim'] at hdigest
  exact ⟨kept, hkept, hdigest.trans hsame⟩

theorem EnrichedRun.saysTheSame {claims : List CanonicalReducedFusionClaim}
    (hclaims : FusionClaims H (partClaims results) claims) {part : Nat}
    {claim kept : ProviderTaskClaim} {item : PartClaim} {fused : CanonicalReducedFusionClaim}
    (hpair : ClaimPair H plan reference calls results part claim item)
    (hsame : SameApartFromOrdinals claim kept) (hfused : fused ∈ claims)
    (hdigest : fused.claimSemanticSha256 = partClaimDigest H item) :
    SaysTheSame plan reference kept fused := by
  obtain ⟨first, hfirst, hfirstDigest, hrepresentative⟩ := (hclaims.reduced fused hfused).representative
  obtain ⟨part', claim', hpair'⟩ := h.exists_claim hfirst
  have hsame' : SameUpToCitationOrder claim' kept :=
    ((partClaimDigest_eq_iff hfree h.entries hpair' hpair).mp
      (hfirstDigest.trans hdigest)).trans hsame.upToCitationOrder
  obtain ⟨call, _, _, _, digest, refs, hfrom⟩ := hpair'.origin
  obtain ⟨hinterval, hlabel, hobservation, hscore, hcodes⟩ := hsame'.fields
  have hperm := hsame'.2
  rw [hrepresentative.symm] at hfrom
  refine ⟨?_, ?_, ?_, ?_, ?_, ?_⟩
  · rw [hfrom.interval, hinterval]
  · rw [hfrom.label, hlabel]
  · rw [hfrom.observation, hobservation]
  · rw [hfrom.confidence, ← hscore]
    unfold reportedConfidence
    rw [Option.map_map]
    exact Option.map_id'
  · rw [hfrom.conflictCodes, hcodes]
  · intro frameId
    rw [hfrom.evidence]
    constructor
    · rintro ⟨ref, href, rfl⟩
      have hstands := hfrom.resolved.standsFor (mem_sortedBy.mp href)
      refine ⟨ref.correlationToken, hperm.mem_iff.mp ?_, by rw [hstands]; rfl⟩
      rw [← hfrom.resolved.tokens_eq]
      exact mem_map_of_mem (mem_sortedBy.mp href)
    · rintro ⟨token, htoken, hframe⟩
      rw [← hperm.mem_iff, ← hfrom.resolved.tokens_eq] at htoken
      obtain ⟨ref, href, rfl⟩ := mem_map.mp htoken
      rw [hfrom.resolved.standsFor href] at hframe
      exact ⟨ref, mem_sortedBy.mpr href, Option.some.inj hframe⟩

theorem EnrichedRun.exists_correspondence {reduction : CanonicalFusionReduction}
    (hpayload : payload.claims = (reducedClaims H (allClaims calls)).claims)
    (hclaims : FusionClaims H (partClaims results) reduction.claims) :
    ∃ toFusion, Correspondence plan reference payload reduction toFusion := by
  have hchoose : ∀ i : Fin payload.claims.length, ∃ j : Fin reduction.claims.length,
      ∃ part claim item, ClaimPair H plan reference calls results part claim item ∧
        SameApartFromOrdinals claim (payload.claims.get i) ∧
        (reduction.claims.get j).claimSemanticSha256 = partClaimDigest H item := by
    intro i
    obtain ⟨part, claim, item, hpair, hsame⟩ :=
      h.exists_origin hpayload (get_mem payload.claims i)
    obtain ⟨fused, hfused, hdigest⟩ := hclaims.complete item hpair.member
    obtain ⟨j, rfl⟩ := get_of_mem hfused
    exact ⟨j, part, claim, item, hpair, hsame, hdigest⟩
  choose toFusion hto using hchoose
  have hsame : ∀ i j, toFusion i = toFusion j ↔
      SameUpToCitationOrder (payload.claims.get i) (payload.claims.get j) := by
    intro i j
    obtain ⟨part, claim, item, hpair, hclaim, hdigest⟩ := hto i
    obtain ⟨part', claim', item', hpair', hclaim', hdigest'⟩ := hto j
    have hitems := partClaimDigest_eq_iff hfree h.entries hpair hpair'
    constructor
    · intro heq
      rw [← hdigest, ← hdigest', heq] at hitems
      exact hclaim.upToCitationOrder.symm.trans ((hitems.mp rfl).trans hclaim'.upToCitationOrder)
    · intro hupTo
      have hsameItems := hitems.mpr (hclaim.upToCitationOrder.trans
        (hupTo.trans hclaim'.upToCitationOrder.symm))
      rw [← hdigest, ← hdigest'] at hsameItems
      have hinjective := inj_on_of_nodup_map hclaims.digests
        (get_mem _ (toFusion i)) (get_mem _ (toFusion j)) hsameItems
      have hnodup : reduction.claims.Nodup := hclaims.digests.of_map _
      exact (nodup_iff_injective_get.mp hnodup) hinjective
  refine ⟨toFusion, ?_, ?_, hsame⟩
  · intro i
    obtain ⟨part, claim, item, hpair, hclaim, hdigest⟩ := hto i
    exact h.saysTheSame hfree hclaims hpair hclaim (get_mem _ _) hdigest
  · intro j
    obtain ⟨item, hitem, hitemDigest, _⟩ :=
      (hclaims.reduced _ (get_mem reduction.claims j)).representative
    obtain ⟨part, claim, hpair⟩ := h.exists_claim hitem
    obtain ⟨kept, hkept, hclaim⟩ := h.exists_kept hfree hpayload hpair
    obtain ⟨i, rfl⟩ := get_of_mem hkept
    refine ⟨i, ?_⟩
    obtain ⟨part', claim', item', hpair', hclaim', hdigest'⟩ := hto i
    have hitems := (partClaimDigest_eq_iff hfree h.entries hpair' hpair).mpr
      (hclaim'.upToCitationOrder.trans hclaim.upToCitationOrder.symm)
    rw [← hdigest', hitemDigest] at hitems
    have hinjective := inj_on_of_nodup_map hclaims.digests
      (get_mem _ (toFusion i)) (get_mem _ j) hitems
    have hnodup : reduction.claims.Nodup := hclaims.digests.of_map _
    exact (nodup_iff_injective_get.mp hnodup) hinjective

theorem EnrichedRun.partition {reduction : CanonicalFusionReduction}
    (hclaims : FusionClaims H (partClaims results) reduction.claims) :
    Partition calls reduction := by
  have hcomplete := h.partsComplete hfree
  have hunique : ∀ x ∈ partClaims results, ∀ y ∈ partClaims results, x.pair = y.pair → x = y :=
    fun x hx y hy => inj_on_of_nodup_map hcomplete.pairs_nodup hx hy
  -- the places of a reduced claim are those of the enriched claims with its digest
  have hmem : ∀ fused ∈ reduction.claims, ∀ p, p ∈ fused.pairs ↔
      ∃ item ∈ partClaims results, partClaimDigest H item = fused.claimSemanticSha256 ∧
        item.pair = p := by
    intro fused hfused p
    unfold CanonicalReducedFusionClaim.pairs
    rw [(hclaims.reduced fused hfused).pairs.mem_iff, mem_map]
    simp only [mem_inBucket, and_assoc]
  have hdigest : ∀ fused ∈ reduction.claims, ∀ p ∈ fused.pairs, ∀ item ∈ partClaims results,
      item.pair = p → partClaimDigest H item = fused.claimSemanticSha256 := by
    intro fused hfused p hp item hitem hpair
    obtain ⟨other, hother, hotherDigest, hotherPair⟩ := (hmem fused hfused p).mp hp
    rwa [hunique item hitem other hother (hpair.trans hotherPair.symm)]
  refine ⟨?_, ?_, ?_⟩
  · rw [nodup_flatMap]
    constructor
    · intro fused hfused
      have hsub := hcomplete.pairs_nodup.sublist ((filter_sublist (p := fun item =>
        decide (partClaimDigest H item = fused.claimSemanticSha256))).map (·.pair))
      exact (hclaims.reduced fused hfused).pairs.nodup_iff.mpr hsub
    · have hdigests := hclaims.digests
      rw [List.Nodup, pairwise_map] at hdigests
      refine List.Pairwise.imp_of_mem ?_ hdigests
      intro fused fused' hfused hfused' hne p hp hp'
      obtain ⟨item, hitem, hitemDigest, hpair⟩ := (hmem fused hfused p).mp hp
      exact hne (hitemDigest.symm.trans (hdigest fused' hfused' p hp' item hitem hpair))
  · intro part ordinal
    rw [mem_flatMap]
    constructor
    · rintro ⟨fused, hfused, hp⟩
      obtain ⟨item, hitem, _, hpair⟩ := (hmem fused hfused _).mp hp
      obtain ⟨part', claim, hclaim⟩ := h.exists_claim hitem
      obtain ⟨call, hcall, hmemClaim, _⟩ := hclaim.origin
      have hplace := hclaim.pair.symm.trans hpair
      rw [Prod.mk.injEq] at hplace
      obtain ⟨rfl, hordinal⟩ := hplace
      exact ⟨call, hcall, claim, hmemClaim, hordinal⟩
    · rintro ⟨call, hcall, claim, hclaim, rfl⟩
      obtain ⟨item, hpair⟩ := h.exists_item hcall hclaim
      obtain ⟨fused, hfused, hfusedDigest⟩ := hclaims.complete item hpair.member
      exact ⟨fused, hfused, (hmem fused hfused _).mpr
        ⟨item, hpair.member, hfusedDigest.symm, hpair.pair⟩⟩
  · intro part call part' call' hcall hcall' claim hclaim claim' hclaim'
    obtain ⟨item, hpair⟩ := h.exists_item hcall hclaim
    obtain ⟨item', hpair'⟩ := h.exists_item hcall' hclaim'
    rw [← partClaimDigest_eq_iff hfree h.entries hpair hpair']
    constructor
    · rintro ⟨fused, hfused, hp, hp'⟩
      exact (hdigest fused hfused _ hp item hpair.member hpair.pair).trans
        (hdigest fused hfused _ hp' item' hpair'.member hpair'.pair).symm
    · intro heq
      obtain ⟨fused, hfused, hfusedDigest⟩ := hclaims.complete item hpair.member
      exact ⟨fused, hfused,
        (hmem fused hfused _).mpr ⟨item, hpair.member, hfusedDigest.symm, hpair.pair⟩,
        (hmem fused hfused _).mpr ⟨item', hpair'.member, (hfusedDigest.trans heq).symm, hpair'.pair⟩⟩

end Correspondence

/-- Where no two claims differ only in the order of their citations the correspondence is one to
one. -/
theorem EnrichedRun.bijective (h : EnrichedRun H registry plan reference calls barrier results)
    {payload : ProviderClaimPayload} {reduction : CanonicalFusionReduction}
    (hpayload : payload.claims = (reducedClaims H (allClaims calls)).claims)
    {toFusion : Fin payload.claims.length → Fin reduction.claims.length}
    (hto : Correspondence plan reference payload reduction toFusion)
    (horder : CitesInOneOrder (allClaims calls)) : Function.Bijective toFusion := by
  refine ⟨?_, hto.onto⟩
  intro i j heq
  obtain ⟨part, claim, item, hpair, hclaim⟩ := h.exists_origin hpayload (get_mem _ i)
  obtain ⟨part', claim', item', hpair', hclaim'⟩ := h.exists_origin hpayload (get_mem _ j)
  have hmem {p : Nat} {c : ProviderTaskClaim} {x : PartClaim}
      (hp : ClaimPair H plan reference calls results p c x) : c ∈ allClaims calls := by
    obtain ⟨call, hcall, hc, _⟩ := hp.origin
    exact mem_flatMap.mpr ⟨_, mem_map_of_mem (mem_of_getElem? hcall), hc⟩
  have hsame := hclaim.upToCitationOrder.trans
    (((hto.same i j).mp heq).trans hclaim'.upToCitationOrder.symm)
  have hsymmetric : Std.Symm fun c d => SameUpToCitationOrder c d → SameApartFromOrdinals c d :=
    ⟨fun c d himp hdc => (himp hdc.symm).symm⟩
  have happart : SameApartFromOrdinals claim claim' :=
    List.Pairwise.forall_of_forall (fun _ _ _ => rfl) horder (hmem hpair) (hmem hpair') hsame
  have hcontents : SameApartFromOrdinals (payload.claims.get i) (payload.claims.get j) :=
    (hclaim.symm.trans happart).trans hclaim'
  have hdistinct := (reduces_reducedClaims H (allClaims calls)).distinct
  rw [← hpayload] at hdistinct
  have hget := inj_on_of_nodup_map hdistinct (get_mem _ i) (get_mem _ j) hcontents.digest_eq
  exact nodup_iff_injective_get.mp (hdistinct.of_map _) hget

theorem Correspondence.nil_iff {payload : ProviderClaimPayload}
    {reduction : CanonicalFusionReduction}
    {toFusion : Fin payload.claims.length → Fin reduction.claims.length}
    (hto : Correspondence plan reference payload reduction toFusion) :
    payload.claims = [] ↔ reduction.claims = [] := by
  rw [← length_eq_zero_iff, ← length_eq_zero_iff]
  constructor
  · intro hnil
    by_contra hpos
    obtain ⟨i, _⟩ := hto.onto ⟨0, Nat.pos_of_ne_zero hpos⟩
    have := i.isLt
    omega
  · intro hnil
    by_contra hpos
    have := (toFusion ⟨0, Nat.pos_of_ne_zero hpos⟩).isLt
    omega

/-- The two reducers agree but for the order of citations.  The fusion reducer returns when the
payload reducer does and no part has two claims that differ only in that order; then both say the
same, the sources partition the claims of the parts, and claims stand together when they are equal
but for ordinals and citation order. -/
theorem reducers_agree (h : EnrichedRun H registry plan reference calls barrier results)
    (hfree : H.CollisionFree (hashedIn plan calls results)) (createdAt : String) :
    ((∃ reduction, buildCanonicalFusionReduction H plan barrier results createdAt = .ok reduction) ↔
      (∃ payload, reduceProviderClaimPayloads H (payloadsOf calls) = .ok payload) ∧
        ∀ call ∈ calls, CitesInOneOrder call.parsed.payload.claims) ∧
    ∀ payload reduction, reduceProviderClaimPayloads H (payloadsOf calls) = .ok payload →
      buildCanonicalFusionReduction H plan barrier results createdAt = .ok reduction →
      SameOutcome payload reduction ∧
        (∃ toFusion, Correspondence plan reference payload reduction toFusion ∧
          (CitesInOneOrder (allClaims calls) → Function.Bijective toFusion)) ∧
        Partition calls reduction := by
  have hcomplete := h.partsComplete hfree
  obtain ⟨hany, hall⟩ := h.abstained_eq
  have hne : payloadsOf calls ≠ [] := by
    intro hnil
    have hlength := h.enriched.length_eq
    rw [map_eq_nil_iff.mp hnil] at hlength
    exact hcomplete.results_ne_nil (eq_nil_of_length_eq_zero hlength.symm)
  -- a part that abstains claims nothing
  have hnone : results.all (·.abstained) = true → allClaims calls = [] := by
    intro habstained
    rw [eq_nil_iff_forall_not_mem]
    intro claim hclaim
    obtain ⟨payload, hmem, hclaim⟩ := mem_flatMap.mp hclaim
    obtain ⟨call, hcall, rfl⟩ := mem_map.mp hmem
    obtain ⟨part, hpart⟩ := mem_iff_getElem?.mp hcall
    obtain ⟨item, hpair⟩ := h.exists_item hpart hclaim
    have hitem := hpair.member
    rw [hcomplete.partClaims_eq_nil habstained] at hitem
    exact not_mem_nil hitem
  obtain ⟨reduction, hclaims, houtcome, hreturns⟩ :=
    buildCanonicalFusionReduction_spec hcomplete createdAt
  constructor
  · constructor
    · rintro ⟨_, hreturned⟩
      obtain ⟨hdistinct, hmixed, _⟩ := (hreturns _).mp hreturned
      obtain ⟨hraw, horder⟩ := (h.distinct_iff hfree).mp hdistinct
      refine ⟨?_, horder⟩
      by_cases hallTrue : (payloadsOf calls).all (·.abstained) = true
      · exact ⟨_, reduceProviderClaimPayloads_eq_ok.mpr ⟨hne, .inl ⟨hallTrue, rfl⟩⟩⟩
      · refine ⟨_, reduceProviderClaimPayloads_eq_ok.mpr ⟨hne, .inr ⟨?_, hraw, rfl⟩⟩⟩
        rw [hany]
        exact Bool.eq_false_iff.mpr fun hanyTrue => hallTrue (hall.trans (hmixed hanyTrue))
    · rintro ⟨⟨payload, hpayload⟩, horder⟩
      obtain ⟨_, hcases⟩ := reduceProviderClaimPayloads_eq_ok.mp hpayload
      refine ⟨reduction, (hreturns _).mpr ⟨?_, ?_, rfl⟩⟩
      · apply (h.distinct_iff hfree).mpr
        refine ⟨?_, horder⟩
        rcases hcases with ⟨hallTrue, _⟩ | ⟨_, hraw, _⟩
        · intro part hpart
          have hempty := hnone (hall.symm.trans hallTrue)
          have : part.claims = [] := flatMap_eq_nil_iff.mp hempty part hpart
          rw [this]
          exact nodup_nil
        · exact hraw
      · intro hanyTrue
        rcases hcases with ⟨hallTrue, _⟩ | ⟨hanyFalse, _⟩
        · exact hall.symm.trans hallTrue
        · rw [hany, hanyTrue] at hanyFalse
          cases hanyFalse
  · intro payload returned hpayload hreturned
    obtain ⟨_, _, rfl⟩ := (hreturns returned).mp hreturned
    obtain ⟨_, hcases⟩ := reduceProviderClaimPayloads_eq_ok.mp hpayload
    have hkept : payload.claims = (reducedClaims H (allClaims calls)).claims := by
      rcases hcases with ⟨hallTrue, rfl⟩ | ⟨_, _, rfl⟩
      · rw [hnone (hall.symm.trans hallTrue)]
        rfl
      · rfl
    obtain ⟨toFusion, hto⟩ := h.exists_correspondence hfree hkept hclaims
    have hempty := hto.nil_iff
    refine ⟨?_, ⟨toFusion, hto, ?_⟩, h.partition hfree hclaims⟩
    · rw [← hall] at houtcome
      rcases hcases with ⟨hallTrue, rfl⟩ | ⟨hanyFalse, _, rfl⟩
      · rw [if_pos hallTrue] at houtcome
        exact .inl ⟨rfl, rfl, hempty.mp rfl, houtcome⟩
      · have hallFalse : ¬(payloadsOf calls).all (·.abstained) = true := by
          intro hallTrue
          obtain ⟨part, hpart⟩ := exists_mem_of_ne_nil _ hne
          have htrue := all_eq_true.mp hallTrue part hpart
          have hfalse := any_eq_false.mp hanyFalse part hpart
          exact hfalse htrue
        rw [if_neg hallFalse] at houtcome
        by_cases hnil : returned.claims = []
        · rw [if_neg (not_not.mpr hnil)] at houtcome
          exact .inr (.inl ⟨rfl, hempty.mpr hnil, hnil, houtcome⟩)
        · rw [if_pos hnil] at houtcome
          exact .inr (.inr ⟨rfl, fun hkeptNil => hnil (hempty.mp hkeptNil), hnil, houtcome⟩)
    · exact h.bijective hkept hto

/-! ## A run of two parts

Four frames of one camera; the parts share the second and the third.  Each part claims one thing
and cites the two shared frames, the first part in their order and the second the other way. -/

/-- A digest that tells the values of the sample apart. -/
def sampleDigest : SemanticProjection → Sha256Digest
  | .providerClaim content => "claim:" ++ ",".intercalate content.evidenceTokens
  | .fusionClaim projection =>
    "fused:" ++ ",".intercalate (projection.evidence.map fun item => toString item.frameOrdinal)
  | .correlation _ _ item _ _ _ => toString item
  | .selectedAttempt _ _ selection => "selected:" ++ selection
  | .enrichment selected _ _ _ => "enriched:" ++ selected
  | .enrichedOutput _ => "output"
  | .reduction _ => "reduction"

def sampleHashing : Hashing := { semanticSha256 := sampleDigest, uuid5 := id }

def sampleFrame (ordinal : Nat) : CatalogFrame where
  frameId := toString ordinal
  ordinal
  alignedTimestampNs := ordinal
  sourceTimestampNs := ordinal
  sourceArtifactUri := "frame"
  sourceArtifactSha256 := "frame"

def sampleFrames : Fin 6 → List CatalogFrame
  | ⟨0, _⟩ => (List.range 4).map sampleFrame
  | ⟨_ + 1, _⟩ => []

theorem samplePosition : ∀ i : Fin 6,
    CameraId.all[i.val]? = some (CameraId.all.getD i.val .cam01) := by decide

theorem sampleFrames_ordinals : ∀ i : Fin 6,
    (sampleFrames i).map (·.ordinal) = List.range (sampleFrames i).length := by decide

theorem sampleFrames_sorted : ∀ i : Fin 6,
    (sampleFrames i).Pairwise fun a b => a.alignedTimestampNs ≤ b.alignedTimestampNs := by decide

def sampleCamera (i : Fin 6) : CatalogCamera where
  cameraId := CameraId.all.getD i.val .cam01
  ordinal := i
  frames := sampleFrames i
  position := samplePosition i
  frameOrdinals := sampleFrames_ordinals i
  timestamps := sampleFrames_sorted i

theorem sampleCameras_order :
    ((List.finRange 6).map sampleCamera).map (·.cameraId) = CameraId.all := by decide

def samplePackage : CatalogPackage where
  packageId := "package"
  ordinal := 0
  semanticContentSha256 := "package"
  manifestBytesSha256 := "manifest"
  cameras := (List.finRange 6).map sampleCamera
  canonicalOrder := sampleCameras_order

theorem samplePackages_ne : [samplePackage] ≠ [] := by simp

theorem samplePackages_ordinals : [samplePackage].map (·.ordinal) = List.range 1 := by decide

theorem samplePackages_ids : ([samplePackage].map (·.packageId)).Nodup := by decide

theorem sampleFrameIds :
    ((([samplePackage].flatMap (·.cameras)).flatMap (·.frames)).map (·.frameId)) ≠ [] ∧
      (((([samplePackage].flatMap (·.cameras)).flatMap (·.frames)).map (·.frameId))).Nodup := by
  decide +kernel

def sampleCatalog : RequestCatalog where
  requestCatalogId := "catalog"
  task := .fusionAdjudication
  packages := [samplePackage]
  semanticSha256 := "catalog"
  nonempty := samplePackages_ne
  packageOrdinals := samplePackages_ordinals
  packageIds := samplePackages_ids
  frameIds := sampleFrameIds

def sampleItem (ordinal : Nat) : RenderedProviderItem where
  providerItemOrdinal := ordinal
  packageId := "package"
  packageOrdinal := 0
  cameraId := .cam01
  cameraOrdinal := 0
  frameId := toString ordinal
  frameOrdinal := ordinal
  alignedTimestampNs := ordinal
  sourceTimestampNs := ordinal
  sourceArtifactSha256 := "frame"

theorem sampleRendered :
    validateRenderedItems sampleCatalog ((List.range 4).map sampleItem) = .ok () := by
  decide +kernel

def sampleParts : List InferenceCallPart :=
  [{ ordinal := 0, startItemOrdinal := 0, endItemOrdinalExclusive := 3,
     partSemanticSha256 := "part-0" },
   { ordinal := 1, startItemOrdinal := 1, endItemOrdinalExclusive := 4,
     partSemanticSha256 := "part-1" }]

theorem sampleParts_ne : sampleParts ≠ [] := by simp [sampleParts]

theorem sampleParts_ordinals : sampleParts.map (·.ordinal) = List.range sampleParts.length := by
  decide

def sampleTarget : ProviderTarget :=
  { provider := "provider", modelName := "model", modelVersion := "1" }

def samplePlan : InferenceInputPlan where
  inputPlanId := "plan"
  semanticSha256 := "plan"
  subjectTask := .fusionAdjudication
  requestCatalog := sampleCatalog
  renderedItems := (List.range 4).map sampleItem
  callPlan :=
    { parts := sampleParts
      reductionPolicy := "exact"
      reductionPolicyVersion := "1"
      nonempty := sampleParts_ne
      ordinals := sampleParts_ordinals }
  target := sampleTarget
  promptOutput :=
    { promptVersion := "1", promptSha256 := "prompt", providerResponseSchemaSha256 := "claims",
      enrichedDomainSchemaSha256 := "enriched" }
  rendered := sampleRendered

def sampleEntries : List ProviderReferenceCatalogEntry :=
  expectedReferenceEntries sampleHashing samplePlan "1"

theorem sampleEntries_ordinals :
    sampleEntries.map (·.providerItemOrdinal) = List.range sampleEntries.length := by
  decide +kernel

theorem sampleEntries_tokens : (sampleEntries.map (·.correlationToken)).Nodup := by
  decide +kernel

def sampleReference : ProviderReferenceCatalog where
  referenceCatalogId := "reference"
  inputPlanId := "plan"
  inputPlanSemanticSha256 := "plan"
  requestCatalogId := "catalog"
  requestCatalogSha256 := "catalog"
  task := .fusionAdjudication
  tokenPolicyVersion := "1"
  entries := sampleEntries
  semanticSha256 := "reference"
  itemOrdinals := sampleEntries_ordinals
  tokens := sampleEntries_tokens

theorem sampleLower : int64Min ≤ 100 := by decide
theorem sampleUpper : (200 : Int) ≤ int64Max := by decide
theorem sampleNonempty : (100 : Int) < 200 := by decide

/-- A hypothesis that cites the given tokens. -/
def sampleClaim (ordinal : Nat) (tokens : List String) : ProviderTaskClaim where
  kind := .fusionHypothesis
  packageOrdinal := none
  cameraOrdinal := none
  interval := some ⟨100, 200, sampleLower, sampleUpper, sampleNonempty⟩
  label := some "pick"
  observation := .proposed
  evidenceTokens := tokens
  modelReportedScore := none
  conflictCodes := []
  claimOrdinal := ordinal

/-- The call of a part that makes the given claims. -/
def sampleCall (part : Nat) (claims : List ProviderTaskClaim) : EnrichmentCall where
  parsed :=
    { artifactId := "parsed"
      semanticSha256 := "parsed"
      rawResponse :=
        { artifactId := "raw", exactBytesSha256 := "raw", inferenceId := "inference",
          target := sampleTarget }
      providerClaimSchema :=
        { schemaId := "https://schemas.robata.dev/provider-claim-payload", version := "1",
          sha256 := "claims" }
      task := .fusionAdjudication
      payload := { claims, abstained := false } }
  selected :=
    { inferenceId := "inference"
      logicalInvocationId := toString part
      selectionDecisionLogicalKey := toString part
      rawResponseArtifactId := "raw"
      rawResponseSha256 := "raw"
      parsedClaimArtifactId := "parsed"
      parsedClaimSha256 := "parsed"
      outputSha256 := "selected:" ++ toString part }
  authority :=
    { recordingIdentity := "recording", inferenceId := "inference",
      logicalInvocationId := toString part, promptVersion := "1", promptSha256 := "prompt" }
  enrichedOutputSchema :=
    { schemaId := enrichedOutputSchemaId, version := enrichedOutputSchemaVersion,
      sha256 := "enriched" }
  enrichmentPolicyVersion := "1"
  artifactId := "artifact"
  createdAt := "now"
  inputPlanPartOrdinal := some part

/-- A registry that accepts every document. -/
def sampleRegistry : SchemaRegistry where
  resolveExact _ := .ok ()
  validatePayload _ _ := .ok ()
  validateOutput _ _ := .ok ()

/-- The result of a part, with what enrichment returned. -/
def sampleResult (part : Nat) (call : EnrichmentCall) : CanonicalOfflinePartResult where
  partOrdinal := part
  partSemanticSha256 := "part-" ++ toString part
  status := .enriched
  completionId := toString part
  inferenceId := "inference"
  selectedOutput := some call.selected
  enrichedOutput :=
    (enrich sampleHashing sampleRegistry samplePlan sampleReference call).toOption

def sampleBarrier : InferenceCallReduction where
  reductionId := "barrier"
  reductionSemanticSha256 := "barrier"
  inputPlanSemanticSha256 := "plan"
  orderedCompletionIds := ["0", "1"]
  reductionPolicy := "exact"
  reductionPolicyVersion := "1"

/-- The calls of the two parts. -/
def sampleCalls (first second : List ProviderTaskClaim) : List EnrichmentCall :=
  [sampleCall 0 first, sampleCall 1 second]

def sampleResults (first second : List ProviderTaskClaim) : List CanonicalOfflinePartResult :=
  [sampleResult 0 (sampleCall 0 first), sampleResult 1 (sampleCall 1 second)]

/-- What the sample run asks of the claims of a part: the payload is accepted and enriched. -/
def SampleAccepts (part : Nat) (claims : List ProviderTaskClaim) : Prop :=
  (∀ claim ∈ claims, claim.validateClaimShape = .ok () ∧ claim.kind = .fusionHypothesis) ∧
    ({ claims, abstained := false } : ProviderClaimPayload).validateOrdinals = .ok () ∧
    (enrich sampleHashing sampleRegistry samplePlan sampleReference
      (sampleCall part claims)).toOption.isSome = true

instance decidableSampleAccepts (part : Nat) (claims : List ProviderTaskClaim) :
    Decidable (SampleAccepts part claims) :=
  inferInstanceAs (Decidable (_ ∧ _ ∧ _))

theorem SampleAccepts.accepted {part : Nat} {claims : List ProviderTaskClaim}
    (h : SampleAccepts part claims) :
    (sampleCall part claims).parsed.Accepted ∧
      (sampleCall part claims).selected.Accepted sampleHashing :=
  ⟨⟨⟨fun claim hclaim => (h.1 claim hclaim).1, h.2.1⟩,
    fun claim hclaim => mem_singleton.mpr (h.1 claim hclaim).2, fun _ => rfl⟩, rfl⟩

theorem SampleAccepts.enriched {part : Nat} {claims : List ProviderTaskClaim}
    (h : SampleAccepts part claims) :
    ∃ output, enrich sampleHashing sampleRegistry samplePlan sampleReference
        (sampleCall part claims) = .ok output ∧
      (sampleResult part (sampleCall part claims)).enrichedOutput = some output := by
  have hsome := h.2.2
  unfold sampleResult
  cases henrich : enrich sampleHashing sampleRegistry samplePlan sampleReference
      (sampleCall part claims) with
  | error error =>
    rw [henrich] at hsome
    cases hsome
  | ok output => exact ⟨output, rfl, rfl⟩

theorem sampleRun {first second : List ProviderTaskClaim} (hfirst : SampleAccepts 0 first)
    (hsecond : SampleAccepts 1 second) :
    EnrichedRun sampleHashing sampleRegistry samplePlan sampleReference (sampleCalls first second)
      sampleBarrier (sampleResults first second) where
  task := rfl
  parts := .cons rfl (.cons rfl .nil)
  accepted := by
    intro call hcall
    rcases mem_cons.mp hcall with rfl | hcall
    · exact hfirst.accepted
    · rw [mem_singleton.mp hcall]
      exact hsecond.accepted
  selections := by
    show (["0", "1"] : List String).Nodup
    decide
  enriched := by
    obtain ⟨output, houtput, hresult⟩ := hfirst.enriched
    obtain ⟨output', houtput', hresult'⟩ := hsecond.enriched
    exact .cons ⟨output, houtput, rfl, rfl, hresult⟩
      (.cons ⟨output', houtput', rfl, rfl, hresult'⟩ .nil)
  callPlan := by
    refine ⟨rfl, ?_, rfl, ?_, rfl, rfl⟩
    · show ([0, 1] : List Nat) = List.range 2
      decide
    · rfl
  identities := .cons rfl (.cons rfl .nil)

/-- The shared frames, cited in both orders. -/
def sampleOrdered (ordinal : Nat) : ProviderTaskClaim := sampleClaim ordinal ["ref:1", "ref:2"]

def sampleReordered (ordinal : Nat) : ProviderTaskClaim := sampleClaim ordinal ["ref:2", "ref:1"]

theorem sampleAccepts_ordered : SampleAccepts 0 [sampleOrdered 0] := by decide +kernel

theorem sampleAccepts_reordered : SampleAccepts 1 [sampleReordered 0] := by decide +kernel

theorem sampleAccepts_both : SampleAccepts 0 [sampleOrdered 0, sampleReordered 1] := by
  decide +kernel

theorem sampleAccepts_none : SampleAccepts 1 [] := by decide +kernel

instance decidableCollisionFree (H : Hashing) (hashed : List SemanticProjection) :
    Decidable (H.CollisionFree hashed) :=
  inferInstanceAs (Decidable (∀ p ∈ hashed, ∀ q ∈ hashed,
    H.semanticSha256 p = H.semanticSha256 q → p = q))

theorem sampleCollisionFree : sampleHashing.CollisionFree
    (hashedIn samplePlan (sampleCalls [sampleOrdered 0] [sampleReordered 0])
      (sampleResults [sampleOrdered 0] [sampleReordered 0])) := by decide +kernel

theorem reducers_agree_sample :
    (∃ reduction, buildCanonicalFusionReduction sampleHashing samplePlan sampleBarrier
        (sampleResults [sampleOrdered 0] [sampleReordered 0]) "now" = .ok reduction) ↔
      (∃ payload, reduceProviderClaimPayloads sampleHashing
          (payloadsOf (sampleCalls [sampleOrdered 0] [sampleReordered 0])) = .ok payload) ∧
        ∀ call ∈ sampleCalls [sampleOrdered 0] [sampleReordered 0],
          CitesInOneOrder call.parsed.payload.claims :=
  (reducers_agree (sampleRun sampleAccepts_ordered sampleAccepts_reordered) sampleCollisionFree
    "now").1

/-- One part cites two frames in both orders: the payload reducer keeps both claims and the fusion
reducer raises.  Two parts do: the payload reducer keeps two claims and the fusion reducer one. -/
theorem reducers_tell_order_apart :
    (EnrichedRun sampleHashing sampleRegistry samplePlan sampleReference
        (sampleCalls [sampleOrdered 0, sampleReordered 1] []) sampleBarrier
        (sampleResults [sampleOrdered 0, sampleReordered 1] []) ∧
      sampleHashing.CollisionFree (hashedIn samplePlan
        (sampleCalls [sampleOrdered 0, sampleReordered 1] [])
        (sampleResults [sampleOrdered 0, sampleReordered 1] [])) ∧
      (reduceProviderClaimPayloads sampleHashing
        (payloadsOf (sampleCalls [sampleOrdered 0, sampleReordered 1] []))).toOption.isSome = true ∧
      (buildCanonicalFusionReduction sampleHashing samplePlan sampleBarrier
        (sampleResults [sampleOrdered 0, sampleReordered 1] []) "now").toOption = none) ∧
    EnrichedRun sampleHashing sampleRegistry samplePlan sampleReference
        (sampleCalls [sampleOrdered 0] [sampleReordered 0]) sampleBarrier
        (sampleResults [sampleOrdered 0] [sampleReordered 0]) ∧
      sampleHashing.CollisionFree (hashedIn samplePlan
        (sampleCalls [sampleOrdered 0] [sampleReordered 0])
        (sampleResults [sampleOrdered 0] [sampleReordered 0])) ∧
      (reduceProviderClaimPayloads sampleHashing
        (payloadsOf (sampleCalls [sampleOrdered 0] [sampleReordered 0]))).toOption.map
          (·.claims.length) = some 2 ∧
      (buildCanonicalFusionReduction sampleHashing samplePlan sampleBarrier
        (sampleResults [sampleOrdered 0] [sampleReordered 0]) "now").toOption.map
          (·.claims.length) = some 1 := by
  refine ⟨⟨sampleRun sampleAccepts_both sampleAccepts_none, ?_, ?_, ?_⟩,
    sampleRun sampleAccepts_ordered sampleAccepts_reordered, sampleCollisionFree, ?_, ?_⟩
  all_goals decide +kernel

end Robata.Fusion
