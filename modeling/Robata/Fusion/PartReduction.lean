import Robata.Fusion.Reduction
import Robata.Lib.Aligned

/-!
# What the reducer of the enriched parts returns

The reducer groups the enriched claims by their digests and makes one claim of each group.  On
parts with complete lineage it completes when no part has two claims of one digest and the parts
agree on abstaining; then every enriched claim is a source of the claim with its digest.
-/

namespace Robata.Fusion

open Contracts Lib List

/-- An enriched claim with the result of its part. -/
abbrev PartClaim : Type := CanonicalOfflinePartResult × EnrichedProviderClaim

def CanonicalOfflinePartResult.claims (result : CanonicalOfflinePartResult) :
    List EnrichedProviderClaim :=
  (result.enrichedOutput.map (·.claims)).getD []

/-- The enriched output of the part abstains. -/
def CanonicalOfflinePartResult.abstained (result : CanonicalOfflinePartResult) : Bool :=
  (result.enrichedOutput.map (·.abstained)).getD false

def partClaims (results : List CanonicalOfflinePartResult) : List PartClaim :=
  results.flatMap fun result => result.claims.map fun claim => (result, claim)

/-- The digest a claim is grouped by. -/
def partClaimDigest (H : Hashing) (item : PartClaim) : Sha256Digest :=
  fusionClaimReductionDigest H item.2

/-- A planned part with the exact enriched lineage that the reduction asks for. -/
structure CompletePart (planned : InferenceCallPart) (result : CanonicalOfflinePartResult) :
    Prop where
  status : result.status = .enriched
  part : result.partSemanticSha256 = planned.partSemanticSha256
  selected : ∃ selected, result.selectedOutput = some selected
  enriched : ∃ enriched, result.enrichedOutput = some enriched ∧
    "orchestrator-enrichment:".toList.isPrefixOf enriched.enrichmentLogicalKey.toList = true

/-- The source record of a part, as far as the validators of the reduction read it. -/
structure SourceOf (result : CanonicalOfflinePartResult) (source : CanonicalFusionPartSource) :
    Prop where
  partOrdinal : source.partOrdinal = result.partOrdinal
  enrichment : result.enrichedOutput.map (·.enrichmentLogicalKey) =
    some source.enrichment.enrichmentLogicalKey
  abstained : source.abstained = result.abstained

variable {H : Hashing} {plan : InferenceInputPlan} {barrier : InferenceCallReduction}
  {results : List CanonicalOfflinePartResult} {result : CanonicalOfflinePartResult}
  {planned : InferenceCallPart}
  {sources : List CanonicalFusionPartSource}

/-! ## Collecting the parts -/

theorem groupPart_eq_ok {claims : List EnrichedProviderClaim}
    {grouped grouped' : Dict Sha256Digest ClaimGroup} :
    groupPart H result claims grouped = .ok grouped' ↔
      (claims.map (fusionClaimReductionDigest H)).Nodup ∧
        grouped' = (claims.map fun claim => (result, claim)).foldl (appendToGroup H) grouped := by
  unfold groupPart
  rw [foldDistinct_eq_ok, foldl_map]
  simp

theorem collectPart_spec (h : CompletePart planned result) :
    ∃ source, SourceOf result source ∧ ∀ collected collected',
      collectPart H collected (planned, result) = .ok collected' ↔
      (result.claims.map (fusionClaimReductionDigest H)).Nodup ∧
        collected' =
          { partSources := collected.partSources ++ [source]
            groupedClaims := (result.claims.map fun claim => (result, claim)).foldl
              (appendToGroup H) collected.groupedClaims } := by
  obtain ⟨selected, hselected⟩ := h.selected
  obtain ⟨enriched, henriched, hkey⟩ := h.enriched
  have hclaims : result.claims = enriched.claims := by
    unfold CanonicalOfflinePartResult.claims
    rw [henriched]
    rfl
  refine ⟨partSource result selected enriched
    { recordingIdentity := enriched.authority.recordingIdentity
      enrichmentLogicalKey := enriched.enrichmentLogicalKey
      enrichedOutputSemanticSha256 := enriched.semanticSha256
      enrichmentPolicyVersion := enriched.enrichmentPolicyVersion }, ⟨rfl, ?_, ?_⟩, ?_⟩
  · rw [henriched]
    rfl
  · unfold CanonicalOfflinePartResult.abstained
    rw [henriched]
    rfl
  · intro collected collected'
    unfold collectPart
    rw [henriched, hselected]
    unfold PlatformEnrichedOutputReference.fromOutput
    rw [require_bind_eq_ok]
    simp only [bind_eq_ok, require_eq_ok, groupPart_eq_ok, hclaims]
    constructor
    · rintro ⟨_, _, ⟨_, _, hreference⟩, _, ⟨hnodup, rfl⟩, hcollected⟩
      cases hreference
      cases hcollected
      exact ⟨hnodup, rfl⟩
    · rintro ⟨hnodup, rfl⟩
      exact ⟨⟨h.status, h.part⟩, _, ⟨(), hkey, rfl⟩, _, ⟨hnodup, rfl⟩, rfl⟩

theorem collectParts_spec {parts : List InferenceCallPart}
    (h : List.Forall₂ CompletePart parts results) :
    ∃ sources, List.Forall₂ SourceOf results sources ∧ ∀ collected collected',
      (parts.zip results).foldlM (collectPart H) collected = .ok collected' ↔
        (∀ result ∈ results, (result.claims.map (fusionClaimReductionDigest H)).Nodup) ∧
          collected' =
            { partSources := collected.partSources ++ sources
              groupedClaims := (partClaims results).foldl (appendToGroup H)
                collected.groupedClaims } := by
  induction h with
  | nil =>
    refine ⟨[], .nil, fun collected collected' => ?_⟩
    rw [eq_comm]
    simp [partClaims, pure, Except.pure]
  | @cons planned result parts results hfirst _ ih =>
    obtain ⟨sources, hsources, ih⟩ := ih
    obtain ⟨source, hsource, hcollect⟩ := collectPart_spec (H := H) hfirst
    refine ⟨source :: sources, .cons hsource hsources, fun collected collected' => ?_⟩
    have hitems : partClaims (result :: results) =
        (result.claims.map fun claim => (result, claim)) ++ partClaims results := rfl
    rw [zip_cons_cons, foldlM_cons, bind_eq_ok, forall_mem_cons, hitems, foldl_append]
    simp only [hcollect, ih]
    constructor
    · rintro ⟨_, ⟨hnodup, rfl⟩, hall, rfl⟩
      exact ⟨⟨hnodup, hall⟩, by rw [append_assoc]; rfl⟩
    · rintro ⟨⟨hnodup, hall⟩, rfl⟩
      exact ⟨_, ⟨hnodup, rfl⟩, hall, by rw [append_assoc]; rfl⟩

/-! ## One claim of each group -/

/-- The place of an enriched claim: the ordinal of its part and its own. -/
def PartClaim.pair (item : PartClaim) : Nat × Nat := (item.1.partOrdinal, item.2.claimOrdinal)

/-- The place of the claim that a source names. -/
def CanonicalFusionClaimSource.pair (source : CanonicalFusionClaimSource) : Nat × Nat :=
  (source.partOrdinal, source.sourceClaimOrdinal)

variable (plan barrier results) in
/-- What the reduction relies on: the lineage of every part is complete, the enrichments differ,
the claims are fusion hypotheses with ordinals of their own, and a part that abstains claims
nothing. -/
structure PartsComplete : Prop where
  callPlan : MatchesCallPlan plan barrier results
  complete : List.Forall₂ CompletePart plan.callPlan.parts results
  keys : (results.map fun result =>
    result.enrichedOutput.map (·.enrichmentLogicalKey)).Nodup
  ordinals : ∀ result ∈ results, (result.claims.map (·.claimOrdinal)).Nodup
  kinds : ∀ result ∈ results, ∀ claim ∈ result.claims, claim.kind = .fusionHypothesis
  abstention : ∀ result ∈ results, result.abstained = true → result.claims = []

theorem mem_partClaims {item : PartClaim} :
    item ∈ partClaims results ↔ item.1 ∈ results ∧ item.2 ∈ item.1.claims := by
  unfold partClaims
  rw [mem_flatMap]
  constructor
  · rintro ⟨result, hresult, hitem⟩
    obtain ⟨claim, hclaim, rfl⟩ := mem_map.mp hitem
    exact ⟨hresult, hclaim⟩
  · rintro ⟨hresult, hclaim⟩
    exact ⟨item.1, hresult, mem_map.mpr ⟨item.2, hclaim, rfl⟩⟩

namespace PartsComplete

variable (h : PartsComplete plan barrier results)

include h

theorem partOrdinals_nodup : (results.map (·.partOrdinal)).Nodup := by
  rw [h.callPlan.2.1]
  exact nodup_range

theorem pairs_nodup : ((partClaims results).map (·.pair)).Nodup := by
  unfold partClaims
  rw [map_flatMap]
  apply nodup_flatMap_of_key (·.partOrdinal) (fun p => p.1) h.partOrdinals_nodup
  · intro result hresult
    rw [map_map]
    apply List.Nodup.of_map fun p : Nat × Nat => p.2
    rw [map_map]
    exact h.ordinals result hresult
  · intro result _ p hp
    obtain ⟨item, hitem, rfl⟩ := mem_map.mp hp
    obtain ⟨claim, _, rfl⟩ := mem_map.mp hitem
    rfl

/-- Every enriched claim has a source record, which names its place and its enrichment. -/
theorem exists_claimSource {item : PartClaim} (hitem : item ∈ partClaims results) :
    ∃ source, claimSource item = some source ∧ source.sortKey = memberKey item ∧
      source.pair = item.pair ∧
      item.1.enrichedOutput.map (·.enrichmentLogicalKey) = some source.enrichmentLogicalKey := by
  obtain ⟨planned, _, hcomplete⟩ := exists_left_of_forall₂ h.complete item.1
    (mem_partClaims.mp hitem).1
  obtain ⟨enriched, henriched, _⟩ := hcomplete.enriched
  unfold claimSource
  rw [henriched]
  exact ⟨_, rfl, rfl, rfl, rfl⟩

end PartsComplete

theorem map_claimSource {β : Type} {view : CanonicalFusionClaimSource → β} {g : PartClaim → β}
    {members : List PartClaim}
    (hview : ∀ item ∈ members, ∃ source, claimSource item = some source ∧ view source = g item) :
    (members.filterMap claimSource).map view = members.map g := by
  induction members with
  | nil => rfl
  | cons item rest ih =>
    obtain ⟨source, hsource, hitem⟩ := hview item mem_cons_self
    rw [filterMap_cons_some hsource, map_cons, map_cons, hitem,
      ih fun other hother => hview other (mem_cons_of_mem _ hother)]

/-- A reduced claim: made of the enriched claims with its digest, one of which stands for all, and
with their places as its sources. -/
structure ReducedFrom (H : Hashing) (items : List PartClaim) (claim : CanonicalReducedFusionClaim) :
    Prop where
  representative : ∃ item ∈ items, partClaimDigest H item = claim.claimSemanticSha256 ∧
    claim.representative = item.2
  sources : ∀ source ∈ claim.sources, ∃ item ∈ items, claimSource item = some source
  pairs : (claim.sources.map (·.pair)).Perm
    ((inBucket (partClaimDigest H) items claim.claimSemanticSha256).map (·.pair))

theorem reducedClaim_spec (h : PartsComplete plan barrier results)
    {place : (Sha256Digest × ClaimGroup) × Nat}
    (hgroup : place.1.2 = inBucket (partClaimDigest H) (partClaims results) place.1.1)
    (hne : place.1.2 ≠ []) :
    ∃ claim, reducedClaim H place = .ok claim ∧ claim.fusionOutputOrdinal = place.2 ∧
      claim.claimSemanticSha256 = place.1.1 ∧ ReducedFrom H (partClaims results) claim := by
  have hmember : ∀ item ∈ sortedBy memberKey place.1.2,
      item ∈ partClaims results ∧ partClaimDigest H item = place.1.1 := by
    intro item hitem
    rw [mem_sortedBy, hgroup] at hitem
    exact mem_inBucket.mp hitem
  have hsources {β : Type} {view : CanonicalFusionClaimSource → β} {g : PartClaim → β}
      (hview : ∀ item ∈ partClaims results, ∃ source, claimSource item = some source ∧
        view source = g item) :
      ((sortedBy memberKey place.1.2).filterMap claimSource).map view =
        (sortedBy memberKey place.1.2).map g :=
    map_claimSource fun item hitem => hview item (hmember item hitem).1
  have hkeys := hsources fun item hitem => by
    obtain ⟨source, hsource, hkey, _⟩ := h.exists_claimSource hitem
    exact ⟨source, hsource, hkey⟩
  have hpairs := hsources fun item hitem => by
    obtain ⟨source, hsource, _, hpair, _⟩ := h.exists_claimSource hitem
    exact ⟨source, hsource, hpair⟩
  have hperm := sortedBy_perm memberKey place.1.2
  unfold reducedClaim
  cases hsorted : sortedBy memberKey place.1.2 with
  | nil =>
    rw [hsorted] at hperm
    exact absurd hperm.symm.eq_nil hne
  | cons first rest =>
    rw [hsorted] at hmember hkeys hpairs hperm
    obtain ⟨hfirst, hdigest⟩ := hmember first mem_cons_self
    have hvalid : CanonicalReducedFusionClaim.validateReducedClaim H
        { fusionOutputOrdinal := place.2
          claimSemanticSha256 := place.1.1
          representative := first.2
          sources := (first :: rest).filterMap claimSource } = .ok () := by
      have hnonempty : (first :: rest).filterMap claimSource ≠ [] := by
        intro hnil
        rw [hnil] at hkeys
        cases hkeys
      unfold CanonicalReducedFusionClaim.validateReducedClaim
      simp only [require_bind_eq_ok, require_eq_ok]
      refine ⟨?_, ⟨hnonempty, ?_⟩, ?_, ?_⟩
      · obtain ⟨hresult, hclaim⟩ := mem_partClaims.mp hfirst
        exact h.kinds first.1 hresult first.2 hclaim
      · -- the members are sorted by the key their sources are sorted by
        rw [eq_comm]
        apply sortedBy_of_pairwise
        have hpairwise : (((first :: rest).filterMap claimSource).map
            CanonicalFusionClaimSource.sortKey).Pairwise fun a b => a ≤ b := by
          rw [hkeys, pairwise_map, ← hsorted]
          exact sortedBy_pairwise memberKey place.1.2
        exact pairwise_map.mp hpairwise
      · rw [hkeys]
        apply List.Nodup.of_map fun k : Nat ×ₗ Nat ×ₗ OpaqueUuid =>
          ((ofLex k).1, (ofLex (ofLex k).2).1)
        rw [map_map]
        have hnodup : (place.1.2.map PartClaim.pair).Nodup := by
          rw [hgroup]
          exact h.pairs_nodup.sublist (List.filter_sublist.map _)
        exact (hperm.map _).nodup_iff.mpr hnodup
      · exact hdigest.symm
    dsimp only
    rw [hvalid]
    refine ⟨_, rfl, rfl, rfl, ⟨first, hfirst, hdigest, rfl⟩, ?_, ?_⟩
    · intro source hsource
      obtain ⟨item, hitem, heq⟩ := mem_filterMap.mp hsource
      exact ⟨item, (hmember item hitem).1, heq⟩
    · rw [hpairs, ← hgroup]
      exact hperm.map _

/-! ## The reduction -/

/-- The claims of a reduction: one for each digest, numbered, each made of the enriched claims with
its digest. -/
structure FusionClaims (H : Hashing) (items : List PartClaim)
    (claims : List CanonicalReducedFusionClaim) : Prop where
  ordinals : claims.map (·.fusionOutputOrdinal) = List.range claims.length
  digests : (claims.map (·.claimSemanticSha256)).Nodup
  reduced : ∀ claim ∈ claims, ReducedFrom H items claim
  complete : ∀ item ∈ items, ∃ claim ∈ claims, claim.claimSemanticSha256 = partClaimDigest H item

/-- The groups, sorted, each with its place. -/
def placedGroups (H : Hashing) (items : List PartClaim) : List ((Sha256Digest × ClaimGroup) × Nat) :=
  (sortedBy groupKey (grouped (partClaimDigest H) items).rows).zipIdx

theorem map_fst_placedGroups (items : List PartClaim) :
    (placedGroups H items).map (·.1) = sortedBy groupKey (grouped (partClaimDigest H) items).rows :=
  zipIdx_map_fst 0 _

theorem reducedClaims_spec (h : PartsComplete plan barrier results) :
    ∃ claims, (placedGroups H (partClaims results)).mapM (reducedClaim H) = .ok claims ∧
      FusionClaims H (partClaims results) claims := by
  have hplace : ∀ place ∈ placedGroups H (partClaims results),
      place.1 ∈ (grouped (partClaimDigest H) (partClaims results)).rows := by
    intro place hmem
    have := mem_map_of_mem (f := fun p => p.1) hmem
    rw [map_fst_placedGroups] at this
    exact mem_sortedBy.mp this
  obtain ⟨claims, hclaims, hall⟩ := mapM_completes fun place hmem =>
    have hgroup := mem_rows_grouped.mp (hplace place hmem)
    reducedClaim_spec h hgroup.1 hgroup.2
  refine ⟨claims, hclaims, ?_, ?_, ?_, ?_⟩
  · have hmap := map_eq_of_forall₂ hall fun _ _ hclaim => hclaim.1.symm
    rw [← hmap, ← hall.length_eq]
    unfold placedGroups
    rw [zipIdx_map_snd, length_zipIdx, range_eq_range']
  · have hmap := map_eq_of_forall₂ hall fun _ _ hclaim =>
      hclaim.2.1.symm
    rw [← hmap]
    have hkeys := ((sortedBy_perm groupKey
      (grouped (partClaimDigest H) (partClaims results)).rows).map Prod.fst).nodup_iff.mpr
        (grouped (partClaimDigest H) (partClaims results)).nodup
    rw [← map_fst_placedGroups, map_map] at hkeys
    exact hkeys
  · intro claim hclaim
    obtain ⟨place, _, _, _, hreduced⟩ := exists_left_of_forall₂ hall claim hclaim
    exact hreduced
  · intro item hitem
    obtain ⟨entry, hentry, hkey, _⟩ := exists_group (partClaimDigest H) hitem
    have hmem : entry ∈ (placedGroups H (partClaims results)).map (·.1) := by
      rw [map_fst_placedGroups]
      exact mem_sortedBy.mpr hentry
    obtain ⟨place, hplaced, rfl⟩ := mem_map.mp hmem
    obtain ⟨claim, hclaim, _, hdigest, _⟩ := exists_right_of_forall₂ hall place hplaced
    exact ⟨claim, hclaim, hdigest.trans hkey⟩

theorem abstained_eq (h : List.Forall₂ SourceOf results sources) :
    sources.any (·.abstained) = results.any (·.abstained) ∧
      sources.all (·.abstained) = results.all (·.abstained) := by
  induction h with
  | nil => exact ⟨rfl, rfl⟩
  | cons hfirst _ ih =>
    simp only [any_cons, all_cons, hfirst.abstained, ih.1, ih.2]
    exact ⟨trivial, trivial⟩

section

variable (h : PartsComplete plan barrier results)
include h

theorem PartsComplete.partClaims_eq_nil
    (hall : results.all (·.abstained) = true) : partClaims results = [] := by
  rw [eq_nil_iff_forall_not_mem]
  intro item hitem
  obtain ⟨hresult, hclaim⟩ := mem_partClaims.mp hitem
  rw [h.abstention item.1 hresult (all_eq_true.mp hall item.1 hresult)] at hclaim
  exact not_mem_nil hclaim

theorem PartsComplete.results_ne_nil : results ≠ [] := by
  rintro rfl
  exact plan.callPlan.nonempty (eq_nil_of_length_eq_zero h.callPlan.1.symm)

theorem validateReduction_ok
    (hmixed : results.any (·.abstained) = true → results.all (·.abstained) = true)
    (hsources : List.Forall₂ SourceOf results sources)
    {values : CanonicalFusionReduction} (hparts : values.parts = sources)
    (hclaims : FusionClaims H (partClaims results) values.claims)
    (houtcome : values.outcome = fusionOutcome sources values.claims) :
    (identifiedReduction H values).validateReduction H = .ok () := by
  subst hparts
  have hordinals : values.parts.map (·.partOrdinal) = results.map (·.partOrdinal) :=
    (map_eq_of_forall₂ hsources fun _ _ hsource => hsource.partOrdinal.symm).symm
  have hkeys : (values.parts.map fun part => some part.enrichment.enrichmentLogicalKey) =
      results.map fun result => result.enrichedOutput.map fun e => e.enrichmentLogicalKey :=
    (map_eq_of_forall₂ hsources fun _ _ hsource => hsource.enrichment).symm
  have hnodup : (values.parts.map (·.partOrdinal)).Nodup := by
    rw [hordinals]
    exact h.partOrdinals_nodup
  unfold CanonicalFusionReduction.validateReduction
  rw [require_bind_eq_ok, require_bind_eq_ok, require_bind_eq_ok]
  refine ⟨?_, ?_, hclaims.ordinals, ?_⟩
  · show values.parts.map (·.partOrdinal) = List.range values.parts.length
    rw [hordinals, h.callPlan.2.1, ← h.callPlan.1, hsources.length_eq]
  · apply List.Nodup.of_map some
    rw [map_map]
    exact hkeys ▸ h.keys
  · have hmanifest : (values.claims.forM fun claim =>
        claim.sources.forM (validateSource values.parts)) = .ok () := by
      rw [forM_eq_ok_iff]
      intro claim hclaim
      rw [forM_eq_ok_iff]
      intro source hsource
      obtain ⟨item, hitem, hof⟩ := (hclaims.reduced claim hclaim).sources source hsource
      obtain ⟨source', hof', _, hpair, hkey⟩ := h.exists_claimSource hitem
      rw [hof] at hof'
      obtain rfl := Option.some.inj hof'
      obtain ⟨part, hpart, hpartOf⟩ := exists_right_of_forall₂ hsources item.1
        (mem_partClaims.mp hitem).1
      have hordinal : part.partOrdinal = source.partOrdinal :=
        hpartOf.partOrdinal.trans (congrArg Prod.fst hpair).symm
      unfold validateSource
      rw [require_eq_ok, ← hordinal, Dict.get?_index_of_mem hnodup hpart, Option.map_some,
        ← hpartOf.enrichment]
      exact hkey
    have hshape : validateOutcome values = .ok () := by
      have hne : values.parts ≠ [] := by
        intro hnil
        rw [hnil] at hsources
        cases hsources
        exact h.results_ne_nil rfl
      obtain ⟨hany, hall⟩ := abstained_eq hsources
      unfold validateOutcome
      rw [houtcome]
      unfold fusionOutcome
      rw [hall]
      by_cases hallTrue : results.all (·.abstained) = true
      · rw [if_pos hallTrue]
        have hnil : values.claims = [] := by
          rw [eq_nil_iff_forall_not_mem]
          intro claim hclaim
          obtain ⟨item, hitem, _⟩ := (hclaims.reduced claim hclaim).representative
          rw [h.partClaims_eq_nil hallTrue] at hitem
          exact not_mem_nil hitem
        exact require_eq_ok.mpr ⟨hnil, hne, hallTrue⟩
      · rw [if_neg hallTrue]
        have hanyFalse : values.parts.any (·.abstained) = false := by
          rw [hany]
          exact Bool.eq_false_iff.mpr fun hanyTrue => hallTrue (hmixed hanyTrue)
        by_cases hempty : values.claims = []
        · rw [if_neg (not_not.mpr hempty)]
          exact require_eq_ok.mpr ⟨hempty, hne, hanyFalse⟩
        · rw [if_pos hempty]
          exact require_eq_ok.mpr ⟨hempty, hanyFalse⟩
    show (do
      (values.claims.forM (·.sources.forM (validateSource values.parts)))
      validateOutcome values
      _) = _
    rw [hmanifest, ok_bind, hshape, ok_bind]
    simp only [require_bind_eq_ok, require_eq_ok]
    exact ⟨rfl, rfl, rfl⟩

end

/-- On complete parts the reduction returns when no part has two claims of one digest and the parts
agree on abstaining; it then returns one determined reduction. -/
theorem buildCanonicalFusionReduction_spec (h : PartsComplete plan barrier results)
    (createdAt : String) :
    ∃ reduction : CanonicalFusionReduction, FusionClaims H (partClaims results) reduction.claims ∧
      reduction.outcome = (if results.all (·.abstained) = true then FusionOutcome.allPartsAbstained
        else if reduction.claims ≠ [] then .claims else .noSurvivingEvents) ∧
      ∀ returned, buildCanonicalFusionReduction H plan barrier results createdAt = .ok returned ↔
        (∀ result ∈ results, (result.claims.map (fusionClaimReductionDigest H)).Nodup) ∧
          (results.any (·.abstained) = true → results.all (·.abstained) = true) ∧
          returned = reduction := by
  obtain ⟨sources, hsources, hcollect⟩ := collectParts_spec (H := H) h.complete
  obtain ⟨claims, hmapM, hclaims⟩ := reducedClaims_spec h
  obtain ⟨hany, hall⟩ := abstained_eq hsources
  have hrows : (partClaims results).foldl (appendToGroup H) KeyedTable.empty =
      grouped (partClaimDigest H) (partClaims results) := rfl
  have hclaimsOf : (sortedBy groupKey
      (grouped (partClaimDigest H) (partClaims results)).rows).zipIdx.mapM (reducedClaim H) =
        .ok claims := hmapM
  refine ⟨identifiedReduction H
    { reductionId := ""
      reductionLogicalKey := ""
      semanticSha256 := ""
      inputPlanSemanticSha256 := plan.semanticSha256
      barrierReductionId := barrier.reductionId
      barrierReductionSemanticSha256 := barrier.reductionSemanticSha256
      reductionPolicy := plan.callPlan.reductionPolicy
      reductionPolicyVersion := plan.callPlan.reductionPolicyVersion
      outcome := fusionOutcome sources claims
      parts := sources
      claims
      createdAt }, hclaims, ?_, ?_⟩
  · unfold fusionOutcome
    rw [hall]
    rfl
  · intro returned
    unfold buildCanonicalFusionReduction
    simp only [require_bind_eq_ok]
    rw [and_iff_right h.callPlan, bind_eq_ok]
    simp only [hcollect, nil_append, hrows]
    constructor
    · rintro ⟨_, ⟨hdistinct, rfl⟩, hmix⟩
      obtain ⟨hmix, hrest⟩ := require_bind_eq_ok.mp hmix
      have hmixed : results.any (·.abstained) = true → results.all (·.abstained) = true := by
        rw [← hany, ← hall]
        tauto
      rw [hclaimsOf, ok_bind, validateReduction_ok h hmixed hsources rfl hclaims rfl] at hrest
      cases hrest
      exact ⟨hdistinct, hmixed, rfl⟩
    · rintro ⟨hdistinct, hmixed, rfl⟩
      refine ⟨_, ⟨hdistinct, rfl⟩, require_bind_eq_ok.mpr ⟨?_, ?_⟩⟩
      · rw [hany, hall]
        tauto
      · rw [hclaimsOf, ok_bind, validateReduction_ok h hmixed hsources rfl hclaims rfl]
        rfl

end Robata.Fusion
