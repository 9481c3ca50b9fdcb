import Robata.Fusion.PayloadReduction
import Robata.Lib.Aligned

/-!
# What a citation stands for

A token of the reference catalog stands for one rendered item, and the rendered items show every
frame of the request catalog once: the coordinates of a frame give its token back.  Two enriched
fusion claims are therefore projected alike when, and only when, they come from provider claims
that are equal but for their ordinals and for the order in which they cite.
-/

namespace Robata.Fusion

open Contracts Lib List

/-! ## Positions in the catalog -/

theorem ordinal_of_getElem? {α : Type} (ordinal : α → Nat) {items : List α}
    (h : items.map ordinal = List.range items.length) {i : Nat} {a : α}
    (ha : items[i]? = some a) : ordinal a = i := by
  have hmap : (items.map ordinal)[i]? = some (ordinal a) := by
    rw [getElem?_map, ha]
    rfl
  rw [h] at hmap
  obtain ⟨_, hi⟩ := List.getElem?_eq_some_iff.mp hmap
  rw [← hi, getElem_range]

theorem CatalogPackage.cameraOrdinal_eq (package : CatalogPackage) {i : Nat}
    {camera : CatalogCamera} (h : package.cameras[i]? = some camera) : camera.ordinal.val = i := by
  have hat : CameraId.all[i]? = some camera.cameraId := by
    rw [← package.canonicalOrder, getElem?_map, h]
    rfl
  have hnodup : CameraId.all.Nodup := by decide
  exact (getElem?_inj camera.ordinal.isLt hnodup).mp (camera.position.trans hat.symm)

variable {H : Hashing} {plan : InferenceInputPlan}

theorem catalogCamera_ordinals {packageOrdinal : Nat} {cameraOrdinal : Fin 6}
    {bound : CatalogPackage × CatalogCamera}
    (h : catalogCamera plan packageOrdinal cameraOrdinal = .ok bound) :
    bound.1.ordinal = packageOrdinal ∧ bound.2.ordinal = cameraOrdinal := by
  unfold catalogCamera at h
  split at h
  · cases h
  · rename_i package hpackage
    split at h
    · cases h
    · rename_i camera hcamera
      cases h
      exact ⟨ordinal_of_getElem? _ plan.requestCatalog.packageOrdinals hpackage,
        Fin.ext (package.cameraOrdinal_eq hcamera)⟩

/-- Package, camera and frame ordinal of a frame. -/
def coordinates (place : CatalogPackage × CatalogCamera × CatalogFrame) : Nat × Fin 6 × Nat :=
  (place.1.ordinal, place.2.1.ordinal, place.2.2.ordinal)

def ProviderReferenceCatalogEntry.coordinates (entry : ProviderReferenceCatalogEntry) :
    Nat × Fin 6 × Nat :=
  (entry.packageOrdinal, entry.cameraOrdinal, entry.frameOrdinal)

theorem catalogFrame_coordinates {entry : ProviderReferenceCatalogEntry}
    {place : CatalogPackage × CatalogCamera × CatalogFrame}
    (h : catalogFrame plan entry = .ok place) : coordinates place = entry.coordinates := by
  unfold catalogFrame at h
  split at h
  · cases h
  · rename_i package camera hcamera
    split at h
    · cases h
    · rename_i frame hframe
      cases h
      obtain ⟨hpackage, hordinal⟩ := catalogCamera_ordinals hcamera
      have := ordinal_of_getElem? _ camera.frameOrdinals hframe
      simp only [coordinates, ProviderReferenceCatalogEntry.coordinates] at *
      rw [hpackage, hordinal, this]

/-! ## The rendering shows every frame once -/

theorem CatalogPackage.cameraOrdinals_nodup (package : CatalogPackage) :
    (package.cameras.map (·.ordinal)).Nodup := by
  have hrange : (package.cameras.map (·.ordinal)).map Fin.val =
      List.range package.cameras.length := by
    apply ext_getElem
    · simp
    · intro i hi hi'
      rw [getElem_map, getElem_map, getElem_range]
      exact package.cameraOrdinal_eq (getElem?_eq_getElem _)
  apply List.Nodup.of_map Fin.val
  rw [hrange]
  exact nodup_range

theorem catalogFrameSequence_coordinates_nodup (catalog : RequestCatalog) :
    ((catalogFrameSequence catalog).map coordinates).Nodup := by
  unfold catalogFrameSequence
  rw [map_flatMap]
  apply nodup_flatMap_of_key (·.ordinal) (fun c => c.1)
  · rw [catalog.packageOrdinals]
    exact nodup_range
  · intro package _
    rw [map_flatMap]
    apply nodup_flatMap_of_key (·.ordinal) (fun c => c.2.1) package.cameraOrdinals_nodup
    · intro camera _
      have hframes : (camera.frames.map (·.ordinal)).Nodup := by
        rw [camera.frameOrdinals]
        exact nodup_range
      rw [map_map]
      apply List.Nodup.of_map fun c : Nat × Fin 6 × Nat => c.2.2
      rw [map_map]
      exact hframes
    · intro camera _ c hc
      obtain ⟨place, hplace, rfl⟩ := mem_map.mp hc
      obtain ⟨frame, _, rfl⟩ := mem_map.mp hplace
      rfl
  · intro package _ c hc
    obtain ⟨place, hplace, rfl⟩ := mem_map.mp hc
    obtain ⟨camera, _, hframe⟩ := mem_flatMap.mp hplace
    obtain ⟨frame, _, rfl⟩ := mem_map.mp hframe
    rfl

/-- The coordinates a rendered item is bound to. -/
def RenderedProviderItem.coordinates (item : RenderedProviderItem) : Nat × Fin 6 × Nat :=
  (item.packageOrdinal, item.cameraOrdinal, item.frameOrdinal)

theorem renderedItems_nodup (plan : InferenceInputPlan) :
    (plan.renderedItems.map (·.coordinates)).Nodup := by
  have hrendered := plan.rendered
  unfold validateRenderedItems at hrendered
  simp only [require_bind_eq_ok] at hrendered
  obtain ⟨hlength, _, hbinds⟩ := hrendered
  rw [forM_eq_ok_iff] at hbinds
  have hcoordinates : plan.renderedItems.map (·.coordinates) =
      (catalogFrameSequence plan.requestCatalog).map coordinates := by
    apply ext_getElem
    · simpa using hlength
    · intro i hi hi'
      rw [length_map] at hi hi'
      have hpair := hbinds (plan.renderedItems[i], (catalogFrameSequence plan.requestCatalog)[i])
        (mem_iff_getElem.mpr ⟨i, by simp [hi, hi'], by simp⟩)
      obtain ⟨_, hpackage, _, hcamera, _, hframe, _⟩ := require_eq_ok.mp hpair
      rw [getElem_map, getElem_map]
      unfold RenderedProviderItem.coordinates coordinates
      rw [hpackage, hcamera, hframe]
  rw [hcoordinates]
  exact catalogFrameSequence_coordinates_nodup plan.requestCatalog

/-! ## Tokens -/

variable {reference : ProviderReferenceCatalog} {part : InferenceCallPart} {token token' : String}
  {ref ref' : EnrichedEvidenceReference}

/-- The evidence reference that a token stands for. -/
def standsFor (plan : InferenceInputPlan) (reference : ProviderReferenceCatalog) (token : String) :
    Option EnrichedEvidenceReference :=
  match (Dict.index (·.correlationToken) reference.entries).get? token with
  | none => none
  | some entry =>
    match catalogFrame plan entry with
    | .error _ => none
    | .ok place => some (evidenceReference entry place)

theorem standsFor_eq_some (h : standsFor plan reference token = some ref) :
    ∃ entry ∈ reference.entries, entry.correlationToken = token ∧
      ∃ place, catalogFrame plan entry = .ok place ∧ ref = evidenceReference entry place := by
  unfold standsFor at h
  split at h
  · cases h
  · rename_i entry hentry
    split at h
    · cases h
    · rename_i place hplace
      cases h
      obtain ⟨hmem, htoken⟩ := Dict.get?_index_mem hentry
      exact ⟨entry, hmem, htoken, place, hplace, rfl⟩

theorem resolveToken_standsFor {bound : Option (CatalogPackage × CatalogCamera)}
    (h : resolveToken plan part (Dict.index (·.correlationToken) reference.entries) bound token =
      .ok ref) : standsFor plan reference token = some ref := by
  unfold resolveToken at h
  split at h
  · cases h
  · rename_i entry hentry
    simp only [require_bind_eq_ok] at h
    obtain ⟨_, _, h⟩ := h
    obtain ⟨place, hplace, h⟩ := bind_eq_ok.mp h
    cases h
    unfold standsFor
    rw [hentry]
    dsimp only
    rw [hplace]

theorem standsFor_token (h : standsFor plan reference token = some ref) :
    ref.correlationToken = token := by
  obtain ⟨entry, _, htoken, place, _, rfl⟩ := standsFor_eq_some h
  exact htoken

variable {policy : SchemaVersion}

section

variable (hentries : reference.entries = expectedReferenceEntries H plan policy)
include hentries

theorem entry_eq_of_coordinates
    {entry entry' : ProviderReferenceCatalogEntry} (h : entry ∈ reference.entries)
    (h' : entry' ∈ reference.entries) (hcoordinates : entry.coordinates = entry'.coordinates) :
    entry = entry' := by
  have hnodup : (reference.entries.map (·.coordinates)).Nodup := by
    rw [hentries]
    unfold expectedReferenceEntries referenceEntriesForRendering
    rw [map_map]
    exact renderedItems_nodup plan
  exact inj_on_of_nodup_map hnodup h h' hcoordinates

theorem token_eq_of_projection (h : standsFor plan reference token = some ref)
    (h' : standsFor plan reference token' = some ref')
    (hprojection : ref.projection = ref'.projection) : token = token' := by
  obtain ⟨entry, hmem, rfl, place, hplace, rfl⟩ := standsFor_eq_some h
  obtain ⟨entry', hmem', rfl, place', hplace', rfl⟩ := standsFor_eq_some h'
  have hcoordinates : coordinates place = coordinates place' := by
    have hpackage := congrArg FusionEvidenceProjection.packageOrdinal hprojection
    have hcamera := congrArg FusionEvidenceProjection.cameraOrdinal hprojection
    have hframe := congrArg FusionEvidenceProjection.frameOrdinal hprojection
    exact Prod.ext hpackage (Prod.ext hcamera hframe)
  rw [catalogFrame_coordinates hplace, catalogFrame_coordinates hplace'] at hcoordinates
  rw [entry_eq_of_coordinates hentries hmem hmem' hcoordinates]

end

theorem token_eq_of_item (h : standsFor plan reference token = some ref)
    (h' : standsFor plan reference token' = some ref')
    (hitem : ref.providerItemOrdinal = ref'.providerItemOrdinal) : token = token' := by
  obtain ⟨entry, hmem, rfl, place, _, rfl⟩ := standsFor_eq_some h
  obtain ⟨entry', hmem', rfl, place', _, rfl⟩ := standsFor_eq_some h'
  have hnodup : (reference.entries.map (·.providerItemOrdinal)).Nodup := by
    rw [reference.itemOrdinals]
    exact nodup_range
  rw [inj_on_of_nodup_map hnodup hmem hmem' hitem]

/-! ## Lists of citations -/

variable (plan reference) in
/-- The tokens stand for the references, one by one. -/
def Resolved (tokens : List String) (refs : List EnrichedEvidenceReference) : Prop :=
  tokens.map (standsFor plan reference) = refs.map some

variable {tokens tokens' : List String} {refs refs' : List EnrichedEvidenceReference}

theorem Resolved.of_mapM {bound : Option (CatalogPackage × CatalogCamera)}
    (h : tokens.mapM (resolveToken plan part
      (Dict.index (·.correlationToken) reference.entries) bound) = .ok refs) :
    Resolved plan reference tokens refs :=
  map_eq_of_forall₂ (mapM_forall₂ h) fun _ _ => resolveToken_standsFor

section

variable (h : Resolved plan reference tokens refs)
include h

theorem Resolved.standsFor (href : ref ∈ refs) :
    standsFor plan reference ref.correlationToken = some ref := by
  have hmem : some ref ∈ tokens.map (Fusion.standsFor plan reference) := by
    rw [h]
    exact mem_map_of_mem href
  obtain ⟨token, _, htoken⟩ := mem_map.mp hmem
  rw [standsFor_token htoken, htoken]

theorem Resolved.tokens_eq : refs.map (·.correlationToken) = tokens := by
  induction tokens generalizing refs with
  | nil =>
    cases refs with
    | nil => rfl
    | cons ref rest => cases h
  | cons token rest ih =>
    cases refs with
    | nil => cases h
    | cons ref restRefs =>
      unfold Resolved at h
      rw [map_cons, map_cons, List.cons.injEq] at h
      rw [map_cons, standsFor_token h.1, ih h.2]

theorem Resolved.items_nodup (hnodup : tokens.Nodup) :
    (refs.map (·.providerItemOrdinal)).Nodup := by
  rw [← h.tokens_eq, List.Nodup, pairwise_map] at hnodup
  rw [List.Nodup, pairwise_map]
  refine List.Pairwise.imp_of_mem ?_ hnodup
  intro a b ha hb hne hitem
  exact hne (token_eq_of_item (h.standsFor ha) (h.standsFor hb) hitem)

end

/-- The order of the citations does not matter for the sorted evidence, and nothing else is
lost. -/
theorem Resolved.sorted_eq_iff (h : Resolved plan reference tokens refs)
    (h' : Resolved plan reference tokens' refs') (hnodup : tokens.Nodup) :
    sortedBy (·.providerItemOrdinal) refs = sortedBy (·.providerItemOrdinal) refs' ↔
      tokens.Perm tokens' := by
  constructor
  · intro hsorted
    rw [← h.tokens_eq, ← h'.tokens_eq]
    have hperm : refs.Perm refs' := by
      refine (sortedBy_perm (·.providerItemOrdinal) refs).symm.trans ?_
      rw [hsorted]
      exact sortedBy_perm _ refs'
    exact hperm.map _
  · intro hperm
    have hsome : (refs.map some).Perm (refs'.map some) := by
      rw [← h, ← h']
      exact hperm.map _
    have hrefs := hsome.filterMap id
    rw [filterMap_map, filterMap_map] at hrefs
    simp only [Function.comp_def, id, filterMap_some] at hrefs
    exact sortedBy_eq_of_perm hrefs (h.items_nodup hnodup)

theorem Resolved.projection_eq_iff
    (hentries : reference.entries = expectedReferenceEntries H plan policy)
    (h : Resolved plan reference tokens refs) (h' : Resolved plan reference tokens' refs') :
    (sortedBy (·.providerItemOrdinal) refs).map (·.projection) =
        (sortedBy (·.providerItemOrdinal) refs').map (·.projection) ↔
      sortedBy (·.providerItemOrdinal) refs = sortedBy (·.providerItemOrdinal) refs' := by
  constructor
  · intro hmap
    apply eq_of_map_eq hmap
    intro a ha b hb hprojection
    have hstands := h.standsFor (mem_sortedBy.mp ha)
    have hstands' := h'.standsFor (mem_sortedBy.mp hb)
    rw [token_eq_of_projection hentries hstands hstands' hprojection] at hstands
    exact Option.some.inj (hstands.symm.trans hstands')
  · intro hsorted
    rw [hsorted]

/-! ## Claims -/

/-- The claim with its citations taken out. -/
def ProviderClaimContent.withoutCitations (content : ProviderClaimContent) : ProviderClaimContent :=
  { content with evidenceTokens := [] }

/-- Equal but for the ordinals and for the order of the citations. -/
def SameUpToCitationOrder (claim claim' : ProviderTaskClaim) : Prop :=
  claim.toProviderClaimContent.withoutCitations = claim'.toProviderClaimContent.withoutCitations ∧
    claim.evidenceTokens.Perm claim'.evidenceTokens

instance decidableSameUpToCitationOrder (claim claim' : ProviderTaskClaim) :
    Decidable (SameUpToCitationOrder claim claim') :=
  inferInstanceAs (Decidable (_ ∧ _))

variable {claim claim' : ProviderTaskClaim} {enriched enriched' : EnrichedProviderClaim}
  {parsed parsed' : ParsedProviderClaimArtifact} {selected selected' : SelectedAttemptOutput}
  {digest digest' : Sha256Digest} {part' : InferenceCallPart}

theorem SameApartFromOrdinals.upToCitationOrder (h : SameApartFromOrdinals claim claim') :
    SameUpToCitationOrder claim claim' := by
  unfold SameUpToCitationOrder
  rw [h]
  exact ⟨rfl, List.Perm.refl _⟩

section

variable (h : SameUpToCitationOrder claim claim')
include h

theorem SameUpToCitationOrder.symm : SameUpToCitationOrder claim' claim := ⟨h.1.symm, h.2.symm⟩

theorem SameUpToCitationOrder.trans {claim'' : ProviderTaskClaim}
    (h' : SameUpToCitationOrder claim' claim'') :
    SameUpToCitationOrder claim claim'' := ⟨h.1.trans h'.1, h.2.trans h'.2⟩

theorem SameUpToCitationOrder.fields :
    claim.interval = claim'.interval ∧ claim.label = claim'.label ∧
      claim.observation = claim'.observation ∧
      claim.modelReportedScore = claim'.modelReportedScore ∧
      claim.conflictCodes = claim'.conflictCodes := by
  have hcontent := h.1
  rw [ProviderClaimContent.mk.injEq] at hcontent
  obtain ⟨_, _, _, hinterval, hlabel, hobservation, _, hscore, hcodes⟩ := hcontent
  exact ⟨hinterval, hlabel, hobservation, hscore, hcodes⟩

end

variable (H plan reference parsed selected digest) in
/-- What enrichment makes of a fusion claim, with the evidence it resolved. -/
structure EnrichedFrom (claim : ProviderTaskClaim) (enriched : EnrichedProviderClaim)
    (refs : List EnrichedEvidenceReference) : Prop where
  resolved : Resolved plan reference claim.evidenceTokens refs
  claimId : enriched.claimId = H.stableUuid "enriched-provider-claim" digest claim.claimOrdinal
  claimOrdinal : enriched.claimOrdinal = claim.claimOrdinal
  kind : enriched.kind = claim.kind
  packageOrdinal : enriched.packageOrdinal = none
  cameraId : enriched.cameraId = none
  interval : enriched.interval = claim.interval
  label : enriched.label = claim.label
  observation : enriched.observation = claim.observation
  evidence : enriched.evidence = sortedBy (·.providerItemOrdinal) refs
  confidence : enriched.modelReportedConfidence = reportedConfidence H parsed selected digest claim
  conflictCodes : enriched.conflictCodes = claim.conflictCodes

theorem claimCamera_fusion (hkind : claim.kind = .fusionHypothesis) :
    claimCamera plan part claim = .ok none := by
  unfold claimCamera
  rw [hkind]
  rfl

theorem enrichClaim_spec (hkind : claim.kind = .fusionHypothesis)
    (h : enrichClaim H plan part (Dict.index (·.correlationToken) reference.entries) parsed selected
      digest claim = .ok enriched) :
    ∃ refs, EnrichedFrom H plan reference parsed selected digest claim enriched refs := by
  unfold enrichClaim at h
  rw [claimCamera_fusion hkind] at h
  obtain ⟨bound, hbound, h⟩ := bind_eq_ok.mp h
  cases hbound
  obtain ⟨refs, hrefs, h⟩ := bind_eq_ok.mp h
  obtain ⟨_, _, h⟩ := bind_eq_ok.mp h
  cases h
  exact ⟨refs, Resolved.of_mapM hrefs, rfl, rfl, rfl, rfl, rfl, rfl, rfl, rfl, rfl, rfl, rfl⟩

/-- The parts of the shape contract that fusion claims rely on. -/
structure FusionShape (claim : ProviderTaskClaim) : Prop where
  tokens : claim.evidenceTokens.Nodup
  kind : claim.kind = .fusionHypothesis
  package : claim.packageOrdinal = none
  camera : claim.cameraOrdinal = none

theorem fusionShape_of_accepted (hkind : claim.kind = .fusionHypothesis)
    (h : claim.validateClaimShape = .ok ()) : FusionShape claim := by
  unfold ProviderTaskClaim.validateClaimShape at h
  simp only [require_bind_eq_ok] at h
  obtain ⟨_, htokens, _, h⟩ := h
  obtain ⟨_, hcamera, _⟩ := bind_eq_ok.mp h
  unfold ProviderTaskClaim.validateCameraShape at hcamera
  rw [hkind] at hcamera
  obtain ⟨hpackage, hordinal⟩ := require_eq_ok.mp hcamera
  exact ⟨htokens, hkind, hpackage, hordinal⟩

/-- Two enriched fusion claims are projected alike exactly when the provider claims are equal but
for their ordinals and the order of their citations. -/
theorem fusionClaimReductionProjection_eq_iff
    (hentries : reference.entries = expectedReferenceEntries H plan policy)
    (hversion : parsed.rawResponse.target.modelVersion = parsed'.rawResponse.target.modelVersion)
    (hshape : FusionShape claim) (hshape' : FusionShape claim')
    (h : EnrichedFrom H plan reference parsed selected digest claim enriched refs)
    (h' : EnrichedFrom H plan reference parsed' selected' digest' claim' enriched' refs') :
    fusionClaimReductionProjection enriched = fusionClaimReductionProjection enriched' ↔
      SameUpToCitationOrder claim claim' := by
  have hevidence : enriched.evidence.map (·.projection) = enriched'.evidence.map (·.projection) ↔
      claim.evidenceTokens.Perm claim'.evidenceTokens := by
    rw [h.evidence, h'.evidence, h.resolved.projection_eq_iff hentries h'.resolved,
      h.resolved.sorted_eq_iff h'.resolved hshape.tokens]
  have hscore : (enriched.modelReportedConfidence.map fun c => (c.producerVersion, c.value)) =
      (enriched'.modelReportedConfidence.map fun c => (c.producerVersion, c.value)) ↔
      claim.modelReportedScore = claim'.modelReportedScore := by
    rw [h.confidence, h'.confidence]
    unfold reportedConfidence
    rw [hversion]
    cases claim.modelReportedScore <;> cases claim'.modelReportedScore <;> simp
  unfold SameUpToCitationOrder ProviderClaimContent.withoutCitations
  simp only [fusionClaimReductionProjection, FusionClaimProjection.mk.injEq,
    ProviderClaimContent.mk.injEq]
  rw [h.kind, h'.kind, h.packageOrdinal, h'.packageOrdinal, h.cameraId, h'.cameraId, h.interval,
    h'.interval, h.label, h'.label, h.observation, h'.observation, h.conflictCodes,
    h'.conflictCodes, hshape.package, hshape'.package, hshape.camera, hshape'.camera]
  tauto

end Robata.Fusion
