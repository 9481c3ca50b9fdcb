import Robata.QaPipeline.DensePlanner

/-!
# The planned units

A valid coarse result whose claims lie within the recording is planned without an error.  The units
are the groups of suspicious coordinates whose intervals are linked by gaps of at most
`merge_gap_ns`, and different units lie further apart.
-/

namespace Robata.QaPipeline

open Contracts Lib List

/-! ## What a valid coarse result says -/

/-- The observation reference of a coarse result, if its claim has an interval. -/
def CameraCoarseResult.ref? (item : CameraCoarseResult) : Option CoarseQAObservationRef :=
  item.claim.interval.map fun interval =>
    { packageId := item.packageId
      packageOrdinal := item.packageOrdinal
      cameraId := item.cameraId
      interval := interval
      providerObservation := item.claim.observation
      localStatus := item.localStatus
      sourceClaimId := item.claim.claimId
      sourceOutput := item.sourceOutput }

/-- The checks that a coarse result has passed, as far as the gate relies on them. -/
structure CoarseQAResult.Checked (coarse : CoarseQAResult) : Prop where
  packages : coarse.packageIds ≠ [] ∧ coarse.packageIds.Nodup
  coordinates : coarse.packageCameraResults.map (fun item => (item.packageOrdinal, item.cameraId)) =
    canonicalCoordinates coarse.packageIds.length
  packageIds : ∀ item ∈ coarse.packageCameraResults,
    coarse.packageIds[item.packageOrdinal]? = some item.packageId
  outputs : ∀ item ∈ coarse.packageCameraResults, item.sourceOutput ∈ coarse.sourceOutputs
  status : resultStatus (coarse.packageCameraResults.map (·.localStatus)) = .ok coarse.localStatus
  observed : ∀ item ∈ coarse.packageCameraResults,
    coarseCameraStatus item.claim.observation = .ok item.localStatus

variable {coarse : CoarseQAResult}

theorem CoarseQAResult.Valid.checked (h : coarse.Valid) : coarse.Checked := by
  obtain ⟨_, hparts, hwhole⟩ := bind_eq_ok.mp h
  unfold CoarseQAResult.validateResult at hwhole
  simp only [require_bind_eq_ok] at hwhole
  obtain ⟨hne, hnodup, -, hcoordinates, hids, houtputs, hwhole⟩ := hwhole
  obtain ⟨status, hstatus, hwhole⟩ := bind_eq_ok.mp hwhole
  simp only [require_bind_eq_ok] at hwhole
  obtain ⟨hlocal, -⟩ := hwhole
  refine ⟨⟨hne, hnodup⟩, hcoordinates, hids, houtputs, hlocal ▸ hstatus, ?_⟩
  intro item hitem
  have hpart := forM_eq_ok_iff.mp hparts item hitem
  obtain ⟨_, _, hbinding⟩ := bind_eq_ok.mp hpart
  unfold CameraCoarseResult.validateBinding at hbinding
  rw [require_bind_eq_ok, bind_eq_ok] at hbinding
  obtain ⟨-, expected, hexpected, hlocal'⟩ := hbinding
  rw [require_eq_ok] at hlocal'
  exact hlocal' ▸ hexpected

theorem cameraStatusOr_eq_ok {message message' : String} {observation : ProviderObservation}
    {status : CameraQAStatus} (h : cameraStatusOr message observation = .ok status) :
    cameraStatusOr message' observation = .ok status := by
  cases observation <;> first | exact h | cases h

variable {ref : CoarseQAObservationRef}

/-- Of an observed item with an interval both projectors make the same reference. -/
theorem observationRefOr_of_ref? {missing : QAError} {item : CameraCoarseResult}
    (hobserved : coarseCameraStatus item.claim.observation = .ok item.localStatus)
    (href : item.ref? = some ref) : observationRefOr missing item = .ok ref := by
  unfold CameraCoarseResult.ref? at href
  unfold observationRefOr
  cases hinterval : item.claim.interval with
  | none =>
    rw [hinterval] at href
    cases href
  | some interval =>
    rw [hinterval] at href
    cases href
    have hstatus : denseCameraStatus item.claim.observation = .ok item.localStatus :=
      cameraStatusOr_eq_ok hobserved
    simp only [CoarseQAObservationRef.validateStatus, hstatus, ok_bind, require_bind_eq_ok]
    exact ⟨trivial, rfl⟩

variable {coverage : List CoarseQAObservationRef}

theorem mapM_observationRefOr (h : coarse.Checked)
    (hrefs : coarse.packageCameraResults.map (·.ref?) = coverage.map some) (missing : QAError) :
    coarse.packageCameraResults.mapM (observationRefOr missing) = .ok coverage := by
  have hobserved := h.observed
  generalize coarse.packageCameraResults = results at hrefs hobserved
  induction results generalizing coverage with
  | nil =>
    cases coverage with
    | nil => rfl
    | cons ref rest => cases hrefs
  | cons item results ih =>
    cases coverage with
    | nil => cases hrefs
    | cons ref rest =>
      rw [map_cons, map_cons, List.cons.injEq] at hrefs
      rw [mapM_cons, observationRefOr_of_ref? (hobserved item mem_cons_self) hrefs.1,
        ih hrefs.2 fun other hother => hobserved other (mem_cons_of_mem _ hother)]
      rfl

theorem map_of_refs {results : List CameraCoarseResult}
    (hrefs : results.map (·.ref?) = coverage.map some) {γ : Type} {f : CoarseQAObservationRef → γ}
    {g : CameraCoarseResult → γ} (hkeep : ∀ item ref, item.ref? = some ref → f ref = g item) :
    coverage.map f = results.map g := by
  induction results generalizing coverage with
  | nil =>
    cases coverage with
    | nil => rfl
    | cons ref rest => cases hrefs
  | cons item results ih =>
    cases coverage with
    | nil => cases hrefs
    | cons ref rest =>
      rw [map_cons, map_cons, List.cons.injEq] at hrefs
      rw [map_cons, map_cons, hkeep item ref hrefs.1, ih hrefs.2]

theorem ref?_keeps {item : CameraCoarseResult} (h : item.ref? = some ref) :
    ref.packageId = item.packageId ∧
      ref.packageOrdinal = item.packageOrdinal ∧ ref.cameraId = item.cameraId ∧
      ref.localStatus = item.localStatus ∧ ref.sourceOutput = item.sourceOutput ∧
      item.claim.interval = some ref.interval := by
  unfold CameraCoarseResult.ref? at h
  rw [Option.map_eq_some_iff] at h
  obtain ⟨interval, hinterval, rfl⟩ := h
  exact ⟨rfl, rfl, rfl, rfl, rfl, hinterval⟩

theorem exists_item_of_ref {results : List CameraCoarseResult}
    (hrefs : results.map (·.ref?) = coverage.map some) (href : ref ∈ coverage) :
    ∃ item ∈ results, item.ref? = some ref := by
  have hmem : some ref ∈ coverage.map some := mem_map_of_mem href
  rw [← hrefs, mem_map] at hmem
  exact hmem

/-! ## The order of the coordinates -/

theorem canonicalCoordinates_pairwise (packages : Nat) :
    (canonicalCoordinates packages).Pairwise fun a b =>
      toLex (a.1, cameraIndex a.2) < toLex (b.1, cameraIndex b.2) := by
  unfold canonicalCoordinates
  rw [pairwise_flatMap]
  constructor
  · intro ordinal _
    rw [pairwise_map]
    have hcameras : CameraId.all.Pairwise fun a b => cameraIndex a < cameraIndex b := by decide
    refine hcameras.imp ?_
    intro a b hab
    exact Prod.Lex.toLex_lt_toLex.mpr (.inr ⟨rfl, hab⟩)
  · refine List.pairwise_lt_range.imp ?_
    intro i j hij a ha b hb
    obtain ⟨c, -, rfl⟩ := mem_map.mp ha
    obtain ⟨d, -, rfl⟩ := mem_map.mp hb
    exact Prod.Lex.toLex_lt_toLex.mpr (.inl hij)

/-- A reference as an item of dense work. -/
def itemOf (source : CoarseQAObservationRef) : DenseQAWorkItem :=
  { source := source, contextCameraIds := CameraId.all }

theorem workItem_eq_ok {source : CoarseQAObservationRef}
    (h : source.localStatus.isSuspicious = true) : workItem source = .ok (itemOf source) := by
  unfold workItem DenseQAWorkItem.validateItem
  simp [h]
  rfl

/-- The suspicious coordinates of a coverage, as items. -/
def suspiciousItems (coverage : List CoarseQAObservationRef) : List DenseQAWorkItem :=
  (coverage.filter (·.localStatus.isSuspicious)).map itemOf

variable (coverage) in
theorem mapM_workItem : (coverage.filter (·.localStatus.isSuspicious)).mapM workItem =
      .ok (suspiciousItems coverage) :=
  mapM_of_forall fun _ href => workItem_eq_ok (mem_filter.mp href).2

theorem suspiciousItems_pairwise {packages : Nat}
    (hcoverage : coverage.map (fun ref => (ref.packageOrdinal, ref.cameraId)) =
      canonicalCoordinates packages) :
    (suspiciousItems coverage).Pairwise fun a b => a.sortKey < b.sortKey := by
  have hall := canonicalCoordinates_pairwise packages
  rw [← hcoverage, pairwise_map] at hall
  unfold suspiciousItems
  rw [pairwise_map]
  exact hall.sublist filter_sublist

variable {items : List DenseQAWorkItem}

theorem nodup_of_sortKey (h : items.Pairwise fun a b => a.sortKey < b.sortKey) : items.Nodup := by
  refine h.imp ?_
  rintro a b hlt rfl
  exact lt_irrefl _ hlt

/-! ## One unit -/

/-- The interval of an item fits into the recording with its padding; where the recording has no
bounds the padded interval has to be one of signed 64-bit nanoseconds. -/
def DenseQAPlanningPolicy.Fits (policy : DenseQAPlanningPolicy)
    (bounds : Option NanosecondInterval) (interval : NanosecondInterval) : Prop :=
  match bounds with
  | some b => b.startNs ≤ interval.startNs ∧ interval.endNs ≤ b.endNs
  | none => int64Min ≤ interval.startNs - policy.paddingNs ∧
      interval.endNs + policy.paddingNs ≤ int64Max

/-- The interval is the hull of the items. -/
structure HullOf (items : List DenseQAWorkItem) (interval : NanosecondInterval) : Prop where
  start : IsLeast {t | ∃ item ∈ items, item.source.interval.startNs = t} interval.startNs
  stop : IsGreatest {t | ∃ item ∈ items, item.source.interval.endNs = t} interval.endNs

theorem HullOf.of_perm {items' : List DenseQAWorkItem} {interval : NanosecondInterval}
    (h : HullOf items interval) (hperm : items.Perm items') : HullOf items' interval := by
  have hmem : ∀ item, item ∈ items ↔ item ∈ items' := fun _ => hperm.mem_iff
  constructor
  · simpa only [hmem] using h.start
  · simpa only [hmem] using h.stop

theorem requestedInterval_completes {sources : List DenseQAWorkItem} (hne : sources ≠ []) :
    ∃ interval, requestedInterval sources = .ok interval ∧ HullOf sources interval := by
  obtain ⟨startNs, hstart⟩ : ∃ t, (sources.map (·.source.interval.startNs)).min? = some t := by
    rw [← Option.isSome_iff_exists]
    simpa using hne
  obtain ⟨endNs, hend⟩ : ∃ t, (sources.map (·.source.interval.endNs)).max? = some t := by
    rw [← Option.isSome_iff_exists]
    simpa using hne
  obtain ⟨hstartMem, hstartLe⟩ := min?_eq_some_iff.mp hstart
  obtain ⟨hendMem, hendGe⟩ := max?_eq_some_iff.mp hend
  obtain ⟨first, hfirst, hfirstStart⟩ := mem_map.mp hstartMem
  obtain ⟨last, hlast, hlastEnd⟩ := mem_map.mp hendMem
  have hlt : startNs < endNs := by
    have h₁ := hendGe _ (mem_map_of_mem hfirst)
    have h₂ := first.source.interval.nonempty
    omega
  obtain ⟨interval, hmake, rfl, rfl⟩ := NanosecondInterval.make?_completes
    (hfirstStart ▸ first.source.interval.lower) (hlastEnd ▸ last.source.interval.upper) hlt
  refine ⟨interval, ?_, ?_, ?_⟩
  · unfold requestedInterval
    simp only [hstart, hend, hmake]
  · refine ⟨⟨first, hfirst, hfirstStart⟩, ?_⟩
    rintro t ⟨item, hitem, rfl⟩
    exact hstartLe _ (mem_map_of_mem hitem)
  · refine ⟨⟨last, hlast, hlastEnd⟩, ?_⟩
    rintro t ⟨item, hitem, rfl⟩
    exact hendGe _ (mem_map_of_mem hitem)

/-- The effective interval is the padded one, cut to the bounds. -/
structure PaddedTo (policy : DenseQAPlanningPolicy) (bounds : Option NanosecondInterval)
    (requested effective : NanosecondInterval) : Prop where
  start : effective.startNs = bounds.elim (requested.startNs - policy.paddingNs)
    fun b => max (requested.startNs - policy.paddingNs) b.startNs
  stop : effective.endNs = bounds.elim (requested.endNs + policy.paddingNs)
    fun b => min (requested.endNs + policy.paddingNs) b.endNs

variable {policy : DenseQAPlanningPolicy} {bounds : Option NanosecondInterval}

theorem effectiveInterval_completes {requested : NanosecondInterval}
    (hfits : policy.Fits bounds requested) :
    ∃ effective truncated, effectiveInterval policy bounds requested = .ok (effective, truncated) ∧
      PaddedTo policy bounds requested effective ∧
      effective.startNs ≤ requested.startNs ∧ requested.endNs ≤ effective.endNs := by
  have hlt := requested.nonempty
  cases bounds with
  | none =>
    obtain ⟨hmin, hmax⟩ := hfits
    obtain ⟨effective, hmake, hstart, hend⟩ :=
      NanosecondInterval.make?_completes hmin hmax (by omega)
    simp only [effectiveInterval, Option.elim_none, hmake]
    exact ⟨effective, _, rfl, ⟨hstart, hend⟩, by omega, by omega⟩
  | some b =>
    obtain ⟨hmin, hmax⟩ := hfits
    have hbounds := b.lower
    have hbounds' := b.upper
    have hlower' : int64Min ≤ max (requested.startNs - policy.paddingNs) b.startNs := by omega
    have hupper' : min (requested.endNs + policy.paddingNs) b.endNs ≤ int64Max := by omega
    obtain ⟨effective, hmake, hstart, hend⟩ :=
      NanosecondInterval.make?_completes hlower' hupper' (by omega)
    simp only [effectiveInterval, Option.elim_some, hmake]
    exact ⟨effective, _, rfl, ⟨hstart, hend⟩, by omega, by omega⟩

variable (policy bounds) in
/-- What a unit is made of and what it covers. -/
structure UnitOf (group : List DenseQAWorkItem) (unit : DenseQAWorkUnit) : Prop where
  sources : unit.sourceItems.Perm group
  requested : HullOf group unit.requestedInterval
  padded : PaddedTo policy bounds unit.requestedInterval unit.effectiveInterval
  within : unit.effectiveInterval.startNs ≤ unit.requestedInterval.startNs ∧
    unit.requestedInterval.endNs ≤ unit.effectiveInterval.endNs
  version : unit.policyVersion = policy.version

theorem makeUnit_completes {H : Hashing} (hhash : H.Rfc8785) {group : List DenseQAWorkItem}
    (hne : group ≠ []) (hnodup : group.Nodup)
    (hexact : ∀ item ∈ group, item.source.packageOrdinal ≤ exactLimit)
    (hfits : ∀ item ∈ group, policy.Fits bounds item.source.interval) :
    ∃ unit, makeUnit H policy bounds group = .ok unit ∧ UnitOf policy bounds group unit := by
  have hsources : (sortedBy (·.sortKey) group).Perm group := sortedBy_perm _ group
  have hne' : sortedBy (·.sortKey) group ≠ [] := by
    intro hnil
    rw [hnil] at hsources
    exact hne hsources.nil_eq.symm
  obtain ⟨requested, hrequested, hhull⟩ := requestedInterval_completes hne'
  have hrequestedFits : policy.Fits bounds requested := by
    obtain ⟨first, hfirst, hfirstStart⟩ := hhull.start.1
    obtain ⟨last, hlast, hlastEnd⟩ := hhull.stop.1
    have h₁ := hfits first (hsources.mem_iff.mp hfirst)
    have h₂ := hfits last (hsources.mem_iff.mp hlast)
    cases bounds with
    | none | some b => exact ⟨hfirstStart ▸ h₁.1, hlastEnd ▸ h₂.2⟩
  obtain ⟨effective, truncated, heffective, hpadded, hwithin⟩ :=
    effectiveInterval_completes hrequestedFits
  -- a unit that is made so passes the checks of its own contract
  have hcanonical : canonical (·.sortKey) (sortedBy (·.sortKey) group) =
      sortedBy (·.sortKey) group := by
    unfold canonical
    rw [(hsources.nodup_iff.mpr hnodup).dedup, sortedBy_sortedBy]
  have hcontained : ∀ item ∈ sortedBy (·.sortKey) group,
      requested.startNs ≤ item.source.interval.startNs ∧
      item.source.interval.endNs ≤ requested.endNs := fun item hitem =>
    ⟨hhull.start.2 ⟨item, hitem, rfl⟩, hhull.stop.2 ⟨item, hitem, rfl⟩⟩
  obtain ⟨digest, hdigest⟩ : ∃ digest, H.digest (.workUnit (unitValues H policy
      (sortedBy (·.sortKey) group) requested effective truncated)) = .ok digest := by
    rw [hhash.digest_iff]
    rintro n hn
    obtain ⟨item, hitem, rfl⟩ := mem_map.mp hn
    exact hexact item (hsources.mem_iff.mp hitem)
  have hvalid : ((unitValues H policy (sortedBy (·.sortKey) group) requested effective
      truncated).identified H digest).validateUnit H = .ok () := by
    unfold DenseQAWorkUnit.validateUnit
    simp only [require_bind_eq_ok]
    refine ⟨hne', rfl, hcanonical.symm, hcontained, hwithin, rfl, rfl, ?_⟩
    exact bind_eq_ok.mpr ⟨digest, hdigest, require_eq_ok.mpr ⟨rfl, rfl⟩⟩
  refine ⟨(unitValues H policy (sortedBy (·.sortKey) group) requested effective
    truncated).identified H digest, ?_, hsources, hhull.of_perm hsources, hpadded, hwithin, rfl⟩
  unfold makeUnit
  simp only [hrequested, heffective, ok_bind, hdigest, hvalid]
  rfl

/-! ## All units -/

/-- A unit's items are linked by gaps that the policy closes. -/
def DenseQAPlanningPolicy.Linked (policy : DenseQAPlanningPolicy) (items : List DenseQAWorkItem) :
    DenseQAWorkItem → DenseQAWorkItem → Prop :=
  Lib.Linked (·.source.interval.startNs) (·.source.interval.endNs)
    (fun groupEnd => groupEnd + policy.mergeGapNs) items

variable (policy bounds) in
/-- The units are the merge groups of the items. -/
structure MergeGroups (items : List DenseQAWorkItem) (units : List DenseQAWorkUnit) : Prop where
  partition : (units.flatMap (·.sourceItems)).Perm items
  nonempty : ∀ unit ∈ units, unit.sourceItems ≠ []
  hull : ∀ unit ∈ units, HullOf unit.sourceItems unit.requestedInterval
  linked : ∀ unit ∈ units, ∀ a ∈ unit.sourceItems, ∀ b ∈ unit.sourceItems,
    policy.Linked unit.sourceItems a b
  apart : units.Pairwise fun (unit later : DenseQAWorkUnit) =>
    unit.requestedInterval.endNs + policy.mergeGapNs < later.requestedInterval.startNs
  padded : ∀ unit ∈ units, PaddedTo policy bounds unit.requestedInterval unit.effectiveInterval
  within : ∀ unit ∈ units, unit.effectiveInterval.startNs ≤ unit.requestedInterval.startNs ∧
    unit.requestedInterval.endNs ≤ unit.effectiveInterval.endNs
  version : ∀ unit ∈ units, unit.policyVersion = policy.version

variable {units : List DenseQAWorkUnit}

theorem mergeGroups_of_groups {groups : List (List DenseQAWorkItem)}
    (hunits : List.Forall₂ (UnitOf policy bounds) groups units) (hne : ∀ g ∈ groups, g ≠ [])
    (hgroups : Separated (·.source.interval.startNs) (·.source.interval.endNs)
      (fun groupEnd => groupEnd + (policy.mergeGapNs : Int)) groups) :
    MergeGroups policy bounds groups.flatten units := by
  induction hunits with
  | nil =>
    constructor <;> simp
  | @cons group unit groups units hunit hall ih =>
    rw [forall_mem_cons] at hne
    obtain ⟨hlinked, hapart⟩ := hgroups
    rw [forall_mem_cons] at hlinked
    rw [pairwise_cons] at hapart
    have hrest := ih hne.2 ⟨hlinked.2, hapart.2⟩
    have hsub : group ⊆ unit.sourceItems := hunit.sources.symm.subset
    constructor
    case partition =>
      exact hunit.sources.append hrest.partition
    case nonempty =>
      rw [forall_mem_cons]
      refine ⟨?_, hrest.nonempty⟩
      intro hnil
      have hperm := hunit.sources
      rw [hnil] at hperm
      exact hne.1 hperm.nil_eq.symm
    case hull =>
      rw [forall_mem_cons]
      exact ⟨hunit.requested.of_perm hunit.sources.symm, hrest.hull⟩
    case linked =>
      rw [forall_mem_cons]
      refine ⟨?_, hrest.linked⟩
      intro a ha b hb
      exact (hlinked.1 a (hunit.sources.mem_iff.mp ha) b (hunit.sources.mem_iff.mp hb)).mono hsub
    case apart =>
      rw [pairwise_cons]
      refine ⟨?_, hrest.apart⟩
      intro later hlater
      -- the two ends belong to an item of this group and to one of a later group
      obtain ⟨last, hlast, hlastEnd⟩ := hunit.requested.stop.1
      obtain ⟨first, hfirst, hfirstStart⟩ := (hrest.hull later hlater).start.1
      have hmem : first ∈ groups.flatten :=
        hrest.partition.mem_iff.mp (mem_flatMap.mpr ⟨later, hlater, hfirst⟩)
      obtain ⟨group', hgroup', hfirst'⟩ := mem_flatten.mp hmem
      rw [← hlastEnd, ← hfirstStart]
      exact hapart.1 group' hgroup' last hlast first hfirst'
    case padded => exact forall_mem_cons.mpr ⟨hunit.padded, hrest.padded⟩
    case within => exact forall_mem_cons.mpr ⟨hunit.within, hrest.within⟩
    case version => exact forall_mem_cons.mpr ⟨hunit.version, hrest.version⟩

theorem MergeGroups.of_perm {items' : List DenseQAWorkItem}
    (h : MergeGroups policy bounds items units) (hperm : items.Perm items') :
    MergeGroups policy bounds items' units :=
  { h with partition := h.partition.trans hperm }

theorem MergeGroups.temporal (h : MergeGroups policy bounds items units) :
    (units.map (·.effectiveInterval.startNs)).Pairwise (· ≤ ·) := by
  rw [pairwise_map]
  refine h.apart.imp_of_mem ?_
  intro unit later hunit hlater hgap
  have hstart : unit.requestedInterval.startNs ≤ later.requestedInterval.startNs := by
    have hproper := unit.requestedInterval.nonempty
    omega
  rw [(h.padded unit hunit).start, (h.padded later hlater).start]
  cases bounds with
  | none =>
    show unit.requestedInterval.startNs - policy.paddingNs ≤
      later.requestedInterval.startNs - policy.paddingNs
    omega
  | some b =>
    show max (unit.requestedInterval.startNs - policy.paddingNs) b.startNs ≤
      max (later.requestedInterval.startNs - policy.paddingNs) b.startNs
    omega

theorem buildUnits_completes {H : Hashing} (hhash : H.Rfc8785) (hnodup : items.Nodup)
    (hexact : ∀ item ∈ items, item.source.packageOrdinal ≤ exactLimit)
    (hfits : ∀ item ∈ items, policy.Fits bounds item.source.interval) :
    ∃ units, buildUnits H policy bounds items = .ok units ∧
      MergeGroups policy bounds items units := by
  have hordered : (sortedBy (·.temporalKey) items).Perm items := sortedBy_perm _ items
  have hsorted : (sortedBy (·.temporalKey) items).Pairwise fun a b =>
      a.source.interval.startNs ≤ b.source.interval.startNs := by
    refine (sortedBy_pairwise (·.temporalKey) items).imp ?_
    intro a b hab
    exact (Prod.Lex.le_iff.mp hab).elim le_of_lt fun h => le_of_eq h.1
  have hbounds : ∀ b ∈ bounds, ∀ item ∈ sortedBy (·.temporalKey) items,
      b.startNs ≤ item.source.interval.startNs ∧ item.source.interval.endNs ≤ b.endNs := by
    intro b hb item hitem
    have hfit := hfits item (hordered.mem_iff.mp hitem)
    rw [Option.mem_def.mp hb] at hfit
    exact hfit
  have hgroups : Separated (fun item : DenseQAWorkItem => item.source.interval.startNs)
      (·.source.interval.endNs)
      (fun groupEnd => groupEnd + (policy.mergeGapNs : Int))
      (gapGroups (·.source.interval.startNs)
        (·.source.interval.endNs) (fun groupEnd => groupEnd + policy.mergeGapNs)
        (sortedBy (·.temporalKey) items)) := by
    apply gapGroups_separated
    · exact fun a b hab => by simpa using hab
    · exact fun x => by simp
    · exact fun item _ => le_of_lt item.source.interval.nonempty
    · exact hsorted
  unfold buildUnits groupItems
  rw [if_pos hbounds]
  have hflatten := gapGroups_flatten (fun item : DenseQAWorkItem => item.source.interval.startNs)
    (·.source.interval.endNs) (fun groupEnd => groupEnd + (policy.mergeGapNs : Int))
    (sortedBy (·.temporalKey) items)
  have hne := gapGroups_ne_nil (fun item : DenseQAWorkItem => item.source.interval.startNs)
    (·.source.interval.endNs) (fun groupEnd => groupEnd + (policy.mergeGapNs : Int))
    (sortedBy (·.temporalKey) items)
  generalize gapGroups (fun item : DenseQAWorkItem => item.source.interval.startNs)
    (·.source.interval.endNs) (fun groupEnd => groupEnd + (policy.mergeGapNs : Int))
    (sortedBy (·.temporalKey) items) = groups at hgroups hflatten hne ⊢
  have hall : ∀ g ∈ groups, ∃ unit, makeUnit H policy bounds g = .ok unit ∧
      UnitOf policy bounds g unit := by
    intro g hg
    have hsublist : g.Sublist (sortedBy (·.temporalKey) items) :=
      hflatten ▸ sublist_flatten_of_mem hg
    apply makeUnit_completes hhash (hne g hg)
    · exact (hordered.nodup_iff.mpr hnodup).sublist hsublist
    · exact fun item hitem => hexact item (hordered.mem_iff.mp (hsublist.subset hitem))
    · exact fun item hitem => hfits item (hordered.mem_iff.mp (hsublist.subset hitem))
  obtain ⟨units, hunits, hforall⟩ := mapM_completes hall
  refine ⟨units, hunits, (mergeGroups_of_groups hforall hne hgroups).of_perm ?_⟩
  rw [hflatten]
  exact hordered

theorem MergeGroups.units_eq_nil (h : MergeGroups policy bounds [] units) : units = [] := by
  cases units with
  | nil => rfl
  | cons unit rest =>
    have hperm := h.partition.eq_nil
    rw [flatMap_cons, append_eq_nil_iff] at hperm
    exact absurd hperm.1 (h.nonempty unit mem_cons_self)

theorem MergeGroups.ordinals_le {values : DenseQAWorkManifestProjection}
    (h : MergeGroups policy bounds values.items values.units)
    (hitems : ∀ item ∈ values.items, item.source.packageOrdinal ≤ exactLimit) :
    ∀ n ∈ values.ordinals, n ≤ exactLimit := by
  intro n hn
  rcases mem_append.mp hn with hn | hn
  · obtain ⟨item, hitem, rfl⟩ := mem_map.mp hn
    exact hitems item hitem
  · obtain ⟨unit, hunit, hn⟩ := mem_flatMap.mp hn
    obtain ⟨item, hitem, rfl⟩ := mem_map.mp hn
    exact hitems item (h.partition.mem_iff.mp (mem_flatMap.mpr ⟨unit, hunit, hitem⟩))

/-! ## The plan -/

theorem resultStatus_eq_ok {statuses : List CameraQAStatus} {status : CoarseQAStatus}
    (h : resultStatus statuses = .ok status) :
    (status = .incomplete ↔ .unknown ∈ statuses) ∧
    (status = .requiresDense ↔ .unknown ∉ statuses ∧ ∃ s ∈ statuses, s.isSuspicious = true) ∧
    (status = .complete ↔ statuses ≠ [] ∧ ∀ s ∈ statuses, s = .good) := by
  have hsuspicious : (∃ s ∈ statuses, s.isSuspicious = true) ↔
      .degraded ∈ statuses ∨ .unusable ∈ statuses := by
    constructor
    · rintro ⟨s, hs, hsus⟩
      cases s <;> simp_all [CameraQAStatus.isSuspicious]
    · rintro (hs | hs)
      · exact ⟨_, hs, rfl⟩
      · exact ⟨_, hs, rfl⟩
  have hgood : (∀ s ∈ statuses, s = .good) →
      .unknown ∉ statuses ∧ ¬ (.degraded ∈ statuses ∨ .unusable ∈ statuses) := by
    intro hall
    refine ⟨fun hs => absurd (hall _ hs) (by decide), ?_⟩
    rintro (hs | hs)
    · cases hall _ hs
    · cases hall _ hs
  rw [hsuspicious]
  unfold resultStatus at h
  by_cases hunknown : CameraQAStatus.unknown ∈ statuses
  · rw [if_pos hunknown] at h
    cases h
    refine ⟨by simp [hunknown], by simp [hunknown], ?_⟩
    simp only [reduceCtorEq, false_iff]
    exact fun hall => (hgood hall.2).1 hunknown
  · rw [if_neg hunknown] at h
    by_cases hdense : CameraQAStatus.degraded ∈ statuses ∨ CameraQAStatus.unusable ∈ statuses
    · rw [if_pos hdense] at h
      cases h
      refine ⟨by simp [hunknown], by simp [hunknown, hdense], ?_⟩
      simp only [reduceCtorEq, false_iff]
      exact fun hall => (hgood hall.2).2 hdense
    · rw [if_neg hdense] at h
      by_cases hall : statuses ≠ [] ∧ ∀ s ∈ statuses, s = .good
      · rw [if_pos hall] at h
        cases h
        exact ⟨by simp [hunknown], by simp [hdense], by simp only [true_iff]; exact hall⟩
      · rw [if_neg hall] at h
        cases h

/-- The manifest of a coarse result with the given coverage. -/
structure Planned (H : Hashing) (policy : DenseQAPlanningPolicy)
    (bounds : Option NanosecondInterval) (coarse : CoarseQAResult)
    (coverage : List CoarseQAObservationRef) (manifest : DenseQAWorkManifest) : Prop where
  outcome : manifest.outcome = (planOutcome coarse.localStatus []).1
  items : manifest.items =
    if coarse.localStatus = .requiresDense then suspiciousItems coverage else []
  units : MergeGroups policy bounds manifest.items manifest.units
  version : manifest.policyVersion = policy.version

theorem suspiciousItems_eq_nil (h : ∀ ref ∈ coverage, ref.localStatus = .good) :
    suspiciousItems coverage = [] := by
  unfold suspiciousItems
  rw [map_eq_nil_iff, filter_eq_nil_iff]
  intro ref href
  rw [h ref href]
  simp [CameraQAStatus.isSuspicious]

theorem suspiciousItems_ne_nil (h : ∃ ref ∈ coverage, ref.localStatus.isSuspicious = true) :
    suspiciousItems coverage ≠ [] := by
  obtain ⟨ref, href, hsuspicious⟩ := h
  exact ne_nil_of_mem (mem_map_of_mem (mem_filter.mpr ⟨href, hsuspicious⟩))

theorem planOutcome_eq {status : CoarseQAStatus}
    (hcomplete : status = .complete → ∀ ref ∈ coverage, ref.localStatus = .good) :
    planOutcome status (suspiciousItems coverage) = ((planOutcome status []).1,
      if status = .requiresDense then suspiciousItems coverage else []) := by
  cases status with
  | complete =>
    rw [suspiciousItems_eq_nil (hcomplete rfl)]
    rfl
  | requiresDense | incomplete => rfl

theorem validateManifest_planned (H : Hashing) {values : DenseQAWorkManifestProjection}
    {digest : Sha256Digest} (hdigest : H.digest (.workManifest values) = .ok digest)
    (h : Planned H policy bounds coarse coverage (values.identified H digest))
    (hsorted : (suspiciousItems coverage).Pairwise fun a b => a.sortKey < b.sortKey)
    (hsuspicious : coarse.localStatus = .requiresDense → suspiciousItems coverage ≠ []) :
    (values.identified H digest).validateManifest H = .ok () := by
  have hitems : values.items.Pairwise fun a b => a.sortKey < b.sortKey := by
    have hitems := h.items
    change values.items = _ at hitems
    rw [hitems]
    split
    · exact hsorted
    · exact .nil
  have houtcome : (values.identified H digest).validateOutcome = .ok () := by
    unfold DenseQAWorkManifest.validateOutcome
    have houtcome := h.outcome
    have hitems' := h.items
    have hunits := h.units
    cases hstatus : coarse.localStatus with
    | requiresDense =>
      rw [hstatus] at houtcome
      rw [if_pos hstatus] at hitems'
      change (values.identified H digest).outcome = .denseRequired at houtcome
      rw [if_pos houtcome]
      simp only [require_bind_eq_ok, require_eq_ok]
      refine ⟨⟨hitems' ▸ hsuspicious hstatus, ?_⟩, sortedBy_eq hunits.partition hitems,
        hunits.temporal, ?_⟩
      · intro hnil
        have hperm := hunits.partition
        rw [hnil] at hperm
        exact hsuspicious hstatus (hitems'.symm.trans hperm.nil_eq.symm)
      · exact fun unit hunit => (hunits.version unit hunit).trans h.version.symm
    | complete | incomplete =>
      rw [hstatus] at houtcome hitems'
      rw [if_neg (by rw [houtcome]; decide), require_eq_ok]
      have hnil : (values.identified H digest).items = [] := hitems'
      exact ⟨hnil, (hnil ▸ hunits).units_eq_nil⟩
  unfold DenseQAWorkManifest.validateManifest
  rw [require_bind_eq_ok, houtcome, ok_bind]
  refine ⟨(canonical_of_pairwise hitems).symm, ?_⟩
  exact bind_eq_ok.mpr ⟨digest, hdigest, require_eq_ok.mpr ⟨rfl, rfl⟩⟩

theorem revalidated_ok {failure : QAError} {x : Except QAError Unit} (h : x = .ok ()) :
    revalidated failure x = .ok () := by
  rw [h]
  rfl

theorem ordinal_le_of_exact (hexact : (SemanticProjection.coarseResult coarse).Exact)
    (hrefs : coarse.packageCameraResults.map (·.ref?) = coverage.map some)
    {ref : CoarseQAObservationRef} (href : ref ∈ coverage) : ref.packageOrdinal ≤ exactLimit := by
  obtain ⟨item, hitem, hsame⟩ := exists_item_of_ref hrefs href
  rw [(ref?_keeps hsame).2.1]
  exact hexact _ (mem_flatMap.mpr ⟨item, hitem, mem_cons_self⟩)

/-- The planner accepts every valid coarse result whose integers have canonical JSON and whose
claims fit into the recording. -/
theorem plan_completes {H : Hashing} (hhash : H.Rfc8785) (hvalid : coarse.Valid)
    (hexact : (SemanticProjection.coarseResult coarse).Exact)
    (hrefs : coarse.packageCameraResults.map (·.ref?) = coverage.map some)
    (hfits : ∀ ref ∈ coverage, policy.Fits bounds ref.interval) :
    ∃ manifest, plan H policy coarse bounds = .ok manifest ∧
      Planned H policy bounds coarse coverage manifest := by
  have hchecked := hvalid.checked
  have hcoordinates : coverage.map (fun ref => (ref.packageOrdinal, ref.cameraId)) =
      canonicalCoordinates coarse.packageIds.length := by
    rw [← hchecked.coordinates]
    exact map_of_refs hrefs fun item ref href => by
      rw [(ref?_keeps href).2.1, (ref?_keeps href).2.2.1]
  have hstatuses : coverage.map (·.localStatus) = coarse.packageCameraResults.map (·.localStatus) :=
    map_of_refs hrefs fun item ref href => (ref?_keeps href).2.2.2.1
  have hstatus := hchecked.status
  rw [← hstatuses] at hstatus
  obtain ⟨-, hdense, hcomplete⟩ := resultStatus_eq_ok hstatus
  have hsorted := suspiciousItems_pairwise hcoordinates
  have houtcome : planOutcome coarse.localStatus (suspiciousItems coverage) = _ :=
    planOutcome_eq fun hc ref href => (hcomplete.mp hc).2 _ (mem_map_of_mem href)
  -- the items that are planned, whatever the status
  have hplanned : ((if coarse.localStatus = .requiresDense then suspiciousItems coverage
      else []) : List DenseQAWorkItem).Sublist (suspiciousItems coverage) := by
    split
    · exact List.Sublist.refl _
    · exact nil_sublist _
  have hitems : ∀ item ∈ (if coarse.localStatus = .requiresDense then suspiciousItems coverage
      else [] : List DenseQAWorkItem), policy.Fits bounds item.source.interval := by
    intro item hitem
    obtain ⟨ref, href, rfl⟩ := mem_map.mp (hplanned.subset hitem)
    exact hfits ref (mem_filter.mp href).1
  have hordinals : ∀ item ∈ (if coarse.localStatus = .requiresDense then suspiciousItems coverage
      else [] : List DenseQAWorkItem), item.source.packageOrdinal ≤ exactLimit := by
    intro item hitem
    obtain ⟨ref, href, rfl⟩ := mem_map.mp (hplanned.subset hitem)
    exact ordinal_le_of_exact hexact hrefs (mem_filter.mp href).1
  obtain ⟨units, hunits, hgroups⟩ :=
    buildUnits_completes hhash ((nodup_of_sortKey hsorted).sublist hplanned) hordinals hitems
  obtain ⟨coarseDigest, hcoarseDigest⟩ := hhash.digest_iff.mpr hexact
  generalize hvalues : DenseQAWorkManifestProjection.mk coarse.mcapId coarseDigest
    (planOutcome coarse.localStatus []).1
    (if coarse.localStatus = .requiresDense then suspiciousItems coverage else []) units
    policy.version = values
  have hunitsOf : MergeGroups policy bounds values.items values.units := hvalues ▸ hgroups
  obtain ⟨digest, hdigest⟩ : ∃ digest, H.digest (.workManifest values) = .ok digest := by
    rw [hhash.digest_iff]
    have hall : ∀ item ∈ values.items, item.source.packageOrdinal ≤ exactLimit :=
      hvalues ▸ hordinals
    exact hunitsOf.ordinals_le hall
  have hresult : Planned H policy bounds coarse coverage (values.identified H digest) := by
    subst hvalues
    exact ⟨rfl, rfl, hgroups, rfl⟩
  refine ⟨_, ?_, hresult⟩
  have hmanifest := validateManifest_planned H hdigest hresult hsorted fun hd => by
    obtain ⟨s, hs, hsus⟩ := (hdense.mp hd).2
    obtain ⟨ref, href, rfl⟩ := mem_map.mp hs
    exact suspiciousItems_ne_nil ⟨ref, href, hsus⟩
  have hcoverage : coarse.packageCameraResults.mapM denseObservationRef = .ok coverage :=
    mapM_observationRefOr hchecked hrefs _
  unfold plan
  rw [revalidated_ok hvalid, ok_bind, hcoverage, ok_bind, mapM_workItem, ok_bind, houtcome]
  simp only [hunits, ok_bind, hcoarseDigest, hvalues, hdigest, hmanifest]
  rfl

end Robata.QaPipeline
