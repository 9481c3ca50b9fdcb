import Robata.RecordingAssociation.AssociationDecisions

/-!
# Clusters

The clusters that `_build_clusters` makes of the trees: one for each component with two and more
inputs, with the hull of their intervals and the lowest confidence of the pairs that merge them.
-/

namespace Robata.RecordingAssociation

open Contracts Lib List

def RecordingAssociationCluster.memberKeys (cluster : RecordingAssociationCluster) :
    List NodeLogicalKey :=
  cluster.sourceActions.map (·.sourceActionLogicalKey)

/-- The starts of the inputs of a cluster. -/
def memberStarts (inputs : List RecordingAssociationInput) (keys : List NodeLogicalKey) :
    Set Int := {t | ∃ input ∈ inputs, input.key ∈ keys ∧ input.interval.startNs = t}

/-- The ends of the inputs of a cluster. -/
def memberEnds (inputs : List RecordingAssociationInput) (keys : List NodeLogicalKey) :
    Set Int := {t | ∃ input ∈ inputs, input.key ∈ keys ∧ input.interval.endNs = t}

/-- The confidences of the merged pairs inside a cluster. -/
def mergedConfidences (decisions : List RecordingAssociationPairDecision)
    (keys : List NodeLogicalKey) : Set ConfidenceMillionths :=
  {c | ∃ decision ∈ decisions, decision.disposition = .merged ∧
    decision.sourceActions.1.sourceActionLogicalKey ∈ keys ∧
    decision.sourceActions.2.sourceActionLogicalKey ∈ keys ∧
    decision.confidenceMillionths = some c}

/-- What a cluster says of its members. -/
structure ClusterOf (inputs : List RecordingAssociationInput)
    (decisions : List RecordingAssociationPairDecision) (cluster : RecordingAssociationCluster) :
    Prop where
  actions : ∀ action ∈ cluster.sourceActions, ∃ input ∈ inputs, input.sourceAction = action
  start : IsLeast (memberStarts inputs cluster.memberKeys) cluster.interval.startNs
  stop : IsGreatest (memberEnds inputs cluster.memberKeys) cluster.interval.endNs
  confidence : IsLeast (mergedConfidences decisions cluster.memberKeys)
    cluster.continuityConfidenceMillionths

variable {inputs : List RecordingAssociationInput}

/-! ## One cluster -/

theorem memberInputs_completes (hnodup : (inputs.map (·.key)).Nodup) {members : List NodeLogicalKey}
    (hmembers : ∀ key ∈ members, key ∈ inputs.map (·.key)) :
    ∃ memberInputs, members.mapM (inputByKey inputs) = .ok memberInputs ∧
      memberInputs.map (·.key) = members ∧
      ∀ input, input ∈ memberInputs ↔ input ∈ inputs ∧ input.key ∈ members := by
  obtain ⟨memberInputs, hrun, hall⟩ : ∃ memberInputs,
      members.mapM (inputByKey inputs) = .ok memberInputs ∧
        List.Forall₂ (fun key input => input ∈ inputs ∧ input.key = key) members memberInputs :=
    mapM_completes fun key hkey => inputByKey_completes (hmembers key hkey)
  have hkeys : memberInputs.map (·.key) = members := by
    rw [← map_id members]
    exact (map_eq_of_forall₂ hall fun key input h => h.2.symm).symm
  refine ⟨memberInputs, hrun, hkeys, ?_⟩
  intro input
  constructor
  · intro hmem
    obtain ⟨key, hkey, hinput, rfl⟩ := exists_left_of_forall₂ hall input hmem
    exact ⟨hinput, hkey⟩
  · rintro ⟨hinput, hkey⟩
    obtain ⟨other, hother, hmem, heq⟩ := exists_right_of_forall₂ hall _ hkey
    rwa [inj_on_of_nodup_map hnodup hinput hmem heq.symm]

theorem hull_completes {memberInputs : List RecordingAssociationInput} (hne : memberInputs ≠ []) :
    ∃ startNs endNs interval, (memberInputs.map (·.interval.startNs)).min? = some startNs ∧
      (memberInputs.map (·.interval.endNs)).max? = some endNs ∧
      NanosecondInterval.make? startNs endNs = some interval ∧
      IsLeast {t | ∃ input ∈ memberInputs, input.interval.startNs = t} interval.startNs ∧
      IsGreatest {t | ∃ input ∈ memberInputs, input.interval.endNs = t} interval.endNs := by
  have hstarts : memberInputs.map (·.interval.startNs) ≠ [] := by simpa using hne
  have hends : memberInputs.map (·.interval.endNs) ≠ [] := by simpa using hne
  obtain ⟨startNs, hmin, hstart, hleast⟩ := min?_completes hstarts
  obtain ⟨endNs, hmax, hend, hgreatest⟩ := max?_completes hends
  obtain ⟨first, hfirst, hfirstStart⟩ := mem_map.mp hstart
  obtain ⟨last, hlast, hlastEnd⟩ := mem_map.mp hend
  have hinside : startNs < endNs := by
    have hnonempty := first.interval.nonempty
    have hle := hgreatest _ (mem_map_of_mem hfirst)
    omega
  obtain ⟨interval, hmake, rfl, rfl⟩ := NanosecondInterval.make?_completes
    (hfirstStart ▸ first.interval.lower) (hlastEnd ▸ last.interval.upper) hinside
  refine ⟨_, _, interval, hmin, hmax, hmake, ⟨⟨first, hfirst, hfirstStart⟩, ?_⟩,
    ⟨⟨last, hlast, hlastEnd⟩, ?_⟩⟩
  · rintro t ⟨input, hinput, rfl⟩
    exact hleast _ (mem_map_of_mem hinput)
  · rintro t ⟨input, hinput, rfl⟩
    exact hgreatest _ (mem_map_of_mem hinput)

variable {decisions : List RecordingAssociationPairDecision}

theorem confidence_completes (hvalid : ∀ decision ∈ decisions, decision.validateDecision = .ok ())
    {members : List NodeLogicalKey}
    (hmerged : ∃ decision ∈ decisions, decision.disposition = .merged ∧
      decision.sourceActions.1.sourceActionLogicalKey ∈ members ∧
      decision.sourceActions.2.sourceActionLogicalKey ∈ members) :
    ∃ confidence,
      ((internalDecisions decisions members).filterMap (·.confidenceMillionths)).min? =
        some confidence ∧ IsLeast (mergedConfidences decisions members) confidence := by
  have hmem : ∀ c, c ∈ (internalDecisions decisions members).filterMap (·.confidenceMillionths) ↔
      c ∈ mergedConfidences decisions members := by
    intro c
    simp only [internalDecisions, mergedConfidences, mem_filterMap, mem_filter,
      decide_eq_true_eq, Set.mem_setOf_eq, and_assoc]
  obtain ⟨decision, hdecision, hdisposition, hfirst, hsecond⟩ := hmerged
  obtain ⟨c, hc⟩ := Option.ne_none_iff_exists'.mp
    ((validateDecision_eq_ok.mp (hvalid decision hdecision)).2.2.2.2.2.2.1 hdisposition)
  have hne : (internalDecisions decisions members).filterMap (·.confidenceMillionths) ≠ [] :=
    ne_nil_of_mem ((hmem c).mpr ⟨decision, hdecision, hdisposition, hfirst, hsecond, hc⟩)
  obtain ⟨confidence, hmin, hleast, hle⟩ := min?_completes hne
  exact ⟨confidence, hmin, (hmem _).mp hleast, fun c hc => hle c ((hmem c).mpr hc)⟩

/-- Members in the order of their keys stand in the order of their source actions. -/
theorem sourceActions_sorted {actions : List AssociationSourceActionRef}
    (h : (actions.map (·.sourceActionLogicalKey)).Pairwise (· < ·)) :
    sortedBy (·.sortKey) actions = actions := by
  rw [pairwise_map] at h
  refine sortedBy_of_pairwise (h.imp ?_)
  intro a b hab
  unfold AssociationSourceActionRef.sortKey
  rw [Prod.Lex.toLex_le_toLex]
  exact .inl hab

theorem validateCluster_eq_ok {cluster : RecordingAssociationCluster} :
    cluster.validateCluster = .ok () ↔
      2 ≤ cluster.sourceActions.length ∧
      cluster.sourceActions = sortedBy (·.sortKey) cluster.sourceActions ∧
      cluster.memberKeys.Nodup ∧
      cluster.labels = canonical (fun label => label) cluster.labels := by
  unfold RecordingAssociationCluster.validateCluster RecordingAssociationCluster.memberKeys
  simp only [require_bind_eq_ok, require_eq_ok]

theorem buildCluster_spec (hnodup : (inputs.map (·.key)).Nodup)
    (hvalid : ∀ decision ∈ decisions, decision.validateDecision = .ok ())
    {memberKeys : List NodeLogicalKey} (hdistinct : memberKeys.Nodup)
    (hlength : 2 ≤ memberKeys.length) (hmembers : ∀ key ∈ memberKeys, key ∈ inputs.map (·.key))
    (hmerged : ∃ decision ∈ decisions, decision.disposition = .merged ∧
      decision.sourceActions.1.sourceActionLogicalKey ∈ memberKeys ∧
      decision.sourceActions.2.sourceActionLogicalKey ∈ memberKeys) :
    ∃ cluster, buildCluster inputs decisions memberKeys = .ok cluster ∧
      cluster.validateCluster = .ok () ∧
      cluster.memberKeys = sortedBy (fun key => key) memberKeys ∧
      ClusterOf inputs decisions cluster := by
  generalize hsorted : sortedBy (fun key => key) memberKeys = members
  have hperm : members.Perm memberKeys := hsorted ▸ sortedBy_perm _ _
  have hstrict : members.Pairwise (· < ·) := by
    have hsame : (memberKeys.map fun key => key).Nodup := by simpa using hdistinct
    rw [← hsorted]
    exact sortedBy_strict hsame
  have hinside : ∀ key ∈ members, key ∈ inputs.map (·.key) := fun key hkey =>
    hmembers key (hperm.mem_iff.mp hkey)
  obtain ⟨memberInputs, hinputs, hkeys, hmemberInputs⟩ := memberInputs_completes hnodup hinside
  have hkeys' : (memberInputs.map (·.sourceAction)).map (·.sourceActionLogicalKey) = members := by
    rw [map_map]
    exact hkeys
  have hlength' : memberInputs.length = memberKeys.length := by
    rw [← hperm.length_eq, ← hkeys, length_map]
  have hne : memberInputs ≠ [] := by
    rintro rfl
    rw [length_nil] at hlength'
    omega
  obtain ⟨startNs, endNs, interval, hmin, hmax, hmake, hstart, hstop⟩ := hull_completes hne
  simp only [← hperm.mem_iff] at hmerged
  obtain ⟨confidence, hconfidence, hleast⟩ := confidence_completes hvalid hmerged
  let cluster : RecordingAssociationCluster := {
    ordinal := 0
    sourceActions := memberInputs.map (·.sourceAction)
    interval := interval
    labels := canonical (fun label => label) (memberInputs.map (·.label))
    continuityConfidenceMillionths := confidence }
  have hclusterKeys : cluster.memberKeys = members := hkeys'
  have hclusterValid : cluster.validateCluster = .ok () := by
    rw [validateCluster_eq_ok]
    refine ⟨?_, ?_, ?_, ?_⟩
    · rw [length_map, hlength']
      exact hlength
    · refine (sourceActions_sorted ?_).symm
      show cluster.memberKeys.Pairwise (· < ·)
      rw [hclusterKeys]
      exact hstrict
    · rw [hclusterKeys, hperm.nodup_iff]
      exact hdistinct
    · exact (canonical_canonical _ _).symm
  refine ⟨cluster, ?_, hclusterValid, hclusterKeys, ?_⟩
  · unfold buildCluster
    rw [hsorted]
    dsimp only
    rw [hinputs, ok_bind, hconfidence, orRaise_some, ok_bind, hmin, orRaise_some, ok_bind, hmax,
      orRaise_some, ok_bind, hmake]
    show (cluster.validateCluster >>= fun _ => Except.ok cluster) = _
    rw [hclusterValid, ok_bind]
  · have hsame : ∀ (view : RecordingAssociationInput → Int),
        {t | ∃ input ∈ inputs, input.key ∈ cluster.memberKeys ∧ view input = t} =
          {t | ∃ input ∈ memberInputs, view input = t} := by
      intro view
      simp only [hmemberInputs, hclusterKeys, and_assoc]
    constructor
    case actions =>
      intro action haction
      obtain ⟨input, hinput, rfl⟩ := mem_map.mp haction
      exact ⟨input, ((hmemberInputs input).mp hinput).1, rfl⟩
    case start =>
      unfold memberStarts
      rw [hsame (·.interval.startNs)]
      exact hstart
    case stop =>
      unfold memberEnds
      rw [hsame (·.interval.endNs)]
      exact hstop
    case confidence =>
      rw [hclusterKeys]
      exact hleast

/-! ## All clusters -/

theorem groupsOf_map (root : NodeLogicalKey → NodeLogicalKey) (keys : List NodeLogicalKey) :
    groupsOf (keys.map root) keys =
      (keys.map root).dedup.map fun r => keys.filter fun key => decide (root key = r) := by
  unfold groupsOf bucketKeys
  dsimp only
  rw [← map_prod_right_eq_zip, map_map]
  congr 1
  funext r
  rw [inBucket_map, map_map]
  exact map_id _

variable (inputs decisions) in
/-- The clusters are the components with two and more inputs. -/
structure ClustersOf (clusters : List RecordingAssociationCluster) : Prop where
  each : ∀ cluster ∈ clusters, ClusterOf inputs decisions cluster
  valid : ∀ cluster ∈ clusters, cluster.validateCluster = .ok ()
  component : ∀ cluster ∈ clusters, ∀ x ∈ cluster.memberKeys, ∀ y, y ∈ cluster.memberKeys ↔
    y ∈ inputs.map (·.key) ∧ Relation.EqvGen (MergedPair decisions) x y
  covers : ∀ x ∈ inputs.map (·.key), ∀ y ∈ inputs.map (·.key), x ≠ y →
    Relation.EqvGen (MergedPair decisions) x y → ∃ cluster ∈ clusters, x ∈ cluster.memberKeys
  separate : (clusters.flatMap (·.memberKeys)).Nodup
  sorted : clusters = sortedBy (·.sortKey) clusters
  ordinals : clusters.map (·.ordinal) = List.range clusters.length

theorem ClusterOf.reordinal
    {cluster : RecordingAssociationCluster} (h : ClusterOf inputs decisions cluster)
    (ordinal : Nat) : ClusterOf inputs decisions { cluster with ordinal := ordinal } :=
  ⟨h.actions, h.start, h.stop, h.confidence⟩

/-- A list without duplicates has two items exactly if it has two different ones. -/
theorem two_le_length_iff {α : Type} [DecidableEq α] {items : List α} (h : items.Nodup) :
    2 ≤ items.length ↔ ∃ x ∈ items, ∃ y ∈ items, x ≠ y := by
  rw [← toFinset_card_of_nodup h]
  show 1 < _ ↔ _
  rw [Finset.one_lt_card]
  simp only [mem_toFinset]

theorem numbered_spec (clusters : List RecordingAssociationCluster) {γ : Type}
    (view : RecordingAssociationCluster → γ)
    (hview : ∀ cluster n, view { cluster with ordinal := n } = view cluster) :
    (clusters.zipIdx.map fun item => { item.1 with ordinal := item.2 }).map view =
      clusters.map view := by
  rw [map_map]
  have hfirst : (view ∘ fun item : RecordingAssociationCluster × Nat =>
      { item.1 with ordinal := item.2 }) = view ∘ Prod.fst := by
    funext item
    exact hview _ _
  rw [hfirst, ← map_map, zipIdx_map_fst]

section Components

variable {decisions : List RecordingAssociationPairDecision} {root : NodeLogicalKey → NodeLogicalKey}

/-- The keys of one root among the inputs. -/
def rootGroup (inputs : List RecordingAssociationInput) (root : NodeLogicalKey → NodeLogicalKey)
    (r : NodeLogicalKey) : List NodeLogicalKey :=
  (inputs.map (·.key)).filter fun key => decide (root key = r)

theorem mem_rootGroup {r key : NodeLogicalKey} :
    key ∈ rootGroup inputs root r ↔ key ∈ inputs.map (·.key) ∧ root key = r := by
  unfold rootGroup
  rw [mem_filter, decide_eq_true_eq]

variable (hdecisions : List.Forall₂ DecisionOf (pairs inputs) decisions)
include hdecisions

/-- Two inputs in one tree are there because a pair inside the tree is merged. -/
theorem exists_merged (hclasses : DisjointSet.Classes root (MergedPair decisions))
    (hnodup : (inputs.map (·.key)).Nodup)
    {r : NodeLogicalKey} (hlength : 2 ≤ (rootGroup inputs root r).length) :
    ∃ decision ∈ decisions, decision.disposition = .merged ∧
      decision.sourceActions.1.sourceActionLogicalKey ∈ rootGroup inputs root r ∧
      decision.sourceActions.2.sourceActionLogicalKey ∈ rootGroup inputs root r := by
  obtain ⟨x, hx, y, hy, hne⟩ := (two_le_length_iff (hnodup.filter _)).mp hlength
  have hxroot := (mem_rootGroup.mp hx).2
  have hsame : root x = root y := hxroot.trans (mem_rootGroup.mp hy).2.symm
  have hends : ∀ decision ∈ decisions,
      decision.sourceActions.1.sourceActionLogicalKey ∈ inputs.map (·.key) ∧
        decision.sourceActions.2.sourceActionLogicalKey ∈ inputs.map (·.key) := by
    intro decision hdecision
    obtain ⟨p, hp, hof⟩ := exists_left_of_forall₂ hdecisions decision hdecision
    have hleft := mem_map_of_mem (f := (·.key)) (mem_pairs hp).1
    have hright := mem_map_of_mem (f := (·.key)) (mem_pairs hp).2
    rw [hof.sourceActions]
    rcases orderedSourceActionPair_cases p.1.sourceAction p.2.sourceAction with heq | heq
    · rw [heq]
      exact ⟨hleft, hright⟩
    · rw [heq]
      exact ⟨hright, hleft⟩
  obtain ⟨z, hz⟩ := DisjointSet.exists_linked ((hclasses x y).mp hsame) hne
  rcases hz with ⟨decision, hdecision, hmerged, hfirst, hsecond⟩ |
      ⟨decision, hdecision, hmerged, hfirst, hsecond⟩
  all_goals
    have hlinked := (hclasses _ _).mpr (.rel _ _ ⟨decision, hdecision, hmerged, rfl, rfl⟩)
    refine ⟨decision, hdecision, hmerged, mem_rootGroup.mpr ⟨(hends decision hdecision).1, ?_⟩,
      mem_rootGroup.mpr ⟨(hends decision hdecision).2, ?_⟩⟩
  · rw [hfirst, hxroot]
  · rw [← hlinked, hfirst, hxroot]
  · rw [hlinked, hsecond, hxroot]
  · rw [hsecond, hxroot]

theorem buildClusters_spec (hnodup : (inputs.map (·.key)).Nodup) {d : DisjointSet String}
    (hforest : DisjointSet.Forest (inputs.map (·.key)).toFinset d root)
    (hclasses : DisjointSet.Classes root (MergedPair decisions)) :
    ∃ clusters, buildClusters inputs decisions d = .ok clusters ∧
      ClustersOf inputs decisions clusters := by
  have hcard : (inputs.map (·.key)).toFinset.card = inputs.length := by
    rw [toFinset_card_of_nodup hnodup, length_map]
  have hvalid : ∀ decision ∈ decisions, decision.validateDecision = .ok () := by
    intro decision hdecision
    obtain ⟨p, -, hof⟩ := exists_left_of_forall₂ hdecisions decision hdecision
    exact hof.valid
  have hinside : ∀ key ∈ inputs.map (·.key), key ∈ (inputs.map (·.key)).toFinset := fun _ hkey =>
    mem_toFinset.mpr hkey
  obtain ⟨d', hroots⟩ := hforest.findAll_spec hinside
  rw [hcard] at hroots
  let groups := (((inputs.map (·.key)).map root).dedup.map (rootGroup inputs root)).filter
    fun memberKeys => decide (2 ≤ memberKeys.length)
  have hgroup : ∀ g ∈ groups, ∃ r, g = rootGroup inputs root r ∧ 2 ≤ g.length := by
    intro g hg
    obtain ⟨hg, hlength⟩ := mem_filter.mp hg
    obtain ⟨r, -, rfl⟩ := mem_map.mp hg
    exact ⟨r, rfl, of_decide_eq_true hlength⟩
  obtain ⟨unsorted, hbuild, hall⟩ : ∃ unsorted,
      groups.mapM (buildCluster inputs decisions) = .ok unsorted ∧
        List.Forall₂ (fun g cluster => cluster.validateCluster = .ok () ∧
          cluster.memberKeys = sortedBy (fun key => key) g ∧ ClusterOf inputs decisions cluster)
          groups unsorted := by
    apply mapM_completes
    intro g hg
    obtain ⟨r, rfl, hlength⟩ := hgroup g hg
    exact buildCluster_spec hnodup hvalid (hnodup.filter _) hlength
      (fun key hkey => (mem_rootGroup.mp hkey).1) (exists_merged hdecisions hclasses hnodup hlength)
  generalize hsorted : sortedBy (·.sortKey) unsorted = sorted
  have hperm : sorted.Perm unsorted := hsorted ▸ sortedBy_perm _ _
  generalize hnumbered : (sorted.zipIdx.map fun item : RecordingAssociationCluster × Nat =>
    { item.1 with ordinal := item.2 }) = clusters
  have hview : ∀ {γ : Type} (view : RecordingAssociationCluster → γ),
      (∀ cluster n, view { cluster with ordinal := n } = view cluster) →
        clusters.map view = sorted.map view := by
    intro γ view h
    rw [← hnumbered]
    exact numbered_spec sorted view h
  -- every cluster is one that was built, with another ordinal
  have hmem : ∀ cluster ∈ clusters, ∃ built ∈ unsorted, ∃ n,
      cluster = { built with ordinal := n } := by
    intro cluster hcluster
    rw [← hnumbered] at hcluster
    obtain ⟨item, hitem, rfl⟩ := mem_map.mp hcluster
    exact ⟨item.1, hperm.mem_iff.mp (fst_mem_of_mem_zipIdx hitem), item.2, rfl⟩
  have hkeys : ∀ cluster ∈ clusters, ∃ r, ∀ key,
      key ∈ cluster.memberKeys ↔ key ∈ inputs.map (·.key) ∧ root key = r := by
    intro cluster hcluster
    obtain ⟨built, hbuilt, n, rfl⟩ := hmem cluster hcluster
    obtain ⟨g, hg, -, hmembers, -⟩ := exists_left_of_forall₂ hall built hbuilt
    obtain ⟨r, rfl, -⟩ := hgroup g hg
    refine ⟨r, fun key => ?_⟩
    show key ∈ built.memberKeys ↔ _
    rw [hmembers, mem_sortedBy, mem_rootGroup]
  refine ⟨clusters, ?_, ?_⟩
  · unfold buildClusters
    dsimp only
    rw [hroots, orRaise_some, ok_bind]
    rw [groupsOf_map]
    show (groups.mapM _ >>= _) = _
    rw [hbuild, ok_bind, hsorted, hnumbered]
    rfl
  · constructor
    case each =>
      intro cluster hcluster
      obtain ⟨built, hbuilt, n, rfl⟩ := hmem cluster hcluster
      obtain ⟨g, -, -, -, hof⟩ := exists_left_of_forall₂ hall built hbuilt
      exact hof.reordinal n
    case valid =>
      intro cluster hcluster
      obtain ⟨built, hbuilt, n, rfl⟩ := hmem cluster hcluster
      obtain ⟨g, -, hbuiltValid, -, -⟩ := exists_left_of_forall₂ hall built hbuilt
      exact hbuiltValid
    case component =>
      intro cluster hcluster x hx y
      obtain ⟨r, hr⟩ := hkeys cluster hcluster
      rw [hr y, ← hclasses x y, ((hr x).mp hx).2, eq_comm]
    case covers =>
      intro x hx y hy hne hlinked
      have hroot : root x = root y := (hclasses x y).mpr hlinked
      have hgroups : rootGroup inputs root (root x) ∈ groups := by
        refine mem_filter.mpr ⟨mem_map_of_mem ?_, decide_eq_true ?_⟩
        · exact mem_dedup.mpr (mem_map_of_mem hx)
        · exact (two_le_length_iff (hnodup.filter _)).mpr
            ⟨x, mem_rootGroup.mpr ⟨hx, rfl⟩, y, mem_rootGroup.mpr ⟨hy, hroot.symm⟩, hne⟩
      obtain ⟨built, hbuilt, -, hmembers, -⟩ := exists_right_of_forall₂ hall _ hgroups
      have hsortedKeys : built.memberKeys ∈ clusters.map (·.memberKeys) := by
        rw [hview (·.memberKeys) fun _ _ => rfl]
        exact mem_map_of_mem (hperm.mem_iff.mpr hbuilt)
      obtain ⟨cluster, hcluster, heq⟩ := mem_map.mp hsortedKeys
      refine ⟨cluster, hcluster, ?_⟩
      rw [heq, hmembers, mem_sortedBy]
      exact mem_rootGroup.mpr ⟨hx, rfl⟩
    case separate =>
      rw [flatMap_def, hview (·.memberKeys) fun _ _ => rfl, ((hperm.map _).flatten).nodup_iff,
        ← map_eq_of_forall₂ hall fun g built h => h.2.1.symm, ← flatMap_def,
        nodup_flatMap]
      constructor
      · intro g hg
        obtain ⟨r, rfl, -⟩ := hgroup g hg
        exact (sortedBy_perm _ _).nodup_iff.mpr (hnodup.filter _)
      · refine List.Pairwise.filter _ (pairwise_map.mpr ?_)
        refine (nodup_dedup ((inputs.map (·.key)).map root)).imp ?_
        intro r r' hne key hkey hkey'
        rw [mem_sortedBy] at hkey hkey'
        exact hne ((mem_rootGroup.mp hkey).2.symm.trans (mem_rootGroup.mp hkey').2)
    case sorted =>
      have hpairwise : (clusters.map (·.sortKey)).Pairwise (· ≤ ·) := by
        rw [hview (·.sortKey) fun _ _ => rfl, pairwise_map, ← hsorted]
        exact sortedBy_pairwise _ _
      exact (sortedBy_of_pairwise (pairwise_map.mp hpairwise)).symm
    case ordinals =>
      rw [← hnumbered, map_map, length_map, length_zipIdx, range_eq_range']
      exact zipIdx_map_snd 0 sorted

end Components

end Robata.RecordingAssociation
