import Robata.Lib.Aligned
import Robata.RecordingAssociation.AssociationPairs

/-!
# Final decisions

From the classified pairs to the final decisions and the components: a tie takes an edge away, the
limit on the size of a component never does, and the trees of the disjoint set are the classes of
the inputs under the pairs that stay MERGED.
-/

namespace Robata.RecordingAssociation

open Contracts Lib List

/-! ## Pairs of a list -/

theorem sublist_of_mem_pairs {α : Type} {items : List α} {p : α × α} (h : p ∈ pairs items) :
    [p.1, p.2] <+ items := by
  induction items with
  | nil => exact absurd h not_mem_nil
  | cons item rest ih =>
    rcases mem_append.mp h with hfirst | hrest
    · obtain ⟨other, hother, rfl⟩ := mem_map.mp hfirst
      exact (singleton_sublist.mpr hother).cons_cons item
    · exact (ih hrest).cons item

theorem mem_pairs {α : Type} {items : List α} {p : α × α} (h : p ∈ pairs items) :
    p.1 ∈ items ∧ p.2 ∈ items := by
  simpa using (sublist_of_mem_pairs h).subset

theorem pairs_complete {α κ : Type} (key : α → κ) {items : List α} {a b : α} (ha : a ∈ items)
    (hb : b ∈ items) (hne : key a ≠ key b) : (a, b) ∈ pairs items ∨ (b, a) ∈ pairs items := by
  induction items with
  | nil => exact absurd ha not_mem_nil
  | cons item rest ih =>
    unfold pairs
    simp only [mem_append, mem_map, Prod.mk.injEq]
    rcases mem_cons.mp ha with rfl | harest
    · rcases mem_cons.mp hb with rfl | hbrest
      · exact absurd rfl hne
      · exact .inl (.inl ⟨b, hbrest, rfl, rfl⟩)
    · rcases mem_cons.mp hb with rfl | hbrest
      · exact .inr (.inl ⟨a, harest, rfl, rfl⟩)
      · rcases ih harest hbrest with h | h
        · exact .inl (.inr h)
        · exact .inr (.inr h)

theorem ne_of_mem_pairs {α κ : Type} {key : α → κ} {items : List α} (hnodup : (items.map key).Nodup)
    {p : α × α} (h : p ∈ pairs items) : key p.1 ≠ key p.2 := by
  simpa using hnodup.sublist ((sublist_of_mem_pairs h).map key)

def inputPairKey (p : RecordingAssociationInput × RecordingAssociationInput) :
    String ×ₗ String := pairKey p.1.sourceAction p.2.sourceAction

theorem inputPairKeys_nodup {inputs : List RecordingAssociationInput}
    (hnodup : (inputs.map (·.key)).Nodup) : ((pairs inputs).map inputPairKey).Nodup := by
  induction inputs with
  | nil => exact nodup_nil
  | cons input rest ih =>
    rw [map_cons, nodup_cons] at hnodup
    have hfresh : ∀ item ∈ rest, input.key ≠ item.key := by
      intro item hitem heq
      exact hnodup.1 (heq ▸ mem_map_of_mem hitem)
    unfold pairs
    rw [map_append, map_map, nodup_append]
    refine ⟨?_, ih hnodup.2, ?_⟩
    · refine (nodup_map_iff_inj_on (List.Nodup.of_map _ hnodup.2)).mpr ?_
      intro a ha b hb hab
      have hkey : a.key = b.key := by
        rcases pairKey_eq_iff.mp hab with ⟨-, h⟩ | ⟨h, -⟩
        · exact h
        · exact absurd h (hfresh b hb)
      exact inj_on_of_nodup_map hnodup.2 ha hb hkey
    · intro k hk k' hk' heq
      obtain ⟨item, hitem, rfl⟩ := mem_map.mp hk
      obtain ⟨p, hp, rfl⟩ := mem_map.mp hk'
      rcases pairKey_eq_iff.mp heq with ⟨h, -⟩ | ⟨h, -⟩
      · exact hfresh p.1 (mem_pairs hp).1 h
      · exact hfresh p.2 (mem_pairs hp).2 h

/-! ## Ties -/

variable {inputs : List RecordingAssociationInput}

theorem inputByKey_completes {key : NodeLogicalKey} (h : key ∈ inputs.map (·.key)) :
    ∃ input, inputByKey inputs key = .ok input ∧ input ∈ inputs ∧ input.key = key := by
  obtain ⟨item, hitem, hkey⟩ := mem_map.mp h
  have hsome : (inputs.find? fun item => decide (item.key = key)).isSome = true := by
    rw [find?_isSome]
    exact ⟨item, hitem, decide_eq_true hkey⟩
  obtain ⟨input, hinput⟩ := Option.isSome_iff_exists.mp hsome
  refine ⟨input, ?_, mem_of_find?_eq_some hinput, ?_⟩
  · unfold inputByKey
    rw [hinput, orRaise_some]
  · have hfound := find?_some hinput
    exact of_decide_eq_true hfound

variable (inputs) in
/-- The ends of an edge are inputs. -/
def CandidateEdge.Between (edge : CandidateEdge) : Prop :=
  edge.left.sourceActionLogicalKey ∈ inputs.map (·.key) ∧
    edge.right.sourceActionLogicalKey ∈ inputs.map (·.key)

theorem ambiguousBridgePairs_completes {edges : List CandidateEdge}
    (hedges : ∀ edge ∈ edges, edge.Between inputs) :
    ∃ ambiguous, ambiguousBridgePairs inputs edges = .ok ambiguous ∧
      ∀ edge ∈ edges, 1 < edge.bridgeEvidence.length → edge.key ∈ ambiguous := by
  obtain ⟨perSide, hrun, -⟩ :
      ∃ perSide, edges.mapM (choicesOf inputs) = .ok perSide ∧
        List.Forall₂ (fun _ _ => True) edges perSide := by
    apply mapM_completes
    intro edge hedge
    unfold choicesOf
    by_cases hnone : edge.bridgeEvidence = []
    · rw [if_pos hnone]
      exact ⟨_, rfl, trivial⟩
    · obtain ⟨leftInput, hleft, -⟩ := inputByKey_completes (hedges edge hedge).1
      obtain ⟨rightInput, hright, -⟩ := inputByKey_completes (hedges edge hedge).2
      rw [if_neg hnone, hleft, hright]
      exact ⟨_, rfl, trivial⟩
  unfold ambiguousBridgePairs
  rw [hrun]
  refine ⟨_, rfl, ?_⟩
  intro edge hedge htied
  apply mem_append_left
  exact mem_map_of_mem (mem_filter.mpr ⟨hedge, decide_eq_true htied⟩)

/-- What a final decision says of a pair of inputs. -/
structure Decides (ambiguous : List (String ×ₗ String))
    (p : RecordingAssociationInput × RecordingAssociationInput) (edge : Option CandidateEdge)
    (decision : RecordingAssociationPairDecision) : Prop where
  sourceActions : decision.sourceActions = orderedSourceActionPair p.1.sourceAction p.2.sourceAction
  gap : decision.temporalGapNs = temporalGap p.1.interval p.2.interval
  valid : decision.validateDecision = .ok ()
  reasons : .maxClusterMembersExceeded ∉ decision.reasonCodes
  merged : decision.disposition = .merged ↔ ∃ e ∈ edge, e.key ∉ ambiguous

theorem resolveAmbiguous_spec {ambiguous : List (String ×ₗ String)}
    {p : RecordingAssociationInput × RecordingAssociationInput} {classified : Classified}
    (hclassified : Classifies p.1 p.2 classified)
    (htied : ∀ edge ∈ classified.edge, 1 < edge.bridgeEvidence.length → edge.key ∈ ambiguous) :
    ∃ decision, resolveAmbiguous ambiguous classified = .ok decision ∧
      Decides ambiguous p classified.edge decision := by
  unfold resolveAmbiguous
  cases hedge : classified.edge with
  | none =>
    refine ⟨_, rfl, hclassified.sourceActions, hclassified.gap, hclassified.valid,
      hclassified.reasons, ?_⟩
    rw [hclassified.splits hedge]
    simp
  | some edge =>
    obtain ⟨hsound, hleft, hright, hgap, hdecision⟩ := hclassified.edges edge hedge
    dsimp only
    by_cases hambiguous : edge.key ∈ ambiguous
    · rw [if_pos hambiguous, construct_eq_ok.mpr ⟨hsound.ambiguous_valid, rfl⟩]
      refine ⟨_, rfl, ?_, hgap, hsound.ambiguous_valid, ?_, ?_⟩
      · show orderedSourceActionPair edge.left edge.right = _
        rw [hleft, hright]
      · show _ ∉ [AssociationReasonCode.ambiguousTiedBridgeSupport]
        decide
      · show AssociationPairDisposition.ambiguous = .merged ↔ _
        simp [hambiguous]
    · rw [if_neg hambiguous]
      refine ⟨_, rfl, hclassified.sourceActions, hclassified.gap, hclassified.valid,
        hclassified.reasons, ?_⟩
      have hsingle : ¬ 1 < edge.bridgeEvidence.length :=
        fun h => hambiguous (htied edge hedge h)
      rw [hdecision]
      unfold bridgedDecision
      rw [if_neg hsingle]
      show AssociationPairDisposition.merged = .merged ↔ _
      simp [hambiguous]

/-! ## Components -/

open DisjointSet in
/-- The size of the component that an edge would make is at most the number of keys. -/
theorem joinedSize_spec {keys : Finset String} {d : DisjointSet String} {root : String → String}
    (h : Forest keys d root) {edge : CandidateEdge}
    (hleft : edge.left.sourceActionLogicalKey ∈ keys)
    (hright : edge.right.sourceActionLogicalKey ∈ keys) :
    ∃ size d', joinedSize keys.card d edge = some (size, d') ∧ size ≤ keys.card ∧
      Forest keys d' root := by
  obtain ⟨d₁, hsize₁, hsame₁, hforest₁⟩ := h.componentSize_spec hleft
  obtain ⟨d₂, hfind₂, hsame₂, hforest₂⟩ := hforest₁.find_spec hleft
  obtain ⟨d₃, hfind₃, hsame₃, hforest₃⟩ := hforest₂.find_spec hright
  unfold joinedSize
  simp only [hsize₁, hfind₂, hfind₃, Option.bind_eq_bind, Option.bind_some]
  by_cases hroots : root edge.left.sourceActionLogicalKey = root edge.right.sourceActionLogicalKey
  · rw [if_neg (not_not.mpr hroots)]
    exact ⟨_, d₃, rfl, h.size_le hleft, hforest₃⟩
  · obtain ⟨d₄, hsize₄, -, hforest₄⟩ := hforest₃.componentSize_spec hright
    rw [if_pos hroots, hsize₄]
    refine ⟨_, d₄, rfl, ?_, hforest₄⟩
    rw [hsame₃, hsame₂, hsame₁]
    exact h.sizes_add_le hleft hright hroots

/-- The logical keys of the ends of an edge. -/
def CandidateEdge.Links (edge : CandidateEdge) (x y : NodeLogicalKey) : Prop :=
  x = edge.left.sourceActionLogicalKey ∧ y = edge.right.sourceActionLogicalKey

open DisjointSet in
/-- A round of the loop joins the ends of its edge: the limit does not keep them apart. -/
theorem joinEdge_spec {keys : Finset String} {maxInputs : Nat} (hlimit : keys.card ≤ maxInputs)
    {d : DisjointSet String} {root : String → String} (h : Forest keys d root)
    {edge : CandidateEdge} (hleft : edge.left.sourceActionLogicalKey ∈ keys)
    (hright : edge.right.sourceActionLogicalKey ∈ keys)
    (decisions : List RecordingAssociationPairDecision) :
    ∃ d' root', joinEdge keys.card maxInputs (decisions, d) edge = .ok (decisions, d') ∧
      Forest keys d' root' ∧ Forest.Joined root root' edge.left.sourceActionLogicalKey
        edge.right.sourceActionLogicalKey := by
  obtain ⟨size, d₁, hsize, hle, hforest₁⟩ := joinedSize_spec h hleft hright
  obtain ⟨d₂, root', hunion, hforest₂, hjoined⟩ := hforest₁.union_spec hleft hright
  refine ⟨d₂, root', ?_, hforest₂, hjoined⟩
  unfold joinEdge
  dsimp only
  rw [hsize, orRaise_some, ok_bind]
  dsimp only
  rw [if_neg (by omega), hunion, orRaise_some, ok_bind]
  rfl

open DisjointSet in
theorem joinEdges_spec {keys : Finset String} {maxInputs : Nat} (hlimit : keys.card ≤ maxInputs)
    {edges : List CandidateEdge}
    (hedges : ∀ edge ∈ edges, edge.left.sourceActionLogicalKey ∈ keys ∧
      edge.right.sourceActionLogicalKey ∈ keys)
    (decisions : List RecordingAssociationPairDecision) :
    ∃ d root, edges.foldlM (joinEdge keys.card maxInputs) (decisions, start) = .ok (decisions, d) ∧
      Forest keys d root ∧ Classes root fun x y => ∃ edge ∈ edges, edge.Links x y := by
  -- the classes of the edges that have been joined so far
  let P : List CandidateEdge →
      List RecordingAssociationPairDecision × DisjointSet String → Prop := fun rest state =>
    state.1 = decisions ∧ ∃ joined root, edges = joined ++ rest ∧ Forest keys state.2 root ∧
      Classes root fun x y => ∃ edge ∈ joined, edge.Links x y
  have hstep : ∀ edge rest state, P (edge :: rest) state →
      ∃ state', joinEdge keys.card maxInputs state edge = .ok state' ∧ P rest state' := by
    rintro edge rest ⟨ds, d⟩ ⟨rfl, joined, root, hsplit, hforest, hclasses⟩
    have hmem : edge ∈ edges := by
      rw [hsplit]
      exact mem_append_right _ mem_cons_self
    obtain ⟨d', root', hrun, hforest', hjoined⟩ := joinEdge_spec hlimit hforest
      (hedges edge hmem).1 (hedges edge hmem).2 ds
    refine ⟨_, hrun, rfl, joined ++ [edge], root', by simp [hsplit], hforest', ?_⟩
    have hnext := hclasses.join hjoined
    refine hnext.congr ?_ ?_
    · rintro x y (⟨e, he, hlinks⟩ | hlast)
      · exact .rel _ _ ⟨e, mem_append_left _ he, hlinks⟩
      · exact .rel _ _ ⟨edge, mem_append_right _ (mem_singleton_self _), hlast⟩
    · rintro x y ⟨e, he, hlinks⟩
      rcases mem_append.mp he with he | he
      · exact .rel _ _ (.inl ⟨e, he, hlinks⟩)
      · cases mem_singleton.mp he
        exact .rel _ _ (.inr hlinks)
  have hstart : P edges (decisions, start) := by
    refine ⟨rfl, [], id, rfl, forest_start keys, ?_⟩
    refine classes_start.congr ?_ ?_
    · exact fun _ _ h => h.elim
    · rintro x y ⟨_, he, _⟩
      exact absurd he not_mem_nil
  obtain ⟨⟨ds, d⟩, hrun, rfl, joined, root, hall, hforest, hclasses⟩ :=
    foldlM_completes P hstep edges _ hstart
  rw [append_nil] at hall
  subst hall
  exact ⟨d, root, hrun, hforest, hclasses⟩

/-! ## The decisions of a report -/

/-- A decision merges the pair of two logical keys. -/
def MergedPair (decisions : List RecordingAssociationPairDecision) (x y : NodeLogicalKey) : Prop :=
  ∃ decision ∈ decisions, decision.disposition = .merged ∧
    decision.sourceActions.1.sourceActionLogicalKey = x ∧
    decision.sourceActions.2.sourceActionLogicalKey = y

/-- What a final decision says of its pair, whatever becomes of it. -/
structure DecisionOf (p : RecordingAssociationInput × RecordingAssociationInput)
    (decision : RecordingAssociationPairDecision) : Prop where
  sourceActions : decision.sourceActions = orderedSourceActionPair p.1.sourceAction p.2.sourceAction
  gap : decision.temporalGapNs = temporalGap p.1.interval p.2.interval
  valid : decision.validateDecision = .ok ()
  reasons : .maxClusterMembersExceeded ∉ decision.reasonCodes

theorem DecisionOf.key_eq {p : RecordingAssociationInput × RecordingAssociationInput}
    {decision : RecordingAssociationPairDecision} (h : DecisionOf p decision) :
    decision.key = inputPairKey p := by
  unfold RecordingAssociationPairDecision.key
  rw [h.sourceActions]
  exact pairKey_ordered _ _

theorem merged_linked {decisions : List RecordingAssociationPairDecision}
    {decision : RecordingAssociationPairDecision} (hmem : decision ∈ decisions)
    (hmerged : decision.disposition = .merged) {left right : AssociationSourceActionRef}
    (hactions : decision.sourceActions = orderedSourceActionPair left right) :
    Relation.EqvGen (MergedPair decisions) left.sourceActionLogicalKey
      right.sourceActionLogicalKey := by
  have hlinked : Relation.EqvGen (MergedPair decisions)
      decision.sourceActions.1.sourceActionLogicalKey
      decision.sourceActions.2.sourceActionLogicalKey :=
    .rel _ _ ⟨decision, hmem, hmerged, rfl, rfl⟩
  rw [hactions] at hlinked
  rcases orderedSourceActionPair_cases left right with heq | heq
  · rwa [heq] at hlinked
  · rw [heq] at hlinked
    exact .symm _ _ hlinked

open DisjointSet in
/-- Every pair gets one decision, and the trees are the classes of the pairs that are merged. -/
theorem decidePairs_spec {policy : RecordingAssociationPolicy}
    (hlimit : inputs.length ≤ policy.maxInputs) (hnodup : (inputs.map (·.key)).Nodup)
    {bridges : List RecordingAssociationBridgeEvidence}
    (hbridges : ∀ bridge ∈ bridges, bridge.modelValidate = .ok ())
    (hbridgeKeys : (bridges.map (·.acceptedBridgeEvidenceLogicalKey)).Nodup) :
    ∃ decisions d root, decidePairs policy inputs bridges = .ok (decisions, d) ∧
      List.Forall₂ DecisionOf (pairs inputs) decisions ∧
      Forest (inputs.map (·.key)).toFinset d root ∧ Classes root (MergedPair decisions) := by
  have hcard : (inputs.map (·.key)).toFinset.card = inputs.length := by
    rw [toFinset_card_of_nodup hnodup, length_map]
  obtain ⟨classified, hclassify, hclassified⟩ : ∃ classified,
      (pairs inputs).mapM (classify policy bridges) = .ok classified ∧
        List.Forall₂ (fun p c => classify policy bridges p = .ok c ∧ Classifies p.1 p.2 c)
          (pairs inputs) classified := by
    apply mapM_completes
    intro p hp
    have hne : p.1.sourceAction ≠ p.2.sourceAction := by
      intro heq
      apply ne_of_mem_pairs hnodup hp
      unfold RecordingAssociationInput.key
      rw [heq]
    obtain ⟨c, hrun, hc⟩ := classifyPair_spec hne policy (bridgesOfPair_pairwise bridges _)
      (bridgesOfPair_sorted hbridges hbridgeKeys _)
    exact ⟨c, hrun, hrun, hc⟩
  have hbetween : ∀ edge ∈ classified.filterMap (·.edge), edge.Between inputs := by
    intro edge hedge
    obtain ⟨c, hmem, hcedge⟩ := mem_filterMap.mp hedge
    obtain ⟨p, hp, -, hc⟩ := exists_left_of_forall₂ hclassified c hmem
    obtain ⟨-, hleft, hright, -⟩ := hc.edges edge hcedge
    unfold CandidateEdge.Between
    rw [hleft, hright]
    exact ⟨mem_map_of_mem (mem_pairs hp).1, mem_map_of_mem (mem_pairs hp).2⟩
  obtain ⟨ambiguous, hambiguous, htied⟩ := ambiguousBridgePairs_completes hbetween
  have hresolves : ∀ p c, c ∈ classified → Classifies p.1 p.2 c →
      ∃ decision, resolveAmbiguous ambiguous c = .ok decision ∧
        Decides ambiguous p c.edge decision := by
    intro p c hmem hc
    apply resolveAmbiguous_spec hc
    exact fun edge hedge => htied edge (mem_filterMap.mpr ⟨c, hmem, hedge⟩)
  obtain ⟨decisions, hresolve, -⟩ : ∃ decisions,
      classified.mapM (resolveAmbiguous ambiguous) = .ok decisions ∧
        List.Forall₂ (fun _ _ => True) classified decisions := by
    apply mapM_completes
    intro c hmem
    obtain ⟨p, -, -, hc⟩ := exists_left_of_forall₂ hclassified c hmem
    obtain ⟨decision, hrun, -⟩ := hresolves p c hmem hc
    exact ⟨decision, hrun, trivial⟩
  -- each pair, what it was classified as, and its decision
  have hall : List.Forall₂ (fun p decision => ∃ c, c ∈ classified ∧
      classify policy bridges p = .ok c ∧ Classifies p.1 p.2 c ∧
        Decides ambiguous p c.edge decision) (pairs inputs) decisions := by
    refine (forall₂_comp (forall₂_with_mem hclassified) (mapM_forall₂ hresolve)).imp ?_
    rintro p decision ⟨c, ⟨⟨hrun, hc⟩, -, hmem⟩, hresolved⟩
    obtain ⟨decision', hrun', hdecides⟩ := hresolves p c hmem hc
    rw [hresolved] at hrun'
    cases hrun'
    exact ⟨c, hmem, hrun, hc, hdecides⟩
  have haccepted : ∀ edge, edge ∈ sortedBy (·.sortKey) ((classified.filterMap (·.edge)).filter
      fun edge => decide (edge.key ∉ ambiguous)) ↔
        (∃ c ∈ classified, c.edge = some edge) ∧ edge.key ∉ ambiguous := by
    intro edge
    rw [mem_sortedBy, mem_filter, mem_filterMap, decide_eq_true_eq]
  have hends : ∀ edge ∈ sortedBy (·.sortKey) ((classified.filterMap (·.edge)).filter
      fun edge => decide (edge.key ∉ ambiguous)),
        edge.left.sourceActionLogicalKey ∈ (inputs.map (·.key)).toFinset ∧
          edge.right.sourceActionLogicalKey ∈ (inputs.map (·.key)).toFinset := by
    intro edge hedge
    obtain ⟨⟨c, hmem, hcedge⟩, -⟩ := (haccepted edge).mp hedge
    have h := hbetween edge (mem_filterMap.mpr ⟨c, hmem, hcedge⟩)
    exact ⟨mem_toFinset.mpr h.1, mem_toFinset.mpr h.2⟩
  have hlimit' : (inputs.map (·.key)).toFinset.card ≤ policy.maxInputs := by
    rw [hcard]
    exact hlimit
  obtain ⟨d, root, hjoin, hforest, hclasses⟩ := joinEdges_spec hlimit' hends decisions
  refine ⟨decisions, d, root, ?_, ?_, hforest, hclasses.congr ?_ ?_⟩
  · unfold decidePairs
    rw [hclassify, ok_bind]
    dsimp only
    rw [hambiguous, ok_bind, hresolve, ok_bind, ← hcard]
    exact hjoin
  · refine hall.imp ?_
    rintro p decision ⟨c, -, -, -, hdecides⟩
    exact ⟨hdecides.sourceActions, hdecides.gap, hdecides.valid, hdecides.reasons⟩
  · rintro x y ⟨edge, hedge, rfl, rfl⟩
    obtain ⟨⟨c, hmem, hcedge⟩, hkey⟩ := (haccepted edge).mp hedge
    obtain ⟨p, hp, hrun, hc⟩ := exists_left_of_forall₂ hclassified c hmem
    obtain ⟨decision, hdecision, c', -, hrun', -, hdecides⟩ :=
      exists_right_of_forall₂ hall p hp
    rw [hrun] at hrun'
    cases hrun'
    obtain ⟨-, hleft, hright, -⟩ := hc.edges edge hcedge
    have hmerged := hdecides.merged.mpr ⟨edge, hcedge, hkey⟩
    rw [hleft, hright]
    exact merged_linked hdecision hmerged hdecides.sourceActions
  · rintro x y ⟨decision, hdecision, hmerged, rfl, rfl⟩
    obtain ⟨p, -, c, hmem, -, hc, hdecides⟩ := exists_left_of_forall₂ hall decision hdecision
    obtain ⟨edge, hcedge, hkey⟩ := hdecides.merged.mp hmerged
    obtain ⟨-, hleft, hright, -⟩ := hc.edges edge hcedge
    have hlinks : Relation.EqvGen (fun x y => ∃ edge ∈ sortedBy (·.sortKey)
        ((classified.filterMap (·.edge)).filter fun edge => decide (edge.key ∉ ambiguous)),
          edge.Links x y) edge.left.sourceActionLogicalKey edge.right.sourceActionLogicalKey :=
      .rel _ _ ⟨edge, (haccepted edge).mpr ⟨⟨c, hmem, hcedge⟩, hkey⟩, rfl, rfl⟩
    rw [hdecides.sourceActions, ← hleft, ← hright]
    rcases orderedSourceActionPair_cases edge.left edge.right with heq | heq
    · rw [heq]
      exact hlinks
    · rw [heq]
      exact .symm _ _ hlinks

end Robata.RecordingAssociation
