import Robata.Lib.Transaction
import Robata.Upcasting.UpcasterGraph

/-!
# Cycles and ambiguous paths

The depth-first search finishes a node when every walk from it ends, and raises where a walk
returns.  The breadth-first search expands every node that a source reaches once, so that a count
above one is a vertex that is entered twice, or comes from one.
-/

namespace Robata.Upcasting

open Lib List

/-- The graph of the registrations. -/
def edgeGraph (registrations : List UpcasterCatalogEntry) :
    Multigraph SchemaRef UpcasterCatalogEntry :=
  ⟨registrations, (·.source), (·.target)⟩

variable {registrations : List UpcasterCatalogEntry}

theorem mem_outgoing {node : SchemaRef} {edge : UpcasterCatalogEntry} :
    edge ∈ outgoing registrations node ↔ edge ∈ registrations ∧ edge.source = node := by
  unfold outgoing
  rw [mem_sortedBy, mem_inBucket]

theorem mem_sortedNodes {ref : SchemaRef} : ref ∈ sortedNodes registrations ↔
    ∃ edge ∈ registrations, ref = edge.source ∨ ref = edge.target := by
  unfold sortedNodes canonical
  simp

/-! ## Cycles -/

section Cycles

variable {state state' : Dict SchemaRef Nat} {nodes : List SchemaRef} {node : SchemaRef}

/-- A state of the depth-first search: from a finished node every walk ends. -/
structure Marked (registrations : List UpcasterCatalogEntry) (state : Dict SchemaRef Nat) :
    Prop where
  marks : ∀ v m, state.get? v = some m → m = 1 ∨ m = 2
  finished : ∀ v, state.get? v = some 2 → Acc (edgeGraph registrations).Follows v

/-- The nodes that are newly marked are finished. -/
def Extends (state state' : Dict SchemaRef Nat) : Prop :=
  ∀ v, state'.get? v = state.get? v ∨ state.get? v = none ∧ state'.get? v = some 2

theorem Extends.refl (state : Dict SchemaRef Nat) : Extends state state := fun _ => .inl rfl

theorem Extends.finished (h : Extends state state') (hnode : state.get? node = some 2) :
    state'.get? node = some 2 := by
  rcases h node with heq | ⟨hnone, _⟩
  · exact heq.trans hnode
  · cases hnone.symm.trans hnode

theorem Extends.trans {state'' : Dict SchemaRef Nat} (h : Extends state state')
    (h' : Extends state' state'') : Extends state state'' := fun v => by
  rcases h v with heq | ⟨hnone, hfinished⟩
  · exact heq ▸ h' v
  · exact .inr ⟨hnone, h'.finished hfinished⟩

/-- The marker of a node under which it is being visited stays as it was. -/
theorem Extends.open_of_open (h : Extends state state') (hnode : state'.get? node = some 1) :
    state.get? node = some 1 := by
  rcases h node with heq | ⟨_, hfinished⟩
  · exact heq.symm.trans hnode
  · cases hfinished.symm.trans hnode

def unmarked (nodes : List SchemaRef) (state : Dict SchemaRef Nat) : Nat :=
  (nodes.filter fun v => (state.get? v).isNone).length

theorem Extends.unmarked_le (h : Extends state state') :
    unmarked nodes state' ≤ unmarked nodes state := by
  refine (monotone_filter_right nodes fun v hv => ?_).length_le
  rcases h v with heq | ⟨hnone, _⟩
  · rw [← heq]
    exact hv
  · rw [hnone]
    rfl

theorem unmarked_set_lt (hmem : node ∈ nodes) (hnone : state.get? node = none) :
    unmarked nodes (state.set node 1) < unmarked nodes state := by
  have hsub : (nodes.filter fun v => ((state.set node 1).get? v).isNone) <+
      nodes.filter fun v => (state.get? v).isNone := by
    refine monotone_filter_right nodes fun v hv => ?_
    rw [Dict.get?_set] at hv
    split at hv
    · cases hv
    · exact hv
  refine lt_of_le_of_ne hsub.length_le fun heq => ?_
  have hnode : node ∈ nodes.filter fun v => ((state.set node 1).get? v).isNone := by
    rw [hsub.eq_of_length heq, mem_filter, hnone]
    exact ⟨hmem, rfl⟩
  rw [mem_filter, Dict.get?_set_self] at hnode
  cases hnode.2

/-- What a visit ends with: a cycle, or a state in which some nodes are finished. -/
def Outcome (registrations : List UpcasterCatalogEntry) (state : Dict SchemaRef Nat)
    (visited : List SchemaRef) : Except UpcastError (Dict SchemaRef Nat) → Prop
  | .error e => (edgeGraph registrations).Cyclic ∧ ∃ ref, e = .cycle ref
  | .ok state' => Marked registrations state' ∧ Extends state state' ∧
      ∀ v ∈ visited, state'.get? v = some 2

theorem Outcome.foldlM {P : Dict SchemaRef Nat → Prop}
    {f : Dict SchemaRef Nat → SchemaRef → Except UpcastError (Dict SchemaRef Nat)}
    (hkeep : ∀ s s', P s → Extends s s' → P s')
    (h : ∀ v ∈ nodes, ∀ s, Marked registrations s → P s → Outcome registrations s [v] (f s v))
    (hmarked : Marked registrations state) (hstate : P state) :
    Outcome registrations state nodes (nodes.foldlM f state) := by
  induction nodes generalizing state with
  | nil => exact ⟨hmarked, .refl _, fun v hv => absurd hv not_mem_nil⟩
  | cons v nodes ih =>
    obtain ⟨hfirst, hrest⟩ := forall_mem_cons.mp h
    have hv := hfirst state hmarked hstate
    rw [foldlM_cons]
    cases hvisit : f state v with
    | error e =>
      rw [hvisit] at hv
      exact hv
    | ok mid =>
      rw [hvisit] at hv
      obtain ⟨hmarked, hextends, hfinished⟩ := hv
      have hlater := ih hrest hmarked (hkeep _ _ hstate hextends)
      rw [ok_bind]
      cases hfold : nodes.foldlM f mid with
      | error e =>
        rw [hfold] at hlater
        exact hlater
      | ok last =>
        rw [hfold] at hlater
        obtain ⟨hmarked', hextends', hfinished'⟩ := hlater
        refine ⟨hmarked', hextends.trans hextends', forall_mem_cons.mpr ⟨?_, hfinished'⟩⟩
        exact hextends'.finished (hfinished v mem_cons_self)

/-- A node is finished when the targets of its edges are. -/
theorem Marked.finish (h : Marked registrations state)
    (htargets : ∀ edge ∈ outgoing registrations node, state.get? edge.target = some 2) :
    Marked registrations (state.set node 2) := by
  have hnode : Acc (edgeGraph registrations).Follows node := by
    refine .intro _ fun b hb => ?_
    obtain ⟨edge, hedge, hsource, rfl⟩ := hb
    exact h.finished _ (htargets edge (mem_outgoing.mpr ⟨hedge, hsource⟩))
  refine ⟨fun v m hget => ?_, fun v hget => ?_⟩
  · rw [Dict.get?_set] at hget
    split at hget
    · exact .inr (Option.some.inj hget).symm
    · exact h.marks v m hget
  · rw [Dict.get?_set] at hget
    split at hget
    · rename_i hv
      exact hv ▸ hnode
    · exact h.finished v hget

theorem Marked.begin (h : Marked registrations state) :
    Marked registrations (state.set node 1) := by
  refine ⟨fun v m hget => ?_, fun v hget => ?_⟩
  · rw [Dict.get?_set] at hget
    split at hget
    · exact .inl (Option.some.inj hget).symm
    · exact h.marks v m hget
  · rw [Dict.get?_set] at hget
    split at hget
    · cases hget
    · exact h.finished v hget

/-- A visit, when a walk leads to the node from each node that is being visited. -/
def VisitsWithin (registrations : List UpcasterCatalogEntry) (nodes : List SchemaRef)
    (bound : Nat) : Prop :=
  ∀ state, ∀ node ∈ nodes, unmarked nodes state < bound → Marked registrations state →
    (∀ v, state.get? v = some 1 →
      ∃ walk, walk ≠ [] ∧ (edgeGraph registrations).IsWalk v node walk) →
    Outcome registrations state [node] (visit registrations bound state node)

/-- While the edges of a node are followed, a walk leads to the node from each open node. -/
structure Descends (registrations : List UpcasterCatalogEntry) (nodes : List SchemaRef)
    (bound : Nat) (node : SchemaRef) (state : Dict SchemaRef Nat) : Prop where
  unmarked_lt : unmarked nodes state < bound
  reaches : ∀ v, state.get? v = some 1 → (edgeGraph registrations).Reaches v node

theorem VisitsWithin.children {bound : Nat} (h : VisitsWithin registrations nodes bound)
    (hnodes : ∀ edge ∈ registrations, edge.target ∈ nodes) (hmarked : Marked registrations state)
    (hdescends : Descends registrations nodes bound node state) :
    Outcome registrations state ((outgoing registrations node).map (·.target))
      (((outgoing registrations node).map (·.target)).foldlM
        (visit registrations bound) state) := by
  refine Outcome.foldlM (fun s s' hs hextends => ⟨hextends.unmarked_le.trans_lt hs.unmarked_lt,
    fun v hv => hs.reaches v (hextends.open_of_open hv)⟩) (forall_mem_map.mpr ?_) hmarked hdescends
  intro edge hedge s hs hdescends
  obtain ⟨hmem, hsource⟩ := mem_outgoing.mp hedge
  refine h s edge.target (hnodes edge hmem) hdescends.unmarked_lt hs fun v hv => ?_
  obtain ⟨walk, hwalk⟩ := hdescends.reaches v hv
  refine ⟨walk ++ [edge], append_ne_nil_of_right_ne_nil _ (cons_ne_nil _ _), ?_⟩
  rw [← hsource] at hwalk
  exact Multigraph.isWalk_concat.mpr ⟨hwalk, hmem, rfl⟩

theorem visit_spec (hnodes : ∀ edge ∈ registrations, edge.target ∈ nodes) (bound : Nat) :
    VisitsWithin registrations nodes bound := by
  induction bound with
  | zero => exact fun _ _ _ hlt => absurd hlt (Nat.not_lt_zero _)
  | succ bound ih =>
    intro state node hnode hlt hmarked hopen
    unfold visit
    dsimp only
    cases hget : state.get? node with
    | some m =>
      rcases hmarked.marks node m hget with rfl | rfl
      · -- the node is open: the walk that led here returns to it
        obtain ⟨walk, hne, hwalk⟩ := hopen node hget
        exact ⟨⟨node, walk, hne, hwalk⟩, node, rfl⟩
      · exact ⟨hmarked, .refl _, forall_mem_singleton.mpr hget⟩
    | none =>
      rw [if_neg (by simp), if_neg (by simp)]
      -- marking the node takes one round off the bound, and opens no node but itself
      have hdescends : Descends registrations nodes bound node (state.set node 1) := by
        refine ⟨(unmarked_set_lt hnode hget).trans_le (Nat.le_of_lt_succ hlt), fun v hv => ?_⟩
        by_cases hself : v = node
        · exact hself ▸ .refl _
        · rw [Dict.get?_set_of_ne _ _ hself] at hv
          obtain ⟨walk, _, hwalk⟩ := hopen v hv
          exact ⟨walk, hwalk⟩
      have hchildren := ih.children hnodes hmarked.begin hdescends
      rw [foldlM_map] at hchildren
      cases hfold : (outgoing registrations node).foldlM
          (fun state edge => visit registrations bound state edge.target) (state.set node 1) with
      | error e =>
        rw [hfold] at hchildren
        exact hchildren
      | ok last =>
        rw [hfold] at hchildren
        obtain ⟨hlast, hextends, hfinished⟩ := hchildren
        refine ⟨hlast.finish (forall_mem_map.mp hfinished), fun v => ?_,
          forall_mem_singleton.mpr (Dict.get?_set_self _ _ _)⟩
        rw [Dict.get?_set]
        split
        · rename_i hv
          exact .inr ⟨hv ▸ hget, rfl⟩
        · rename_i hv
          have hkept := hextends v
          rw [Dict.get?_set_of_ne _ _ hv] at hkept
          exact hkept

/-- The search raises exactly where there is a cycle. -/
theorem rejectCycles_spec : ((edgeGraph registrations).Cyclic ∧
      ∃ ref, rejectCycles registrations = .error (.cycle ref)) ∨
    ¬ (edgeGraph registrations).Cyclic ∧ rejectCycles registrations = .ok () := by
  have hnodes : ∀ edge ∈ registrations, edge.target ∈ sortedNodes registrations :=
    fun edge hedge => mem_sortedNodes.mpr ⟨edge, hedge, .inr rfl⟩
  have hempty : Marked registrations KeyedTable.empty := by
    refine ⟨fun v m hget => ?_, fun v hget => ?_⟩ <;> cases hget
  have hsearch := Outcome.foldlM (P := fun s => ∀ v, s.get? v ≠ some 1)
    (f := visit registrations ((sortedNodes registrations).length + 1))
    (fun s s' hs hextends v hv => hs v (hextends.open_of_open hv))
    (fun node hnode s hs hopen => visit_spec hnodes _ s node hnode
      (Nat.lt_succ_of_le (length_filter_le _ _)) hs fun v hv => absurd hv (hopen v))
    hempty (fun v hv => by cases hv)
  unfold rejectCycles
  dsimp only
  cases hfold : (sortedNodes registrations).foldlM
      (visit registrations ((sortedNodes registrations).length + 1)) KeyedTable.empty with
  | error e =>
    rw [hfold] at hsearch
    obtain ⟨hcyclic, ref, rfl⟩ := hsearch
    exact .inl ⟨hcyclic, ref, rfl⟩
  | ok state =>
    rw [hfold] at hsearch
    obtain ⟨hmarked, _, hfinished⟩ := hsearch
    refine .inr ⟨Multigraph.not_cyclic_of_acc fun edge hedge => ?_, rfl⟩
    exact hmarked.finished _ (hfinished _ (mem_sortedNodes.mpr ⟨edge, hedge, .inl rfl⟩))

end Cycles

/-! ## Ambiguous paths -/

section Counts

variable {source node : SchemaRef} {counts : Dict SchemaRef Nat}
  {queue found done : List SchemaRef} {seen edges : List UpcasterCatalogEntry}
  {edge : UpcasterCatalogEntry}

/-- The counts when some nodes have been found and some edges seen. -/
structure Counted (registrations : List UpcasterCatalogEntry) (source : SchemaRef)
    (counts : Dict SchemaRef Nat) (found : List SchemaRef) (seen : List UpcasterCatalogEntry) :
    Prop where
  source_mem : source ∈ found
  nodup : found.Nodup
  found_iff : ∀ v, v ∈ found ↔ ∃ n, counts.get? v = some n
  positive : ∀ v n, counts.get? v = some n → 0 < n
  reached : ∀ v ∈ found, (edgeGraph registrations).Reaches source v
  entered : ∀ v ∈ found, v = source ∨ ∃ e ∈ seen, e.target = v
  seen_mem : ∀ e ∈ seen, e ∈ registrations ∧ e.source ∈ found ∧ e.target ∈ found
  sound : ∀ v n, counts.get? v = some n → 1 < n → (edgeGraph registrations).Forks source
  complete : ∀ e ∈ seen, e.target = source ∨ (∃ e' ∈ seen, e' ≠ e ∧ e'.target = e.target) →
    ∃ n, counts.get? e.target = some n ∧ 1 < n

/-- The nodes that an edge adds to the queue. -/
def newNodes (counts : Dict SchemaRef Nat) (edge : UpcasterCatalogEntry) : List SchemaRef :=
  if (counts.get? edge.target).getD 0 = 0 then [edge.target] else []

theorem countEdge_queue :
    (countEdge node (counts, queue) edge).2 = queue ++ newNodes counts edge := by
  unfold countEdge newNodes
  dsimp only
  split
  · rfl
  · exact (append_nil queue).symm

/-- A second edge into a node that has been found makes walks fork. -/
theorem Counted.forks (h : Counted registrations source counts found seen)
    (hedge : edge ∈ registrations) (hsource : edge.source ∈ found) (hfresh : edge ∉ seen)
    (htarget : edge.target ∈ found) : (edgeGraph registrations).Forks source := by
  refine Multigraph.forks_iff.mpr ⟨edge, hedge, h.reached _ hsource, ?_⟩
  rcases h.entered _ htarget with hself | ⟨e, he, heq⟩
  · exact .inl hself
  · obtain ⟨hmem, hfound, -⟩ := h.seen_mem e he
    exact .inr ⟨e, hmem, h.reached _ hfound, fun hsame => hfresh (hsame ▸ he), heq⟩

/-- An edge is seen, and the count of its target is more than one when it had been found. -/
theorem Counted.set (h : Counted registrations source counts found seen)
    (hedge : edge ∈ registrations) (hsource : edge.source ∈ found) {n : Nat} (hpos : 0 < n)
    (hsound : 1 < n → (edgeGraph registrations).Forks source)
    (hagain : edge.target ∈ found → 1 < n) {new : List SchemaRef}
    (hnew : new = if edge.target ∈ found then [] else [edge.target]) :
    Counted registrations source (counts.set edge.target n) (found ++ new) (seen ++ [edge]) := by
  have hmem : ∀ v, v ∈ found ++ new ↔ v ∈ found ∨ v = edge.target := fun v => by
    rw [hnew]
    split
    · rename_i hfound
      rw [append_nil]
      exact (or_iff_left_of_imp fun heq => heq ▸ hfound).symm
    · rw [mem_append, mem_singleton]
  have hseen : ∀ e, e ∈ seen ++ [edge] ↔ e ∈ seen ∨ e = edge := fun e => by
    rw [mem_append, mem_singleton]
  constructor
  case source_mem => exact (hmem _).mpr (.inl h.source_mem)
  case nodup =>
    rw [hnew]
    split
    · rw [append_nil]
      exact h.nodup
    · rename_i hfound
      exact h.nodup.append (nodup_singleton _) (disjoint_singleton.mpr hfound)
  case found_iff =>
    intro v
    rw [hmem, Dict.get?_set]
    split
    · rename_i hv
      exact iff_of_true (.inr hv) ⟨n, rfl⟩
    · rename_i hv
      rw [or_iff_left hv, h.found_iff]
  case positive =>
    intro v m hget
    rw [Dict.get?_set] at hget
    split at hget
    · exact Option.some.inj hget ▸ hpos
    · exact h.positive v m hget
  case reached =>
    intro v hv
    rcases (hmem v).mp hv with hv | rfl
    · exact h.reached v hv
    · exact (h.reached _ hsource).step hedge
  case entered =>
    intro v hv
    rcases (hmem v).mp hv with hv | rfl
    · exact (h.entered v hv).imp_right (Exists.imp fun e he => ⟨(hseen e).mpr (.inl he.1), he.2⟩)
    · exact .inr ⟨edge, (hseen edge).mpr (.inr rfl), rfl⟩
  case seen_mem =>
    intro e he
    rcases (hseen e).mp he with he | rfl
    · obtain ⟨hmem', hs, ht⟩ := h.seen_mem e he
      exact ⟨hmem', (hmem _).mpr (.inl hs), (hmem _).mpr (.inl ht)⟩
    · exact ⟨hedge, (hmem _).mpr (.inl hsource), (hmem _).mpr (.inr rfl)⟩
  case sound =>
    intro v m hget hlt
    rw [Dict.get?_set] at hget
    split at hget
    · exact hsound (Option.some.inj hget ▸ hlt)
    · exact h.sound v m hget hlt
  case complete =>
    intro e he hagain'
    by_cases htarget : e.target = edge.target
    · -- the target had been found before its last edge was seen
      have hfound : edge.target ∈ found := by
        rcases (hseen e).mp he with he | rfl
        · exact htarget ▸ (h.seen_mem e he).2.2
        · rcases hagain' with hself | ⟨e', he', hne, heq⟩
          · exact hself ▸ h.source_mem
          · have he' := ((hseen e').mp he').resolve_right hne
            exact heq ▸ (h.seen_mem e' he').2.2
      exact ⟨n, htarget ▸ Dict.get?_set_self _ _ _, hagain hfound⟩
    · have hold : ∀ e', e' ∈ seen ++ [edge] → e'.target = e.target → e' ∈ seen :=
        fun e' he' heq => ((hseen e').mp he').resolve_right fun hlast =>
          htarget (heq.symm.trans (hlast ▸ rfl))
      obtain ⟨m, hm, hlt⟩ := h.complete e (hold e he rfl)
        (hagain'.imp_right (Exists.imp fun e' he' => ⟨hold e' he'.1 he'.2.2, he'.2⟩))
      exact ⟨m, (Dict.get?_set_of_ne _ _ htarget).trans hm, hlt⟩

theorem Counted.step (queue : List SchemaRef) (h : Counted registrations source counts found seen)
    (hedge : edge ∈ registrations) (hnode : edge.source = node) (hfound : node ∈ found)
    (hfresh : edge ∉ seen) :
    Counted registrations source (countEdge node (counts, queue) edge).1
      (found ++ newNodes counts edge) (seen ++ [edge]) := by
  have hsource : edge.source ∈ found := hnode ▸ hfound
  obtain ⟨m, hm⟩ := (h.found_iff node).mp hfound
  have hpos := h.positive _ _ hm
  unfold countEdge newNodes
  dsimp only
  rw [hm, Option.getD_some]
  by_cases htarget : edge.target ∈ found
  · obtain ⟨n, hn⟩ := (h.found_iff _).mp htarget
    have hn' := h.positive _ _ hn
    have hforks := h.forks hedge hsource hfresh htarget
    rw [hn, Option.getD_some]
    -- both counts are positive, so that the count of the target passes one here
    exact h.set hedge hsource (by omega) (fun _ => hforks) (fun _ => by omega)
      ((if_neg hn'.ne').trans (if_pos htarget).symm)
  · have hnone : counts.get? edge.target = none :=
      Option.eq_none_iff_forall_ne_some.mpr fun n hn => htarget ((h.found_iff _).mpr ⟨n, hn⟩)
    rw [hnone, Option.getD_none]
    -- a first edge hands on the count of its source
    exact h.set hedge hsource (by omega) (fun hlt => h.sound _ _ hm (by omega))
      (fun hfound => absurd hfound htarget) ((if_pos rfl).trans (if_neg htarget).symm)

theorem Counted.fold (queue : List SchemaRef) (h : Counted registrations source counts found seen)
    (hfound : node ∈ found) (hedges : ∀ e ∈ edges, e ∈ registrations ∧ e.source = node)
    (hnodup : edges.Nodup) (hfresh : ∀ e ∈ edges, e ∉ seen) :
    ∃ counts' new, edges.foldl (countEdge node) (counts, queue) = (counts', queue ++ new) ∧
      Counted registrations source counts' (found ++ new) (seen ++ edges) := by
  induction edges generalizing counts found seen queue with
  | nil => exact ⟨counts, [], by rw [append_nil]; rfl, by rwa [append_nil, append_nil]⟩
  | cons e edges ih =>
    obtain ⟨⟨he, hsource⟩, hedges⟩ := forall_mem_cons.mp hedges
    obtain ⟨hlater, hnodup⟩ := nodup_cons.mp hnodup
    obtain ⟨hfirst, hfresh⟩ := forall_mem_cons.mp hfresh
    obtain ⟨counts', new, hfold, hcounted⟩ := ih (queue ++ newNodes counts e)
      (h.step queue he hsource hfound hfirst) (mem_append_left _ hfound) hedges hnodup
      fun e' he' hseen => by
        rcases mem_append.mp hseen with hseen | hseen
        · exact hfresh e' he' hseen
        · exact hlater (mem_singleton.mp hseen ▸ he')
    refine ⟨counts', newNodes counts e ++ new, ?_, ?_⟩
    · have hpair : countEdge node (counts, queue) e =
          ((countEdge node (counts, queue) e).1, queue ++ newNodes counts e) :=
        Prod.ext rfl countEdge_queue
      rw [foldl_cons, hpair, hfold, append_assoc]
    · rw [append_assoc, append_assoc] at hcounted
      exact hcounted

theorem Counted.length_le (h : Counted registrations source counts found seen) :
    found.length ≤ registrations.length + 1 := by
  have hsub : found ⊆ source :: registrations.map (·.target) := fun v hv => by
    rcases h.entered v hv with rfl | ⟨e, he, rfl⟩
    · exact mem_cons_self
    · exact mem_cons_of_mem _ (mem_map_of_mem (h.seen_mem e he).1)
  have hlength := (subperm_of_subset h.nodup hsub).length_le
  rwa [length_cons, length_map] at hlength

theorem nodup_outgoing (h : registrations.Nodup) : (outgoing registrations node).Nodup :=
  (sortedBy_perm _ _).nodup_iff.mpr (h.filter _)

/-- When the queue is empty the edges of every node that was found have been seen. -/
theorem pathCounts_spec (hnodup : registrations.Nodup) {bound : Nat} :
    ∀ {counts : Dict SchemaRef Nat} {done queue : List SchemaRef},
      Counted registrations source counts (done ++ queue) (done.flatMap (outgoing registrations)) →
      registrations.length + 1 ≤ done.length + bound →
      ∃ found, Counted registrations source (pathCounts registrations bound counts queue) found
        (found.flatMap (outgoing registrations)) := by
  induction bound with
  | zero =>
    intro counts done queue h hbound
    have hlength := h.length_le
    rw [length_append] at hlength
    -- the nodes found are distinct, so that the queue ends within the bound
    obtain rfl : queue = [] := length_eq_zero_iff.mp (by omega)
    rw [append_nil] at h
    exact ⟨done, h⟩
  | succ bound ih =>
    intro counts done queue h hbound
    cases queue with
    | nil =>
      rw [append_nil] at h
      exact ⟨done, h⟩
    | cons node queue =>
      have hfresh : node ∉ done := fun hmem =>
        disjoint_of_nodup_append h.nodup hmem mem_cons_self
      obtain ⟨counts', new, hfold, hcounted⟩ := h.fold queue
        (mem_append_right _ mem_cons_self) (fun e he => mem_outgoing.mp he)
        (nodup_outgoing hnodup) fun e he hseen => by
          obtain ⟨v, hv, hev⟩ := mem_flatMap.mp hseen
          exact hfresh ((mem_outgoing.mp he).2 ▸ (mem_outgoing.mp hev).2 ▸ hv)
      have hrest : Counted registrations source counts' ((done ++ [node]) ++ (queue ++ new))
          ((done ++ [node]).flatMap (outgoing registrations)) := by
        simpa using hcounted
      obtain ⟨found, hfound⟩ := ih hrest (by rw [length_append, length_singleton]; omega)
      refine ⟨found, ?_⟩
      unfold pathCounts
      rw [hfold]
      exact hfound

theorem counted_initial (source : SchemaRef) :
    Counted registrations source (Dict.set KeyedTable.empty source 1) [source] [] := by
  have hget : ∀ v n, (Dict.set KeyedTable.empty source 1).get? v = some n ↔ v = source ∧ n = 1 := by
    intro v n
    rw [Dict.get?_set]
    split
    · rename_i hv
      rw [Option.some_inj, and_iff_right hv, eq_comm]
    · rename_i hv
      exact iff_of_false (by rintro ⟨⟩) fun h => hv h.1
  refine ⟨mem_cons_self, nodup_singleton _, fun v => ?_, fun v n h => ?_, ?_, ?_, ?_, ?_, ?_⟩
  · rw [mem_singleton]
    exact ⟨fun h => ⟨1, (hget v 1).mpr ⟨h, rfl⟩⟩, fun h => ((hget v _).mp h.choose_spec).1⟩
  · exact ((hget v n).mp h).2 ▸ Nat.one_pos
  · exact forall_mem_singleton.mpr (.refl _)
  · exact forall_mem_singleton.mpr (.inl rfl)
  · exact fun e he => absurd he not_mem_nil
  · exact fun v n h hlt => absurd ((hget v n).mp h).2 hlt.ne'
  · exact fun e he => absurd he not_mem_nil

/-- Some target is ambiguous exactly where walks fork. -/
theorem ambiguousTargets_eq_nil_iff (hnodup : registrations.Nodup) :
    ambiguousTargets registrations source = [] ↔ ¬ (edgeGraph registrations).Forks source := by
  have hinitial : Counted registrations source (Dict.set KeyedTable.empty source 1) ([] ++ [source])
      (([] : List SchemaRef).flatMap (outgoing registrations)) := counted_initial source
  obtain ⟨found, h⟩ := pathCounts_spec hnodup hinitial (Nat.zero_add _).ge
  unfold ambiguousTargets
  dsimp only
  rw [eq_nil_iff_forall_not_mem]
  constructor
  · intro hnone hforks
    have hfound : ∀ v, (edgeGraph registrations).Reaches source v → v ∈ found := fun v hv =>
      hv.induction h.source_mem fun e he hs =>
        (h.seen_mem e (mem_flatMap.mpr ⟨_, hs, mem_outgoing.mpr ⟨he, rfl⟩⟩)).2.2
    -- every node that is reached has been expanded, so that both edges of a fork were seen
    have hseen : ∀ e ∈ registrations, (edgeGraph registrations).Reaches source e.source →
        e ∈ found.flatMap (outgoing registrations) := fun e he hs =>
      mem_flatMap.mpr ⟨_, hfound _ hs, mem_outgoing.mpr ⟨he, rfl⟩⟩
    obtain ⟨e, he, hs, htwice⟩ := Multigraph.forks_iff.mp hforks
    obtain ⟨n, hn, hlt⟩ := h.complete e (hseen e he hs)
      (htwice.imp_right fun ⟨e', he', hs', hne, heq⟩ => ⟨e', hseen e' he' hs', hne, heq⟩)
    refine hnone e.target (mem_sortedBy.mpr (mem_map.mpr ⟨(e.target, n), ?_, rfl⟩))
    exact mem_filter.mpr ⟨Dict.get?_eq_some_iff.mp hn, decide_eq_true hlt⟩
  · intro hforks v hv
    obtain ⟨⟨_, n⟩, hrow, rfl⟩ := mem_map.mp (mem_sortedBy.mp hv)
    obtain ⟨hmem, hlt⟩ := mem_filter.mp hrow
    exact hforks (h.sound _ n (Dict.get?_eq_some_iff.mpr hmem) (of_decide_eq_true hlt))

theorem rejectAmbiguousFrom_of_not_forks (hnodup : registrations.Nodup)
    (h : ¬ (edgeGraph registrations).Forks source) :
    rejectAmbiguousFrom registrations source = .ok () := by
  unfold rejectAmbiguousFrom
  rw [(ambiguousTargets_eq_nil_iff hnodup).mpr h]

theorem forM_rejectAmbiguousFrom (hnodup : registrations.Nodup)
    (h : (edgeGraph registrations).Forks source) {nodes : List SchemaRef} (hmem : source ∈ nodes) :
    ∃ a b, nodes.forM (rejectAmbiguousFrom registrations) = .error (.ambiguity a b) := by
  cases hcheck : nodes.forM (rejectAmbiguousFrom registrations) with
  | ok u =>
    have hsource := forM_eq_ok_iff.mp hcheck source hmem
    unfold rejectAmbiguousFrom at hsource
    split at hsource
    · rename_i hnil
      exact absurd h ((ambiguousTargets_eq_nil_iff hnodup).mp hnil)
    · cases hsource
  | error e =>
    obtain ⟨a, -, ha⟩ := exists_of_forM_error hcheck
    unfold rejectAmbiguousFrom at ha
    split at ha
    · cases ha
    · cases ha
      exact ⟨a, _, rfl⟩

/-- The check raises exactly where walks from some node fork. -/
theorem rejectAmbiguousPaths_spec (hnodup : registrations.Nodup) :
    ((∃ a, (edgeGraph registrations).Forks a) ∧
      ∃ a b, rejectAmbiguousPaths registrations = .error (.ambiguity a b)) ∨
    (∀ a, ¬ (edgeGraph registrations).Forks a) ∧ rejectAmbiguousPaths registrations = .ok () := by
  by_cases hforks : ∃ a, (edgeGraph registrations).Forks a
  · obtain ⟨a, ha⟩ := hforks
    obtain ⟨edge, hedge, rfl⟩ := ha.exists_edge
    exact .inl ⟨⟨_, ha⟩, forM_rejectAmbiguousFrom hnodup ha
      (mem_sortedNodes.mpr ⟨edge, hedge, .inl rfl⟩)⟩
  · exact .inr ⟨not_exists.mp hforks, forM_eq_ok_iff.mpr fun a _ =>
      rejectAmbiguousFrom_of_not_forks hnodup (not_exists.mp hforks a)⟩

end Counts

end Robata.Upcasting
