import Robata.Upcasting.GraphSearch

/-!
# Upcast paths

`resolve_path` finds a walk where there is one.  In an accepted graph it is the only one, so that
paths concatenate; and a pure transform leaves no trace in the seals that another call could
meet, so that upcasting along a path is the composition of its transforms.
-/

namespace Robata.Upcasting

open Lib List

variable {registrations : List UpcasterCatalogEntry}

/-! ## The search for a path -/

section Search

variable {source target node : SchemaRef} {visited done : List SchemaRef}
  {queue : List (SchemaRef × List UpcasterCatalogEntry)} {edges path : List UpcasterCatalogEntry}

/-- The search when some nodes have been expanded. -/
structure Searched (registrations : List UpcasterCatalogEntry) (source target : SchemaRef)
    (done : List SchemaRef) (queue : List (SchemaRef × List UpcasterCatalogEntry)) : Prop where
  nodup : (done ++ queue.map Prod.fst).Nodup
  source_mem : source ∈ done ++ queue.map Prod.fst
  walks : ∀ entry ∈ queue, (edgeGraph registrations).IsWalk source entry.1 entry.2
  entered : ∀ v ∈ done ++ queue.map Prod.fst, v = source ∨ ∃ e ∈ registrations, e.target = v
  expanded : ∀ e ∈ registrations, e.source ∈ done →
    e.target ≠ target ∧ e.target ∈ done ++ queue.map Prod.fst

/-- The edges of a node: one of them ends the search, or the new targets are queued. -/
theorem searchEdge_fold (target : SchemaRef)
    (queue : List (SchemaRef × List UpcasterCatalogEntry))
    (hedges : ∀ e ∈ edges, e ∈ registrations ∧ e.source = node)
    (hpath : (edgeGraph registrations).IsWalk source node path) (hnodup : visited.Nodup) :
    (∃ candidate, edges.foldlM (searchEdge target path) (visited, queue) = .error candidate ∧
      (edgeGraph registrations).IsWalk source target candidate) ∨
    ∃ new, edges.foldlM (searchEdge target path) (visited, queue) =
        .ok (visited ++ new.map Prod.fst, queue ++ new) ∧
      (visited ++ new.map Prod.fst).Nodup ∧
      (∀ entry ∈ new, (edgeGraph registrations).IsWalk source entry.1 entry.2 ∧
        ∃ e ∈ registrations, e.target = entry.1) ∧
      ∀ e ∈ edges, e.target ≠ target ∧ e.target ∈ visited ++ new.map Prod.fst := by
  induction edges generalizing visited queue with
  | nil =>
    refine .inr ⟨[], ?_, ?_, fun _ h => absurd h not_mem_nil, fun _ h => absurd h not_mem_nil⟩
    · rw [map_nil, append_nil, append_nil]
      rfl
    · rwa [map_nil, append_nil]
  | cons e edges ih =>
    obtain ⟨⟨he, rfl⟩, hedges⟩ := forall_mem_cons.mp hedges
    have hcandidate : (edgeGraph registrations).IsWalk source e.target (path ++ [e]) :=
      Multigraph.isWalk_concat.mpr ⟨hpath, he, rfl⟩
    rw [foldlM_cons]
    by_cases htarget : e.target = target
    · refine .inl ⟨path ++ [e], ?_, htarget ▸ hcandidate⟩
      unfold searchEdge
      dsimp only
      rw [if_pos htarget]
      rfl
    · by_cases hvisited : e.target ∈ visited
      · have hstep : searchEdge target path (visited, queue) e = .ok (visited, queue) :=
          (if_neg htarget).trans (if_neg (not_not.mpr hvisited))
        rw [hstep, ok_bind]
        refine (ih queue hedges hnodup).imp_right fun ⟨new, hfold, hnew, hwalks, hall⟩ => ?_
        exact ⟨new, hfold, hnew, hwalks,
          forall_mem_cons.mpr ⟨⟨htarget, mem_append_left _ hvisited⟩, hall⟩⟩
      · have hstep : searchEdge target path (visited, queue) e =
            .ok (visited ++ [e.target], queue ++ [(e.target, path ++ [e])]) :=
          (if_neg htarget).trans (if_pos hvisited)
        have hnodup' : (visited ++ [e.target]).Nodup :=
          hnodup.append (nodup_singleton _) (disjoint_singleton.mpr hvisited)
        rw [hstep, ok_bind]
        refine (ih _ hedges hnodup').imp_right fun ⟨new, hfold, hnew, hwalks, hall⟩ => ?_
        have hnodes : visited ++ [e.target] ++ new.map Prod.fst =
            visited ++ ((e.target, path ++ [e]) :: new).map Prod.fst := append_assoc _ _ _
        rw [hnodes] at hfold hnew hall
        refine ⟨(e.target, path ++ [e]) :: new, hfold.trans ?_, hnew,
          forall_mem_cons.mpr ⟨⟨hcandidate, e, he, rfl⟩, hwalks⟩,
          forall_mem_cons.mpr ⟨⟨htarget, mem_append_right _ mem_cons_self⟩, hall⟩⟩
        rw [append_assoc, singleton_append]

theorem Searched.length_le (h : Searched registrations source target done queue) :
    (done ++ queue.map Prod.fst).length ≤ registrations.length + 1 := by
  have hsub : done ++ queue.map Prod.fst ⊆ source :: registrations.map (·.target) := fun v hv => by
    rcases h.entered v hv with rfl | ⟨e, he, rfl⟩
    · exact mem_cons_self
    · exact mem_cons_of_mem _ (mem_map_of_mem he)
  have hlength := (subperm_of_subset h.nodup hsub).length_le
  rwa [length_cons, length_map] at hlength

/-- A target that no expanded node leads to is not reached when all nodes are expanded. -/
theorem Searched.not_reaches (h : Searched registrations source target done [])
    (hne : source ≠ target) : ¬ (edgeGraph registrations).Reaches source target := by
  have hdone : done ++ ([] : List (SchemaRef × List UpcasterCatalogEntry)).map Prod.fst = done :=
    append_nil done
  intro hreaches
  -- the expanded nodes are closed under the edges, and the target is none of them
  have htarget : target ∈ done ∧ target ≠ target :=
    hreaches.induction (P := fun v => v ∈ done ∧ v ≠ target) ⟨hdone ▸ h.source_mem, hne⟩
      fun e he hs => by
        obtain ⟨hother, hmem⟩ := h.expanded e he hs.1
        exact ⟨hdone ▸ hmem, hother⟩
  exact htarget.2 rfl

theorem searchPath_spec (hne : source ≠ target) {bound : Nat} :
    ∀ {done : List SchemaRef} {queue : List (SchemaRef × List UpcasterCatalogEntry)},
      Searched registrations source target done queue →
      registrations.length + 1 ≤ done.length + bound →
      (∃ path,
        searchPath registrations target bound (done ++ queue.map Prod.fst) queue = some path ∧
          (edgeGraph registrations).IsWalk source target path) ∨
      searchPath registrations target bound (done ++ queue.map Prod.fst) queue = none ∧
        ¬ (edgeGraph registrations).Reaches source target := by
  induction bound with
  | zero =>
    intro done queue h hbound
    have hlength := h.length_le
    rw [length_append, length_map] at hlength
    -- the nodes are distinct, so that the queue ends within the bound
    obtain rfl : queue = [] := length_eq_zero_iff.mp (by omega)
    exact .inr ⟨rfl, h.not_reaches hne⟩
  | succ bound ih =>
    intro done queue h hbound
    cases queue with
    | nil => exact .inr ⟨rfl, h.not_reaches hne⟩
    | cons entry queue =>
      obtain ⟨node, path⟩ := entry
      obtain ⟨hwalk, hwalks⟩ := forall_mem_cons.mp h.walks
      unfold searchPath
      rcases searchEdge_fold target queue (fun e he => mem_outgoing.mp he) hwalk h.nodup with
        ⟨candidate, hfold, hcandidate⟩ | ⟨new, hfold, hnodup, hnew, hall⟩
      · exact .inl ⟨candidate, by rw [hfold], hcandidate⟩
      · rw [hfold]
        have hnodes : done ++ ((node, path) :: queue).map Prod.fst ++ new.map Prod.fst =
            (done ++ [node]) ++ (queue ++ new).map Prod.fst := by simp
        rw [hnodes] at hnodup hall ⊢
        refine ih ⟨hnodup, ?_, ?_, ?_, ?_⟩ (by rw [length_append, length_singleton]; omega)
        · rw [← hnodes]
          exact mem_append_left _ h.source_mem
        · exact forall_mem_append.mpr ⟨hwalks, fun entry hentry => (hnew entry hentry).1⟩
        · intro v hv
          rw [← hnodes] at hv
          rcases mem_append.mp hv with hv | hv
          · exact h.entered v hv
          · obtain ⟨entry, hentry, rfl⟩ := mem_map.mp hv
            exact .inr (hnew entry hentry).2
        · intro e he hsource
          rcases mem_append.mp hsource with hdone | hlast
          · obtain ⟨hother, hmem⟩ := h.expanded e he hdone
            exact ⟨hother, hnodes ▸ mem_append_left _ hmem⟩
          · exact hall e (mem_outgoing.mpr ⟨he, mem_singleton.mp hlast⟩)

end Search

/-! ## Paths of an accepted graph -/

section Paths

variable {registry : Registered} {source target : SchemaRef}

theorem resolvePath_spec (registrations : List UpcasterCatalogEntry)
    (hsource : resolveExact registry source = .ok ())
    (htarget : resolveExact registry target = .ok ()) :
    (∃ path, resolvePath registrations registry source target = .ok path ∧
      (edgeGraph registrations).IsWalk source target path) ∨
    resolvePath registrations registry source target = .error (.pathNotFound source target) ∧
      ¬ (edgeGraph registrations).Reaches source target := by
  unfold resolvePath
  rw [hsource, ok_bind, htarget, ok_bind]
  by_cases hsame : source = target
  · exact .inl ⟨[], if_pos hsame, hsame⟩
  · have hinitial : Searched registrations source target [] [(source, [])] :=
      ⟨nodup_singleton _, mem_cons_self, forall_mem_singleton.mpr rfl,
        forall_mem_singleton.mpr (.inl rfl), fun _ _ h => absurd h not_mem_nil⟩
    rw [if_neg hsame]
    rcases searchPath_spec hsame hinitial (Nat.zero_add _).ge with
      ⟨path, hpath, hwalk⟩ | ⟨hnone, hreaches⟩
    · have hsearch : searchPath registrations target (registrations.length + 1) [source]
          [(source, [])] = some path := hpath
      rw [hsearch]
      exact .inl ⟨path, rfl, hwalk⟩
    · have hsearch : searchPath registrations target (registrations.length + 1) [source]
          [(source, [])] = none := hnone
      rw [hsearch]
      exact .inr ⟨rfl, hreaches⟩

theorem resolves_of_resolvePath {path : List UpcasterCatalogEntry}
    (h : resolvePath registrations registry source target = .ok path) :
    resolveExact registry source = .ok () ∧ resolveExact registry target = .ok () := by
  unfold resolvePath at h
  obtain ⟨⟨⟩, hsource, h⟩ := bind_eq_ok.mp h
  obtain ⟨⟨⟩, htarget, _⟩ := bind_eq_ok.mp h
  exact ⟨hsource, htarget⟩

theorem isWalk_of_resolvePath {path : List UpcasterCatalogEntry}
    (h : resolvePath registrations registry source target = .ok path) :
    (edgeGraph registrations).IsWalk source target path := by
  obtain ⟨hsource, htarget⟩ := resolves_of_resolvePath h
  rcases resolvePath_spec registrations hsource htarget with
    ⟨path', hpath, hwalk⟩ | ⟨herror, _⟩
  · exact Except.ok.inj (h.symm.trans hpath) ▸ hwalk
  · cases h.symm.trans herror

/-- What `resolve_path` answers on references that resolve. -/
structure PathsResolved (registrations : List UpcasterCatalogEntry) (registry : Registered) :
    Prop where
  unique : ∀ a b p q, (edgeGraph registrations).IsWalk a b p →
    (edgeGraph registrations).IsWalk a b q → p = q
  found : ∀ a b, resolveExact registry a = .ok () → resolveExact registry b = .ok () →
    ∀ path, resolvePath registrations registry a b = .ok path ↔
      (edgeGraph registrations).IsWalk a b path
  missing : ∀ a b, resolveExact registry a = .ok () → resolveExact registry b = .ok () →
    (resolvePath registrations registry a b = .error (.pathNotFound a b) ↔
      ∀ path, ¬ (edgeGraph registrations).IsWalk a b path)
  empty : ∀ a b path, resolvePath registrations registry a b = .ok path → (path = [] ↔ a = b)
  concatenates : ∀ a b c p q, resolvePath registrations registry a b = .ok p →
    resolvePath registrations registry b c = .ok q →
      resolvePath registrations registry a c = .ok (p ++ q)

theorem pathsResolved (h : ∀ a, ¬ (edgeGraph registrations).Forks a) :
    PathsResolved registrations registry := by
  have hunique : ∀ a b p q, (edgeGraph registrations).IsWalk a b p →
      (edgeGraph registrations).IsWalk a b q → p = q := fun a _ _ _ hp hq => hp.unique (h a) hq
  have hfound : ∀ a b, resolveExact registry a = .ok () → resolveExact registry b = .ok () →
      ∀ path, resolvePath registrations registry a b = .ok path ↔
        (edgeGraph registrations).IsWalk a b path := by
    refine fun a b ha hb path => ⟨isWalk_of_resolvePath, fun hwalk => ?_⟩
    rcases resolvePath_spec registrations ha hb with
      ⟨path', hpath, hwalk'⟩ | ⟨_, hreaches⟩
    · exact hunique a b _ _ hwalk' hwalk ▸ hpath
    · exact absurd ⟨path, hwalk⟩ hreaches
  refine ⟨hunique, hfound, fun a b ha hb => ⟨fun herror path hwalk => ?_, fun hnone => ?_⟩, ?_, ?_⟩
  · cases herror.symm.trans ((hfound a b ha hb path).mpr hwalk)
  · rcases resolvePath_spec registrations ha hb with
      ⟨path, _, hwalk⟩ | ⟨herror, _⟩
    · exact absurd hwalk (hnone path)
    · exact herror
  · intro a b path hpath
    have hwalk := isWalk_of_resolvePath hpath
    refine ⟨fun hnil => ?_, fun hsame => ?_⟩
    · subst hnil
      exact hwalk
    · subst hsame
      exact hunique a a _ _ hwalk rfl
  · intro a b c p q hp hq
    exact (hfound a c (resolves_of_resolvePath hp).1 (resolves_of_resolvePath hq).2 _).mpr
      ((isWalk_of_resolvePath hp).append (isWalk_of_resolvePath hq))

end Paths

end Robata.Upcasting
