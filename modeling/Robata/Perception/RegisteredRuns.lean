import Robata.Lib.Aligned
import Robata.Perception.DerivedWork

/-!
# Registered runs

`register_plan` stores a new run with all of its planned work, or finds the run with the same
plan and verifies it.  The ordinals of a plan are consecutive, and a stored plan has as many
contexts as the texts of the run name: a replay that passes the checks has the contexts that
are stored, and adds nothing.
-/

namespace Robata.Perception

open Lib
open PerceptionDb (KeysUnique insertRun isSealed registerRun)

section Registration

variable {S : SchedulerHashing} {db db' : PerceptionDb} {run : DurablePerceptionRun}
  {contexts : List DurablePerceptionContext} {maxAttempts : Nat} {current : Instant}
  {edges : List (String × String)}

theorem toWorkNode_mem {i : DurablePerceptionWorkItem}
    (hi : i ∈ normalWork S run.schedulerPolicyVersion run contexts maxAttempts current) :
    i.toWorkNode ∈ normalNodes S run contexts := by
  rw [← nodes_normalWork maxAttempts current]
  exact List.mem_map_of_mem hi

variable (S db db' run contexts maxAttempts current edges) in
/-- The tables after a new run is stored. -/
structure Registered : Prop where
  runNew : db.runs.find? run.runKey = none
  isOpen : run.derivedWorkSealed = false
  runs : ∀ k, db'.runs.find? k = if k = run.runKey then some run else db.runs.find? k
  attempts : db'.attempts = db.attempts
  contextsKept : ∀ {k c}, db.contexts.find? k = some c → db'.contexts.find? k = some c
  contextsFound : ∀ c ∈ contexts, db'.contexts.find? (run.runKey, c.focusSegmentOrdinal) = some c
  keys : db.KeysUnique → db'.KeysUnique
  ordinals : contexts.map (·.focusSegmentOrdinal) =
    List.range run.planJson.reasoningContextSemanticSha256Values.length
  kept : ∀ {id i}, db.items.find? id = some i → db'.items.find? id = some i
  held : ∀ w ∈ normalWork S run.schedulerPolicyVersion run contexts maxAttempts current,
    ∃ i, db'.items.find? w.workItemId = some i ∧ i.toWorkPlan = w.toWorkPlan
  fresh : ∀ {id i}, db'.items.find? id = some i → db.items.find? id = some i ∨
    i ∈ normalWork S run.schedulerPolicyVersion run contexts maxAttempts current ∧
      db.items.find? id = none
  dependencies : normalDependencies (normalNodes S run contexts) = .ok edges
  edge : ∀ d u, db'.Edge d u ↔ db.Edge d u ∨ (d, u) ∈ edges
  attemptsLeft : 0 < maxAttempts

namespace Registered

variable (h : Registered S db db' run contexts maxAttempts current edges)

include h

theorem isSealed_eq (key : String) : db'.isSealed key = db.isSealed key := by
  unfold isSealed
  rw [h.runs]
  by_cases hkey : key = run.runKey
  · rw [if_pos hkey, hkey, h.runNew]
    exact h.isOpen
  · rw [if_neg hkey]

theorem keysApart (hgraph : GraphInv S db) : KeysApart contexts := by
  intro a ha b hb hkey
  have hrow : ∀ c ∈ contexts, c ∈ db'.contexts.rows ∧ c.runKey = run.runKey := by
    intro c hc
    have hfound := KeyedTable.find?_eq_some_iff.mp (h.contextsFound c hc)
    exact ⟨hfound.1, congrArg Prod.fst hfound.2⟩
  exact h.keys hgraph.keys a (hrow a ha).1 b (hrow b hb).1
    ((hrow a ha).2.trans (hrow b hb).2.symm) hkey

theorem exists_item (hgraph : GraphInv S db) {n : WorkNode} (hn : n ∈ normalNodes S run contexts) :
    ∃ i, db'.items.find? n.workItemId = some i ∧ i.toWorkNode = n ∧ i.runKey = run.runKey ∧
      i.state = .planned := by
  rw [← nodes_normalWork maxAttempts current, List.mem_map] at hn
  obtain ⟨w, hw, rfl⟩ := hn
  obtain ⟨i, hi, hplan⟩ := h.held w hw
  have hrun : i.runKey = run.runKey :=
    (congrArg WorkPlan.runKey hplan).trans (isPlanned_of_mem hw).1.runKey
  refine ⟨i, hi, congrArg WorkPlan.toWorkNode hplan, hrun, ?_⟩
  rcases h.fresh hi with hold | ⟨hmem, _⟩
  · -- no old item belongs to the new run
    have hexists := hgraph.run hold
    rw [hrun, h.runNew] at hexists
    cases hexists
  · exact (isPlanned_of_mem hmem).1.state

theorem cases (hgraph : GraphInv S db) {id : String} {i : DurablePerceptionWorkItem}
    (hi : db'.items.find? id = some i) :
    db.items.find? id = some i ∧ i.runKey ≠ run.runKey ∨
      i ∈ normalWork S run.schedulerPolicyVersion run contexts maxAttempts current ∧
        i.runKey = run.runKey := by
  rcases h.fresh hi with hold | ⟨hmem, _⟩
  · refine .inl ⟨hold, fun hrun => ?_⟩
    have hexists := hgraph.run hold
    rw [hrun, h.runNew] at hexists
    cases hexists
  · exact .inr ⟨hmem, (isPlanned_of_mem hmem).1.runKey⟩

theorem adds : Adds run.runKey db db' where
  attempts := h.attempts
  kept := h.kept
  fresh {id i} hi := by
    rcases h.fresh hi with hold | ⟨hmem, hnone⟩
    · exact .inl hold
    · obtain ⟨hplanned, hmax⟩ := isPlanned_of_mem hmem
      exact .inr ⟨hnone, hplanned.runKey, hplanned.state, hplanned.attempt, hplanned.epoch,
        hmax ▸ h.attemptsLeft⟩
  sealed_iff := h.isSealed_eq
  edges hedge := (h.edge _ _).mpr (.inl hedge)

variable (hgraph : GraphInv S db)
include hgraph

theorem edge_items {d u : String} (hedge : (d, u) ∈ edges) :
    ∃ di ui, db'.items.find? d = some di ∧ db'.items.find? u = some ui ∧
      di.runKey = run.runKey ∧ ui.runKey = run.runKey ∧ di.state = .planned ∧
        ui.rank < di.rank := by
  have hnodup : (contexts.map (·.focusSegmentOrdinal)).Nodup := by
    rw [h.ordinals]
    exact List.nodup_range
  obtain ⟨dn, hdn, un, hun, hsame, hrank⟩ :=
    normalDependencies_rank h.dependencies (normalNodes_apart hnodup) (d, u) hedge
  cases hsame
  obtain ⟨di, hdi, hdnode, hdrun, hdstate⟩ := h.exists_item hgraph hdn
  obtain ⟨ui, hui, hunode, hurun, _⟩ := h.exists_item hgraph hun
  refine ⟨di, ui, hdi, hui, hdrun, hurun, hdstate, ?_⟩
  rw [hdnode, hunode]
  exact hrank

theorem graph : GraphInv S db' := by
  have hadds := h.adds
  have hnormal : ∀ {i : DurablePerceptionWorkItem},
      i ∈ normalWork S run.schedulerPolicyVersion run contexts maxAttempts current →
        i.stage ∉ exceptionStages := by
    intro i hi hstage
    rcases (isPlanned_of_mem hi).1.normal with ⟨hmem, _⟩ | ⟨hfinal, _⟩
    · revert hmem hstage
      cases i.stage <;> decide
    · rw [hfinal] at hstage
      revert hstage
      decide
  constructor
  · intro id i hi
    rw [h.runs]
    rcases h.cases hgraph hi with ⟨hold, hrun⟩ | ⟨_, hrun⟩
    · rw [if_neg hrun]
      exact hgraph.run hold
    · rw [if_pos hrun]
      rfl
  · exact h.keys hgraph.keys
  · intro d u hdu
    rcases (h.edge d u).mp hdu with hold | hnew
    · obtain ⟨di, ui, hd, hu, hrest⟩ := hgraph.edge hold
      exact ⟨di, ui, h.kept hd, h.kept hu, hrest⟩
    · obtain ⟨di, ui, hd, hu, hdrun, hurun, _, hrank⟩ := h.edge_items hgraph hnew
      exact ⟨di, ui, hd, hu, hurun.trans hdrun.symm, hrank⟩
  · intro d u di ui hdu hd hu hstate
    rcases (h.edge d u).mp hdu with hold | hnew
    · obtain ⟨di', ui', hd', hu', _⟩ := hgraph.edge hold
      cases hd.symm.trans (h.kept hd')
      cases hu.symm.trans (h.kept hu')
      exact hgraph.waits hold hd' hu' hstate
    · obtain ⟨di', _, hd', _, _, _, hplanned, _⟩ := h.edge_items hgraph hnew
      cases hd.symm.trans hd'
      exact absurd hplanned hstate
  · intro id i hi hstage hstate
    rw [h.isSealed_eq]
    rcases h.cases hgraph hi with ⟨hold, _⟩ | ⟨hmem, _⟩
    · exact hgraph.gate hold hstage hstate
    · exact absurd (isPlanned_of_mem hmem).1.state hstate
  · intro fid f id i hf hi hstage hwaits hrun
    rcases h.cases hgraph hf with ⟨hfold, hfrun⟩ | ⟨hfmem, hfrun⟩
    · rcases h.cases hgraph hi with ⟨hold, _⟩ | ⟨_, hirun⟩
      · exact hadds.edges (hgraph.barrier hfold hold hstage hwaits hrun)
      · exact absurd (hrun.symm.trans hirun) hfrun
    · rcases h.cases hgraph hi with ⟨_, hirun⟩ | ⟨himem, _⟩
      · exact absurd (hrun.trans hfrun) hirun
      · -- of the stages `FINALIZE` waits for a new run has reconciliations only
        have htemporal : i.stage = .temporalReconcile := by
          have hnot := hnormal himem
          revert hwaits hnot
          cases i.stage <;> decide
        have hkey : i.contextKey ≠ none := by
          rcases (isPlanned_of_mem himem).1.normal with ⟨_, hkey⟩ | ⟨hfinal, _⟩
          · exact hkey
          · rw [htemporal] at hfinal
            cases hfinal
        have hfkey : f.contextKey = none := by
          rcases (isPlanned_of_mem hfmem).1.normal with ⟨hmem, _⟩ | ⟨_, hkey⟩
          · rw [hstage] at hmem
            exact absurd hmem (by decide)
          · exact hkey
        rw [h.edge]
        refine .inr ?_
        rw [← workItemId_of_find? hf, ← workItemId_of_find? hi]
        exact normalDependencies_barrier h.dependencies (normalNodes_unique (h.keysApart hgraph))
          (toWorkNode_mem hfmem) hstage hfkey (toWorkNode_mem himem) htemporal hkey
  · intro id i id' i' hi hi' hrun hkey hstage hnotException
    rcases h.cases hgraph hi with ⟨hold, hirun⟩ | ⟨himem, hirun⟩ <;>
      rcases h.cases hgraph hi' with ⟨hold', hirun'⟩ | ⟨himem', hirun'⟩
    · exact hgraph.unique hold hold' hrun hkey hstage hnotException
    · exact absurd (hrun.trans hirun') hirun
    · exact absurd (hrun.symm.trans hirun) hirun'
    · have hnode : i.toWorkNode = i'.toWorkNode :=
        normalNodes_unique (h.keysApart hgraph) _ (toWorkNode_mem himem) _ (toWorkNode_mem himem')
          hkey hstage
      rw [← workItemId_of_find? hi, ← workItemId_of_find? hi']
      exact congrArg WorkNode.workItemId hnode
  · intro id i hi hstage
    rcases h.cases hgraph hi with ⟨hold, _⟩ | ⟨hmem, _⟩
    · exact hgraph.finalKey hold hstage
    · rcases (isPlanned_of_mem hmem).1.normal with ⟨hnot, _⟩ | ⟨_, hkey⟩
      · rw [hstage] at hnot
        exact absurd hnot (by decide)
      · exact hkey
  · intro id i tid t hi ht hstage htstage hrun hkey
    rcases h.cases hgraph hi with ⟨hold, hirun⟩ | ⟨himem, _⟩
    · rcases h.cases hgraph ht with ⟨htold, _⟩ | ⟨_, htrun⟩
      · exact hadds.edges (hgraph.fusion hold htold hstage htstage hrun hkey)
      · exact absurd (hrun.symm.trans htrun) hirun
    · exact absurd (by rw [hstage]; decide) (hnormal himem)
  · intro id i hi hstage
    rcases h.cases hgraph hi with ⟨hold, _⟩ | ⟨himem, _⟩
    · obtain ⟨u, hu, hedge⟩ := hgraph.refine hold hstage
      exact ⟨u, hu, hadds.edges hedge⟩
    · exact absurd (by rw [hstage]; decide) (hnormal himem)
  · intro key run' hrun
    rw [h.runs] at hrun
    by_cases hkey : key = run.runKey
    · rw [if_pos hkey] at hrun
      cases hrun
      refine ⟨contexts, h.ordinals, h.contextsFound, fun n hn => ?_, fun edges' hok e he => ?_⟩
      · obtain ⟨i, hi, _⟩ := h.exists_item hgraph hn
        exact Option.isSome_iff_exists.mpr ⟨i, hi⟩
      · cases h.dependencies.symm.trans hok
        exact (h.edge _ _).mpr (.inr he)
    · rw [if_neg hkey] at hrun
      exact (hgraph.complete hrun).adds hadds h.contextsKept

theorem grown (hlife : LifeInv db) : Grown S run.runKey db db' where
  graph := h.graph hgraph
  life := hlife.adds h.adds
  blocked key hkey hblocked := hblocked.adds h.adds hkey
  frozen := by
    have hopen : db.isSealed run.runKey = false := by
      unfold isSealed
      rw [h.runNew]
      rfl
    refine Frozen.of_open (fun key hsealed => ?_) (fun hi => ⟨_, h.kept hi, rfl⟩)
      (fun {id j} hj => ?_) h.adds.edges fun {d u} hdu => ?_
    · rw [h.isSealed_eq]
      exact hsealed
    · rcases h.cases hgraph hj with ⟨hold, _⟩ | ⟨_, hrun⟩
      · exact .inl ⟨j, hold⟩
      · exact .inr (hrun ▸ hopen)
    · rcases (h.edge d u).mp hdu with hold | hnew
      · exact .inl hold
      · obtain ⟨di, _, hd, _, hrun, _⟩ := h.edge_items hgraph hnew
        exact .inr ⟨di, hd, hrun ▸ hopen⟩

end Registered

theorem registerRun_spec {out : DurablePerceptionRun × PerceptionDb}
    (h : db.registerRun run = .ok out) :
    (db.runs.find? run.runKey = none ∧ out.1 = run ∧
      (∀ k, out.2.runs.find? k = if k = run.runKey then some run else db.runs.find? k) ∧
      out.2.contexts = db.contexts ∧ out.2.items = db.items ∧
      out.2.dependencies = db.dependencies ∧ out.2.attempts = db.attempts) ∨
    (db.runs.find? run.runKey = some out.1 ∧ out.2 = db ∧
      out.1.schedulerPolicyVersion = run.schedulerPolicyVersion ∧
      out.1.planJson = run.planJson) := by
  unfold registerRun at h
  split at h
  · rename_i hnone
    obtain ⟨mid, hmid, h⟩ := bind_eq_ok.mp h
    cases h
    unfold insertRun at hmid
    split at hmid
    · rename_i runs hinsert
      cases hmid
      exact .inl ⟨hnone, rfl, KeyedTable.find?_of_insert? hinsert, rfl, rfl, rfl, rfl⟩
    · cases hmid
  · rename_i persisted hfind
    simp only [raiseIf_bind_eq_ok, Bool.or_eq_false_iff, bne_eq_false_iff_eq] at h
    obtain ⟨⟨⟨⟨_, hpolicy⟩, _⟩, hplan⟩, h⟩ := h
    cases h
    exact .inr ⟨hfind, rfl, hpolicy, hplan⟩

theorem registerPlan_spec {policy codecPolicyVersion : String} {plan : MageStreamPlan}
    {out : DurablePerceptionRun × PerceptionDb} (hgraph : GraphInv S db) (hlife : LifeInv db)
    (h : db.registerPlan S policy plan codecPolicyVersion maxAttempts current = .ok out) :
    ∃ mid runKey, Grown S runKey db mid ∧ out.2 = (mid.refreshReady (some runKey) current).2 := by
  unfold PerceptionDb.registerPlan at h
  simp only [bind_eq_ok] at h
  obtain ⟨_, _, _, hmax, registered, hregistered, withContexts, hcontexts, withWork, hwork, edges,
    hedges, last, hlast, h⟩ := h
  cases h
  have hattemptsLeft : 0 < maxAttempts := by
    unfold requirePositive at hmax
    rw [raiseIf_eq_ok, beq_eq_false_iff_ne] at hmax
    exact Nat.pos_of_ne_zero hmax
  refine ⟨last, (runOf S policy plan codecPolicyVersion current).runKey, ?_, rfl⟩
  generalize hrunOf : runOf S policy plan codecPolicyVersion current = run at *
  have hpolicy : run.schedulerPolicyVersion = policy := by rw [← hrunOf]; rfl
  have hplan : run.planJson = plan.semanticProjection := by rw [← hrunOf]; rfl
  have hopen : run.derivedWorkSealed = false := by rw [← hrunOf]; rfl
  have hordinals : (plan.reasoningContexts.map (contextOf run.runKey)).map
      (·.focusSegmentOrdinal) =
        List.range plan.semanticProjection.reasoningContextSemanticSha256Values.length := by
    rw [List.map_map]
    refine plan.ordinals.trans ?_
    rw [MageStreamPlan.semanticProjection, List.length_map]
  obtain ⟨⟨hruns, hitems, hdeps, hattempts⟩, hkept, hfound, hkeys⟩ :=
    registerContexts_spec hcontexts
  have hfound : ∀ c ∈ plan.reasoningContexts.map (contextOf run.runKey),
      withContexts.contexts.find? (run.runKey, c.focusSegmentOrdinal) = some c := by
    intro c hc
    have hof := hfound c hc
    obtain ⟨item, _, rfl⟩ := List.mem_map.mp hc
    exact hof
  have hholds := insertWorks_spec hwork
  have hlinks := links_spec hlast
  rcases registerRun_spec hregistered with ⟨hnone, hsame, hruns', hcontexts', hitems', hdeps',
    hattempts'⟩ | ⟨hfind, hdb, hpolicy', hplan'⟩
  · -- a new run
    rw [hsame, ← hpolicy] at hholds hedges
    rw [nodes_normalWork] at hedges
    have hold : ∀ id, withContexts.items.find? id = db.items.find? id := fun id => by
      rw [hitems, hitems']
    have hnew : Registered S db last run (plan.reasoningContexts.map (contextOf run.runKey))
        maxAttempts current edges :=
      { runNew := hnone
        isOpen := hopen
        runs := fun k => by rw [hlinks.runs, hholds.runs, hruns, hruns']
        attempts := by rw [hlinks.attempts, hholds.attempts, hattempts, hattempts']
        contextsKept := fun hc => by
          rw [hlinks.contexts, hholds.contexts]
          exact hkept (hcontexts' ▸ hc)
        contextsFound := fun c hc => by
          rw [hlinks.contexts, hholds.contexts]
          exact hfound c hc
        keys := fun hunique => by
          unfold KeysUnique
          rw [hlinks.contexts, hholds.contexts]
          refine hkeys ?_
          unfold KeysUnique
          rw [hcontexts']
          exact hunique
        ordinals := hplan ▸ hordinals
        kept := fun hi => by
          rw [hlinks.items]
          exact hholds.kept ((hold _).trans hi)
        held := fun w hw => by
          rw [hlinks.items]
          exact hholds.held w hw
        fresh := fun {id i} hi => by
          rw [hlinks.items] at hi
          rw [← hold]
          exact (hholds.fresh hi).imp_right fun hnew => ⟨hnew.1, hnew.2.1⟩
        dependencies := hedges
        edge := fun d u => by
          rw [hlinks.edge]
          unfold PerceptionDb.Edge
          rw [hholds.dependencies, hdeps, hdeps']
        attemptsLeft := hattemptsLeft }
    exact hnew.grown hgraph hlife
  · -- a replay: its contexts are the stored ones
    obtain ⟨stored, hstoredOrdinals, hstoredFound, hstoredItems, hstoredEdges⟩ :=
      hgraph.complete hfind
    have hrunKey : registered.1.runKey = run.runKey := KeyedTable.key_of_find? hfind
    have hcontextsSame : plan.reasoningContexts.map (contextOf run.runKey) = stored := by
      refine eq_of_map_eq (f := (·.focusSegmentOrdinal)) ?_ fun a ha b hb hord => ?_
      · rw [hordinals, hstoredOrdinals, hplan', hplan]
      · have hb' := hkept (hdb ▸ hstoredFound b hb)
        rw [hrunKey] at hb'
        have ha' := hfound a ha
        rw [hord] at ha'
        exact Option.some.inj (ha'.symm.trans hb')
    rw [hcontextsSame, ← hpolicy, ← hpolicy'] at hholds hedges
    rw [nodes_normalWork] at hedges
    have hold : ∀ id, withContexts.items.find? id = db.items.find? id := fun id => by
      rw [hitems, hdb]
    refine Grown.of_same hgraph hlife ⟨?_, fun id => ?_, fun d u => ?_, ?_, fun hc => ?_,
      fun hunique => ?_⟩
    · rw [hlinks.runs, hholds.runs, hruns, hdb]
    · rw [hlinks.items]
      cases hafter : withWork.items.find? id with
      | none =>
        cases hbefore : db.items.find? id with
        | none => rfl
        | some i => cases (hholds.kept ((hold id).trans hbefore)).symm.trans hafter
      | some i =>
        rcases hholds.fresh hafter with hi | ⟨hmem, hnone, _⟩
        · rw [← hold, hi]
        · -- the item is one of the stored items of the run
          have hsome := hstoredItems _ (toWorkNode_mem hmem)
          rw [workItemId_of_find? hafter, ← hold, hnone] at hsome
          cases hsome
    · rw [hlinks.edge]
      have hbefore : withWork.Edge d u ↔ db.Edge d u := by
        unfold PerceptionDb.Edge
        rw [hholds.dependencies, hdeps, hdb]
      rw [hbefore]
      exact ⟨fun hor => hor.elim id (hstoredEdges edges hedges (d, u)), .inl⟩
    · rw [hlinks.attempts, hholds.attempts, hattempts, hdb]
    · rw [hlinks.contexts, hholds.contexts]
      exact hkept (hdb ▸ hc)
    · unfold KeysUnique
      rw [hlinks.contexts, hholds.contexts]
      exact hkeys (hdb ▸ hunique)

end Registration

end Robata.Perception
