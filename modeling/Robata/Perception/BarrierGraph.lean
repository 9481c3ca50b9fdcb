import Robata.Perception.SchedulerSteps

/-!
# The graph of a perception ledger

The invariant of the work graph: every dependency points to a node of smaller rank in the
same run, an item has left `PLANNED` only behind its upstream items, and the `FINALIZE` item
of a run depends on every reconciliation, fusion and refinement item of the run.  A
registered run holds all of its planned work, so that a replay adds nothing.
-/

namespace Robata.Perception

open Lib

namespace PerceptionDb

variable (db : PerceptionDb)

def Edge (downstream upstream : String) : Prop := (downstream, upstream) ∈ db.dependencies.rows

/-- The keys of the contexts of a run are different. -/
def KeysUnique : Prop :=
  ∀ c ∈ db.contexts.rows, ∀ c' ∈ db.contexts.rows, c.runKey = c'.runKey →
    c.contextKey = c'.contextKey → c = c'

end PerceptionDb

/-- The stages `FINALIZE` waits for. -/
def barrierStages : List PerceptionStage := [.temporalReconcile, .fusion, .perceptionRefine]

/-- The planned work of a run and its dependencies are stored. -/
def RunComplete (S : SchedulerHashing) (db : PerceptionDb) (run : DurablePerceptionRun) : Prop :=
  ∃ contexts : List DurablePerceptionContext,
    contexts.map (·.focusSegmentOrdinal) =
      List.range run.planJson.reasoningContextSemanticSha256Values.length ∧
    (∀ c ∈ contexts, db.contexts.find? (run.runKey, c.focusSegmentOrdinal) = some c) ∧
    (∀ n ∈ normalNodes S run contexts, (db.items.find? n.workItemId).isSome = true) ∧
    ∀ edges, normalDependencies (normalNodes S run contexts) = .ok edges →
      ∀ e ∈ edges, db.Edge e.1 e.2

/-- The invariant of the work graph. -/
structure GraphInv (S : SchedulerHashing) (db : PerceptionDb) : Prop where
  run : ∀ {id i}, db.items.find? id = some i → (db.runs.find? i.runKey).isSome = true
  keys : db.KeysUnique
  edge : ∀ {d u}, db.Edge d u → ∃ di ui, db.items.find? d = some di ∧
    db.items.find? u = some ui ∧ ui.runKey = di.runKey ∧ ui.rank < di.rank
  waits : ∀ {d u di ui}, db.Edge d u → db.items.find? d = some di → db.items.find? u = some ui →
    di.state ≠ .planned → ui.state = .succeeded
  gate : ∀ {id i}, db.items.find? id = some i → i.stage = .finalize → i.state ≠ .planned →
    db.isSealed i.runKey = true
  barrier : ∀ {fid f id i}, db.items.find? fid = some f → db.items.find? id = some i →
    f.stage = .finalize → i.stage ∈ barrierStages → i.runKey = f.runKey → db.Edge fid id
  unique : ∀ {id i id' i'}, db.items.find? id = some i → db.items.find? id' = some i' →
    i.runKey = i'.runKey → i.contextKey = i'.contextKey → i.stage = i'.stage →
    i.stage ∉ exceptionStages → id = id'
  finalKey : ∀ {id i}, db.items.find? id = some i → i.stage = .finalize → i.contextKey = none
  fusion : ∀ {id i tid t}, db.items.find? id = some i → db.items.find? tid = some t →
    i.stage = .fusion → t.stage = .temporalReconcile → t.runKey = i.runKey →
    t.contextKey = i.contextKey → db.Edge id tid
  refine : ∀ {id i}, db.items.find? id = some i → i.stage = .perceptionRefine →
    ∃ u, i.derivedFromWorkItemId = some u ∧ db.Edge id u
  complete : ∀ {key run}, db.runs.find? key = some run → RunComplete S db run

/-- Every planned item of a run waits for an upstream item; a `FINALIZE` item may also wait
for its run to be sealed. -/
def BlockedFor (db : PerceptionDb) (runKey : String) : Prop :=
  ∀ id i, db.items.find? id = some i → i.runKey = runKey → i.state = .planned →
    (i.stage = .finalize → db.isSealed runKey = true) →
    ∃ u ui, db.Edge id u ∧ db.items.find? u = some ui ∧ ui.state ≠ .succeeded

theorem graphInv_empty (S : SchedulerHashing) : GraphInv S .empty where
  run h := (by cases h)
  keys _ h := (by cases h)
  edge h := (by cases h)
  waits h := (by cases h)
  gate h := (by cases h)
  barrier h := (by cases h)
  unique h := (by cases h)
  finalKey h := (by cases h)
  fusion h := (by cases h)
  refine h := (by cases h)
  complete h := (by cases h)

/-! ## Items that advance -/

/-- The rows of the graph are the same, and every item keeps its plan and its success. -/
structure Advances (db db' : PerceptionDb) : Prop where
  runs : db'.runs = db.runs
  contexts : db'.contexts = db.contexts
  dependencies : db'.dependencies = db.dependencies
  before : ∀ {id j}, db'.items.find? id = some j → ∃ i, db.items.find? id = some i ∧
    j.toWorkPlan = i.toWorkPlan ∧ (i.state = .succeeded → j.state = .succeeded)
  after : ∀ {id i}, db.items.find? id = some i → ∃ j, db'.items.find? id = some j

theorem Advances.of_inPlace {db db' : PerceptionDb} (h : InPlace Moves db db') :
    Advances db db' where
  runs := h.runs
  contexts := h.contexts
  dependencies := h.dependencies
  before hj := by
    obtain ⟨i, hi, hmoves⟩ := h.exists_before hj
    exact ⟨i, hi, hmoves.plan, hmoves.succeeded⟩
  after hi := by
    obtain ⟨j, hj, _⟩ := h.exists_after hi
    exact ⟨j, hj⟩

theorem Advances.of_refresh (db : PerceptionDb) (runKey : Option String) (current : Instant) :
    Advances db (db.refreshReady runKey current).2 where
  runs := rfl
  contexts := rfl
  dependencies := rfl
  before {id j} hj := by
    rw [find?_refreshReady, Option.map_eq_some_iff] at hj
    obtain ⟨i, hi, rfl⟩ := hj
    refine ⟨i, hi, ?_⟩
    split
    · rename_i hreleased
      refine ⟨rfl, fun hs => ?_⟩
      rw [isReleased_planned hreleased] at hs
      cases hs
    · exact ⟨rfl, fun hs => hs⟩
  after {id i} hi := by
    rw [find?_refreshReady, hi]
    exact ⟨_, rfl⟩

section Transfer

variable {S : SchedulerHashing} {db db' : PerceptionDb}

/-- The invariant of the graph, when items advance: an item leaves `PLANNED` only behind its
upstream items, and `FINALIZE` only in a sealed run. -/
theorem GraphInv.advance (h : GraphInv S db) (hadv : Advances db db')
    (hrelease : ∀ {id i j}, db.items.find? id = some i → db'.items.find? id = some j →
      i.state = .planned → j.state ≠ .planned →
      (∀ {u ui}, db.Edge id u → db.items.find? u = some ui → ui.state = .succeeded) ∧
        (i.stage = .finalize → db.isSealed i.runKey = true)) : GraphInv S db' := by
  have hedge : ∀ d u, db'.Edge d u ↔ db.Edge d u := by
    intro d u
    unfold PerceptionDb.Edge
    rw [hadv.dependencies]
  have hsealed : db'.isSealed = db.isSealed := by
    unfold PerceptionDb.isSealed
    rw [hadv.runs]
  constructor
  · intro id j hj
    obtain ⟨i, hi, hplan, _⟩ := hadv.before hj
    rw [hadv.runs, congrArg WorkPlan.runKey hplan]
    exact h.run hi
  · unfold PerceptionDb.KeysUnique
    rw [hadv.contexts]
    exact h.keys
  · intro d u hdu
    obtain ⟨di, ui, hd, hu, hrun, hrank⟩ := h.edge ((hedge d u).mp hdu)
    obtain ⟨dj, hdj⟩ := hadv.after hd
    obtain ⟨uj, huj⟩ := hadv.after hu
    obtain ⟨di', hdi', hdplan, _⟩ := hadv.before hdj
    obtain ⟨ui', hui', huplan, _⟩ := hadv.before huj
    cases hd.symm.trans hdi'
    cases hu.symm.trans hui'
    refine ⟨dj, uj, hdj, huj, ?_, ?_⟩
    · rw [hdplan, huplan]
      exact hrun
    · rw [hdplan, huplan]
      exact hrank
  · intro d u dj uj hdu hd hu hstate
    obtain ⟨di, hdi, _, _⟩ := hadv.before hd
    obtain ⟨ui, hui, _, hkept⟩ := hadv.before hu
    by_cases hplanned : di.state = .planned
    · exact hkept ((hrelease hdi hd hplanned hstate).1 ((hedge d u).mp hdu) hui)
    · exact hkept (h.waits ((hedge d u).mp hdu) hdi hui hplanned)
  · intro id j hj hstage hstate
    obtain ⟨i, hi, hplan, _⟩ := hadv.before hj
    rw [hplan] at hstage ⊢
    rw [hsealed]
    by_cases hplanned : i.state = .planned
    · exact (hrelease hi hj hplanned hstate).2 hstage
    · exact h.gate hi hstage hplanned
  · intro fid f id i hf hi hstage hbarrier hrun
    obtain ⟨f', hf', hfplan, _⟩ := hadv.before hf
    obtain ⟨i', hi', hiplan, _⟩ := hadv.before hi
    rw [hfplan] at hstage hrun
    rw [hiplan] at hbarrier hrun
    exact (hedge _ _).mpr (h.barrier hf' hi' hstage hbarrier hrun)
  · intro id i id' i' hi hi' hrun hkey hstage hnormal
    obtain ⟨k, hk, hkplan, _⟩ := hadv.before hi
    obtain ⟨k', hk', hkplan', _⟩ := hadv.before hi'
    rw [hkplan] at hrun hkey hstage hnormal
    rw [hkplan'] at hrun hkey hstage
    exact h.unique hk hk' hrun hkey hstage hnormal
  · intro id j hj hstage
    obtain ⟨i, hi, hplan, _⟩ := hadv.before hj
    rw [hplan] at hstage ⊢
    exact h.finalKey hi hstage
  · intro id i tid t hi ht hstage htstage hrun hkey
    obtain ⟨i', hi', hiplan, _⟩ := hadv.before hi
    obtain ⟨t', ht', htplan, _⟩ := hadv.before ht
    rw [hiplan] at hstage hrun hkey
    rw [htplan] at htstage hrun hkey
    exact (hedge _ _).mpr (h.fusion hi' ht' hstage htstage hrun hkey)
  · intro id j hj hstage
    obtain ⟨i, hi, hplan, _⟩ := hadv.before hj
    rw [hplan] at hstage ⊢
    obtain ⟨u, hu, hedgeu⟩ := h.refine hi hstage
    exact ⟨u, hu, (hedge _ _).mpr hedgeu⟩
  · intro key run hrun
    rw [hadv.runs] at hrun
    obtain ⟨contexts, hordinals, hcontexts, hitems, hedges⟩ := h.complete hrun
    refine ⟨contexts, hordinals, ?_, fun n hn => ?_, fun edges hok e he => ?_⟩
    · rw [hadv.contexts]
      exact hcontexts
    · obtain ⟨i, hi⟩ := Option.isSome_iff_exists.mp (hitems n hn)
      obtain ⟨j, hj⟩ := hadv.after hi
      exact Option.isSome_iff_exists.mpr ⟨j, hj⟩
    · exact (hedge _ _).mpr (hedges edges hok e he)

theorem GraphInv.inPlace (h : GraphInv S db) (hplace : InPlace Moves db db') : GraphInv S db' := by
  refine h.advance (.of_inPlace hplace) fun hi hj hplanned hstate => ?_
  obtain ⟨j, hj', hmoves⟩ := hplace.exists_after hi
  cases hj.symm.trans hj'
  exact absurd (hmoves.planned.mpr hplanned) hstate

theorem isReleased_spec {runKey : Option String} {id : String} {i : DurablePerceptionWorkItem}
    (hi : db.items.find? id = some i) (h : db.isReleased runKey i = true) :
    (∀ {u ui}, db.Edge id u → db.items.find? u = some ui → ui.state = .succeeded) ∧
      (i.stage = .finalize → db.isSealed i.runKey = true) := by
  simp only [PerceptionDb.isReleased, Bool.and_eq_true, Bool.or_eq_true, bne_iff_ne,
    Bool.not_eq_true'] at h
  obtain ⟨⟨_, hgate⟩, hblocked⟩ := h
  refine ⟨fun {u ui} hedge hu => ?_, fun hstage => ?_⟩
  · by_contra hstate
    have hcon : db.isBlocked i.workItemId = true := by
      rw [PerceptionDb.isBlocked, List.any_eq_true]
      refine ⟨(id, u), hedge, ?_⟩
      rw [workItemId_of_find? hi, hu]
      simp [hstate]
    rw [hblocked] at hcon
    cases hcon
  · exact hgate.resolve_left fun hne => hne hstage

theorem GraphInv.refresh (h : GraphInv S db) (runKey : Option String) (current : Instant) :
    GraphInv S (db.refreshReady runKey current).2 := by
  refine h.advance (.of_refresh db runKey current) fun {id i j} hi hj hplanned hstate => ?_
  rw [find?_refreshReady, hi, Option.map_some, Option.some.injEq] at hj
  split at hj
  · rename_i hreleased
    exact isReleased_spec hi hreleased
  · rw [← hj] at hstate
    exact absurd hplanned hstate

variable {runKey : String}

theorem BlockedFor.advance (h : BlockedFor db runKey) (hgraph : GraphInv S db)
    (hadv : Advances db db')
    (hplanned : ∀ {id i j}, db.items.find? id = some i → db'.items.find? id = some j →
      j.state = .planned → i.state = .planned)
    (hsuccess : ∀ {id i j}, db.items.find? id = some i → db'.items.find? id = some j →
      i.runKey = runKey → j.state = .succeeded → i.state = .succeeded) : BlockedFor db' runKey := by
  intro id j hj hrun hstate hgate
  obtain ⟨i, hi, hplan, _⟩ := hadv.before hj
  rw [hplan] at hrun hgate
  have hsealed : db'.isSealed = db.isSealed := by
    unfold PerceptionDb.isSealed
    rw [hadv.runs]
  rw [hsealed] at hgate
  obtain ⟨u, ui, hedge, hu, hunfinished⟩ := h id i hi hrun (hplanned hi hj hstate) hgate
  obtain ⟨uj, huj⟩ := hadv.after hu
  refine ⟨u, uj, ?_, huj, fun hs => hunfinished (hsuccess hu huj ?_ hs)⟩
  · unfold PerceptionDb.Edge
    rw [hadv.dependencies]
    exact hedge
  · obtain ⟨di, ui', hd, hu', hsame, _⟩ := hgraph.edge hedge
    cases hi.symm.trans hd
    cases hu.symm.trans hu'
    rw [hsame, hrun]

theorem BlockedFor.inPlace (h : BlockedFor db runKey) (hgraph : GraphInv S db)
    (hplace : InPlace Moves db db')
    (hsuccess : ∀ {id i j}, db.items.find? id = some i → db'.items.find? id = some j →
      i.runKey = runKey → j.state = .succeeded → i.state = .succeeded) : BlockedFor db' runKey := by
  refine h.advance hgraph (.of_inPlace hplace) (fun hi hj hstate => ?_) hsuccess
  obtain ⟨j, hj', hmoves⟩ := hplace.exists_after hi
  cases hj.symm.trans hj'
  exact hmoves.planned.mp hstate

theorem BlockedFor.refresh (h : BlockedFor db runKey) (hgraph : GraphInv S db)
    (refreshed : Option String) (current : Instant) :
    BlockedFor (db.refreshReady refreshed current).2 runKey := by
  refine h.advance hgraph (.of_refresh db refreshed current) (fun {id i j} hi hj hstate => ?_)
    fun {id i j} hi hj _ hstate => ?_ <;>
    rw [find?_refreshReady, hi, Option.map_some, Option.some.injEq] at hj <;> split at hj
  · rw [← hj] at hstate
    cases hstate
  · rw [hj]
    exact hstate
  · rw [← hj] at hstate
    cases hstate
  · rw [hj]
    exact hstate

theorem blockedFor_refreshReady (hgraph : GraphInv S db) {refreshed : Option String}
    (hrefreshed : refreshed.all (fun key => runKey == key) = true) (current : Instant) :
    BlockedFor (db.refreshReady refreshed current).2 runKey := by
  intro id j hj hrun hstate hgate
  rw [find?_refreshReady, Option.map_eq_some_iff] at hj
  obtain ⟨i, hi, rfl⟩ := hj
  split at hstate
  · cases hstate
  · rename_i hkept
    rw [if_neg hkept] at hrun hgate
    -- what was not released is blocked
    have hblocked : db.isBlocked i.workItemId = true := by
      by_contra hfree
      refine hkept ?_
      simp only [PerceptionDb.isReleased, Bool.and_eq_true, Bool.or_eq_true, bne_iff_ne,
        Bool.not_eq_true', beq_iff_eq]
      refine ⟨⟨⟨⟨hstate, ?_⟩, hgraph.run hi⟩, ?_⟩, Bool.not_eq_true _ ▸ hfree⟩
      · rw [hrun]
        exact hrefreshed
      · by_cases hstage : i.stage = .finalize
        · exact .inr (hrun ▸ hgate hstage)
        · exact .inl hstage
    rw [PerceptionDb.isBlocked, List.any_eq_true] at hblocked
    obtain ⟨⟨d, u⟩, hedge, hsel⟩ := hblocked
    simp only [Bool.and_eq_true, beq_iff_eq, Option.any_eq_true, bne_iff_ne] at hsel
    obtain ⟨rfl, ui, hu, hunfinished⟩ := hsel
    rw [workItemId_of_find? hi] at hedge
    have hafter : (db.refreshReady refreshed current).2.items.find? u =
        some (if db.isReleased refreshed ui then { ui with state := .ready, updatedAt := current }
          else ui) := by
      rw [find?_refreshReady, hu, Option.map_some]
    refine ⟨u, _, hedge, hafter, ?_⟩
    split
    · simp
    · exact hunfinished

end Transfer

end Robata.Perception
