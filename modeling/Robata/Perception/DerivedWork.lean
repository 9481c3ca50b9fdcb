import Robata.Perception.PlannedWork

/-!
# Fusion and refinement work

`schedule_derived` puts a new item between its upstream item and `FINALIZE`.  While a run is
not sealed its `FINALIZE` item is still planned, so that a new edge takes nothing back; the
replay of a request finds its item and its edges.
-/

namespace Robata.Perception

open Lib
open PerceptionDb (KeysUnique findStage isSealed)

/-! ## Sealed runs -/

/-- The immutable columns of the items of a run. -/
def PerceptionDb.runPlans (db : PerceptionDb) (runKey : String) : Set WorkPlan :=
  {p | ∃ i, db.items.find? p.workItemId = some i ∧ i.toWorkPlan = p ∧ p.runKey = runKey}

def PerceptionDb.runDependencies (db : PerceptionDb) (runKey : String) : Set (String × String) :=
  {e | db.Edge e.1 e.2 ∧ ∃ i, db.items.find? e.1 = some i ∧ i.runKey = runKey}

/-- What is sealed stays sealed, with the items and dependencies it has. -/
def Frozen (db db' : PerceptionDb) : Prop :=
  ∀ runKey, db.isSealed runKey = true → db'.isSealed runKey = true ∧
    db'.runPlans runKey = db.runPlans runKey ∧
    db'.runDependencies runKey = db.runDependencies runKey

theorem Frozen.refl (db : PerceptionDb) : Frozen db db := fun _ h => ⟨h, rfl, rfl⟩

theorem Frozen.trans {db db' db'' : PerceptionDb} (h : Frozen db db') (h' : Frozen db' db'') :
    Frozen db db'' := by
  intro runKey hsealed
  obtain ⟨hmid, hplans, hdeps⟩ := h runKey hsealed
  obtain ⟨hlast, hplans', hdeps'⟩ := h' runKey hmid
  exact ⟨hlast, hplans'.trans hplans, hdeps'.trans hdeps⟩

section Frozen

variable {S : SchedulerHashing} {db db' : PerceptionDb}

/-- What is new belongs to open runs, and the items that were there are the same up to their
state. -/
theorem Frozen.of_open (hsealed : ∀ key, db.isSealed key = true → db'.isSealed key = true)
    (hkept : ∀ {id i}, db.items.find? id = some i →
      ∃ j, db'.items.find? id = some j ∧ j.toWorkPlan = i.toWorkPlan)
    (hfresh : ∀ {id j}, db'.items.find? id = some j →
      (∃ i, db.items.find? id = some i) ∨ db.isSealed j.runKey = false)
    (hedges : ∀ {d u}, db.Edge d u → db'.Edge d u)
    (hnew : ∀ {d u}, db'.Edge d u → db.Edge d u ∨
      ∃ j, db'.items.find? d = some j ∧ db.isSealed j.runKey = false) : Frozen db db' := by
  intro key hkey
  have hnot : ∀ {other}, other = key → db.isSealed other ≠ false := by
    rintro _ rfl hopen
    cases hopen.symm.trans hkey
  -- an item of the sealed run is an old one
  have hold : ∀ {id j}, db'.items.find? id = some j → j.runKey = key →
      ∃ i, db.items.find? id = some i ∧ j.toWorkPlan = i.toWorkPlan := by
    intro id j hj hrun
    rcases hfresh hj with ⟨i, hi⟩ | hnew
    · obtain ⟨j', hj', hplan⟩ := hkept hi
      cases hj.symm.trans hj'
      exact ⟨i, hi, hplan⟩
    · exact absurd hnew (hnot hrun)
  refine ⟨hsealed key hkey, ?_, ?_⟩
  · ext p
    constructor
    · rintro ⟨j, hj, rfl, hrun⟩
      obtain ⟨i, hi, hplan⟩ := hold hj hrun
      exact ⟨i, hi, hplan.symm, hrun⟩
    · rintro ⟨i, hi, rfl, hrun⟩
      obtain ⟨j, hj, hplan⟩ := hkept hi
      exact ⟨j, hj, hplan, hrun⟩
  · ext ⟨d, u⟩
    constructor
    · rintro ⟨hedge, j, hj, hrun⟩
      obtain ⟨i, hi, hplan⟩ := hold hj hrun
      refine ⟨?_, i, hi, (congrArg WorkPlan.runKey hplan).symm.trans hrun⟩
      rcases hnew hedge with hold | ⟨j', hj', hrun'⟩
      · exact hold
      · cases hj.symm.trans hj'
        exact absurd hrun' (hnot hrun)
    · rintro ⟨hedge, i, hi, hrun⟩
      obtain ⟨j, hj, hplan⟩ := hkept hi
      exact ⟨hedges hedge, j, hj, (congrArg WorkPlan.runKey hplan).trans hrun⟩

theorem Frozen.of_kept (hsealed : ∀ key, db.isSealed key = true → db'.isSealed key = true)
    (hkept : ∀ {id i}, db.items.find? id = some i →
      ∃ j, db'.items.find? id = some j ∧ j.toWorkPlan = i.toWorkPlan)
    (hfresh : ∀ {id j}, db'.items.find? id = some j → ∃ i, db.items.find? id = some i)
    (hedge : ∀ {d u}, db'.Edge d u ↔ db.Edge d u) : Frozen db db' :=
  .of_open hsealed hkept (fun hj => .inl (hfresh hj)) hedge.mpr fun hdu => .inl (hedge.mp hdu)

theorem Frozen.of_advances (h : Advances db db') : Frozen db db' := by
  refine Frozen.of_kept (fun key hkey => ?_) (fun hi => ?_) (fun hj => ?_) fun {d u} => ?_
  · unfold isSealed at hkey ⊢
    rw [h.runs]
    exact hkey
  · obtain ⟨j, hj⟩ := h.after hi
    obtain ⟨i', hi', hplan, _⟩ := h.before hj
    cases hi.symm.trans hi'
    exact ⟨j, hj, hplan⟩
  · obtain ⟨i, hi, _⟩ := h.before hj
    exact ⟨i, hi⟩
  · unfold PerceptionDb.Edge
    rw [h.dependencies]

theorem Frozen.of_same (h : SameGraph db db') : Frozen db db' := by
  refine Frozen.of_kept (fun key hkey => ?_) (fun {id i} hi => ?_) (fun {id j} hj => ?_)
    fun {d u} => h.edge d u
  · rw [h.isSealed]
    exact hkey
  · exact ⟨i, (h.items id).trans hi, rfl⟩
  · exact ⟨j, (h.items id).symm.trans hj⟩

end Frozen

/-- The tables before a refresh: the invariant holds but for the refreshed run. -/
structure Grown (S : SchedulerHashing) (runKey : String) (db db' : PerceptionDb) : Prop where
  graph : GraphInv S db'
  life : LifeInv db'
  blocked : ∀ key, key ≠ runKey → BlockedFor db key → BlockedFor db' key
  frozen : Frozen db db'

theorem Grown.of_same {S : SchedulerHashing} {runKey : String} {db db' : PerceptionDb}
    (hgraph : GraphInv S db) (hlife : LifeInv db) (hsame : SameGraph db db') :
    Grown S runKey db db' where
  graph := hgraph.of_same hsame
  life := hlife.of_same hsame
  blocked _ _ hblocked := hblocked.of_same hsame
  frozen := .of_same hsame

/-! ## One derived item -/

section Derived

variable {S : SchedulerHashing} {db db' : PerceptionDb}

/-- The tables after the statements of `schedule_derived`. -/
structure Derived (db db' : PerceptionDb) (runKey : String)
    (item up final : DurablePerceptionWorkItem) : Prop where
  runs : db'.runs = db.runs
  contexts : db'.contexts = db.contexts
  attempts : db'.attempts = db.attempts
  kept : ∀ {id i}, db.items.find? id = some i → db'.items.find? id = some i
  held : ∃ i, db'.items.find? item.workItemId = some i ∧ i.toWorkPlan = item.toWorkPlan
  fresh : ∀ {id i}, db'.items.find? id = some i →
    db.items.find? id = some i ∨ i = item ∧ db.items.find? id = none
  edge : ∀ d u, db'.Edge d u ↔ db.Edge d u ∨
    (d, u) = (item.workItemId, up.workItemId) ∨ (d, u) = (final.workItemId, item.workItemId)
  runExists : (db.runs.find? runKey).isSome = true
  isOpen : db.isSealed runKey = false
  itemRun : item.runKey = runKey
  itemKey : item.contextKey ≠ none
  itemNew : item.state = .planned ∧ item.attempt = 0 ∧ item.leaseEpoch = 0 ∧ 0 < item.maxAttempts
  upFound : db'.items.find? up.workItemId = some up
  upRun : up.runKey = runKey
  upKey : up.contextKey = item.contextKey
  kinds : item.stage = .fusion ∧ up.stage = .temporalReconcile ∨
    item.stage = .perceptionRefine ∧ up.stage = .fusion ∧
      item.derivedFromWorkItemId = some up.workItemId
  finalFound : db'.items.find? final.workItemId = some final
  finalRun : final.runKey = runKey
  finalStage : final.stage = .finalize

namespace Derived

variable {runKey : String} {item up final : DurablePerceptionWorkItem}

variable (h : Derived db db' runKey item up final)
include h

theorem item_not_normal :
    item.stage ∈ exceptionStages ∧ item.stage ∈ barrierStages ∧ item.stage ≠ .finalize ∧
      item.stage ≠ .temporalReconcile := by
  rcases h.kinds with ⟨hstage, _⟩ | ⟨hstage, _⟩ <;> rw [hstage] <;> decide

theorem up_old : db.items.find? up.workItemId = some up := by
  rcases h.fresh h.upFound with hold | ⟨hsame, _⟩
  · exact hold
  · rcases h.kinds with ⟨hstage, hup⟩ | ⟨hstage, hup, _⟩ <;>
      rw [hsame, hstage] at hup <;> cases hup

theorem final_old : db.items.find? final.workItemId = some final := by
  rcases h.fresh h.finalFound with hold | ⟨hsame, _⟩
  · exact hold
  · exact absurd (hsame ▸ h.finalStage) h.item_not_normal.2.2.1

theorem same (hgraph : GraphInv S db)
    {i : DurablePerceptionWorkItem} (hi : db.items.find? item.workItemId = some i) :
    SameGraph db db' := by
  have hplan : i.toWorkPlan = item.toWorkPlan := by
    obtain ⟨i', hi', hplan⟩ := h.held
    cases (h.kept hi).symm.trans hi'
    exact hplan
  have hrun : i.runKey = runKey := (congrArg WorkPlan.runKey hplan).trans h.itemRun
  have hstage : i.stage = item.stage := congrArg (fun p : WorkPlan => p.stage) hplan
  have hkey : i.contextKey = item.contextKey := congrArg (fun p : WorkPlan => p.contextKey) hplan
  have hup : db.Edge item.workItemId up.workItemId := by
    rcases h.kinds with ⟨hfusion, htemporal⟩ | ⟨hrefine, _, hderived⟩
    · exact hgraph.fusion hi h.up_old (hstage.trans hfusion) htemporal (h.upRun.trans hrun.symm)
        (h.upKey.trans hkey.symm)
    · obtain ⟨u, hu, hedge⟩ := hgraph.refine hi (hstage.trans hrefine)
      rw [congrArg WorkPlan.derivedFromWorkItemId hplan, hderived, Option.some.injEq] at hu
      exact hu ▸ hedge
  have hfinal : db.Edge final.workItemId item.workItemId :=
    hgraph.barrier h.final_old hi h.finalStage (hstage ▸ h.item_not_normal.2.1)
      (hrun.trans h.finalRun.symm)
  refine ⟨h.runs, fun id => ?_, fun d u => ?_, h.attempts, fun {k c} hc => ?_, fun hkeys => ?_⟩
  · cases hafter : db'.items.find? id with
    | none =>
      cases hbefore : db.items.find? id with
      | none => rfl
      | some i' => cases (h.kept hbefore).symm.trans hafter
    | some j =>
      rcases h.fresh hafter with hold | ⟨rfl, hnone⟩
      · exact hold.symm
      · rw [← workItemId_of_find? hafter, hi] at hnone
        cases hnone
  · rw [h.edge]
    refine ⟨fun hor => ?_, .inl⟩
    rcases hor with hold | hsame | hsame
    · exact hold
    · cases hsame
      exact hup
    · cases hsame
      exact hfinal
  · rw [h.contexts]
    exact hc
  · unfold KeysUnique
    rw [h.contexts]
    exact hkeys

theorem isSealed_eq : db'.isSealed = db.isSealed := by
  unfold isSealed
  rw [h.runs]

theorem adds (hnone : db.items.find? item.workItemId = none) : Adds runKey db db' where
  attempts := h.attempts
  kept := h.kept
  fresh {id i} hi := by
    rcases h.fresh hi with hold | ⟨rfl, hfree⟩
    · exact .inl hold
    · exact .inr ⟨hfree, h.itemRun, h.itemNew⟩
  sealed_iff key := by rw [h.isSealed_eq]
  edges hedge := (h.edge _ _).mpr (.inl hedge)

theorem graph (hgraph : GraphInv S db)
    (hnone : db.items.find? item.workItemId = none) : GraphInv S db' := by
  have hitem : db'.items.find? item.workItemId = some item := by
    obtain ⟨i, hi, _⟩ := h.held
    rcases h.fresh hi with hold | ⟨rfl, _⟩
    · cases hnone.symm.trans hold
    · exact hi
  obtain ⟨hexception, hbarrier, hnotFinal, hnotTemporal⟩ := h.item_not_normal
  have hadds := h.adds hnone
  -- an item found afterwards is an old one, or the new one
  have hcases : ∀ {id i}, db'.items.find? id = some i →
      db.items.find? id = some i ∨ i = item ∧ id = item.workItemId := by
    intro id i hi
    rcases h.fresh hi with hold | ⟨hsame, _⟩
    · exact .inl hold
    · subst hsame
      exact .inr ⟨rfl, (workItemId_of_find? hi).symm⟩
  have hfinalPlanned : final.state = .planned := by
    by_contra hstate
    have hsealed := hgraph.gate h.final_old h.finalStage hstate
    rw [h.finalRun, h.isOpen] at hsealed
    cases hsealed
  constructor
  · intro id i hi
    rw [h.runs]
    rcases hcases hi with hold | ⟨rfl, _⟩
    · exact hgraph.run hold
    · rw [h.itemRun]
      exact h.runExists
  · unfold KeysUnique
    rw [h.contexts]
    exact hgraph.keys
  · intro d u hdu
    rcases (h.edge d u).mp hdu with hold | hsame | hsame
    · obtain ⟨di, ui, hd, hu, hrest⟩ := hgraph.edge hold
      exact ⟨di, ui, h.kept hd, h.kept hu, hrest⟩
    · cases hsame
      refine ⟨item, up, hitem, h.upFound, h.upRun.trans h.itemRun.symm, rank_lt_of_stage ?_⟩
      rcases h.kinds with ⟨hstage, hup⟩ | ⟨hstage, hup, _⟩ <;> rw [hstage, hup] <;> decide
    · cases hsame
      refine ⟨final, item, h.finalFound, hitem, h.itemRun.trans h.finalRun.symm,
        rank_lt_of_stage ?_⟩
      rcases h.kinds with ⟨hstage, _⟩ | ⟨hstage, _⟩ <;> rw [hstage, h.finalStage] <;> decide
  · intro d u di ui hdu hd hu hstate
    rcases (h.edge d u).mp hdu with hold | hsame | hsame
    · obtain ⟨di', ui', hd', hu', _⟩ := hgraph.edge hold
      cases hd.symm.trans (h.kept hd')
      cases hu.symm.trans (h.kept hu')
      exact hgraph.waits hold hd' hu' hstate
    · cases hsame
      cases hd.symm.trans hitem
      exact absurd h.itemNew.1 hstate
    · cases hsame
      cases hd.symm.trans h.finalFound
      exact absurd hfinalPlanned hstate
  · intro id i hi hstage hstate
    rw [h.isSealed_eq]
    rcases hcases hi with hold | ⟨rfl, _⟩
    · exact hgraph.gate hold hstage hstate
    · exact absurd hstage hnotFinal
  · intro fid f id i hf hi hstage hwaits hrun
    rcases hcases hf with hfold | ⟨rfl, _⟩
    · rcases hcases hi with hold | ⟨rfl, rfl⟩
      · exact hadds.edges (hgraph.barrier hfold hold hstage hwaits hrun)
      · -- the `FINALIZE` item of the run is the one that was found
        have hsame : fid = final.workItemId := by
          refine hgraph.unique hfold h.final_old (hrun.symm.trans (h.itemRun.trans h.finalRun.symm))
            ?_ (hstage.trans h.finalStage.symm) (by rw [hstage]; decide)
          rw [hgraph.finalKey hfold hstage, hgraph.finalKey h.final_old h.finalStage]
        rw [hsame]
        exact (h.edge _ _).mpr (.inr (.inr rfl))
    · exact absurd hstage hnotFinal
  · intro id i id' i' hi hi' hrun hkey hstage hnormal
    rcases hcases hi with hold | ⟨rfl, _⟩
    · rcases hcases hi' with hold' | ⟨rfl, _⟩
      · exact hgraph.unique hold hold' hrun hkey hstage hnormal
      · exact absurd (hstage ▸ hexception) hnormal
    · exact absurd hexception hnormal
  · intro id i hi hstage
    rcases hcases hi with hold | ⟨rfl, _⟩
    · exact hgraph.finalKey hold hstage
    · exact absurd hstage hnotFinal
  · intro id i tid t hi ht hstage htstage hrun hkey
    rcases hcases ht with htold | ⟨rfl, _⟩
    · rcases hcases hi with hold | ⟨rfl, rfl⟩
      · exact hadds.edges (hgraph.fusion hold htold hstage htstage hrun hkey)
      · rcases h.kinds with ⟨_, hup⟩ | ⟨hrefine, _⟩
        · have hsame : tid = up.workItemId :=
            hgraph.unique htold h.up_old (hrun.trans (h.itemRun.trans h.upRun.symm))
              (hkey.trans h.upKey.symm) (htstage.trans hup.symm) (by rw [htstage]; decide)
          rw [hsame]
          exact (h.edge _ _).mpr (.inr (.inl rfl))
        · rw [hstage] at hrefine
          cases hrefine
    · exact absurd htstage hnotTemporal
  · intro id i hi hstage
    rcases hcases hi with hold | ⟨rfl, rfl⟩
    · obtain ⟨u, hu, hedge⟩ := hgraph.refine hold hstage
      exact ⟨u, hu, hadds.edges hedge⟩
    · rcases h.kinds with ⟨hfusion, _⟩ | ⟨_, _, hderived⟩
      · rw [hstage] at hfusion
        cases hfusion
      · exact ⟨up.workItemId, hderived, (h.edge _ _).mpr (.inr (.inl rfl))⟩
  · intro key run hrun
    rw [h.runs] at hrun
    refine (hgraph.complete hrun).adds hadds fun hc => ?_
    rw [h.contexts]
    exact hc

theorem grown (hgraph : GraphInv S db) (hlife : LifeInv db) : Grown S runKey db db' := by
  cases hi : db.items.find? item.workItemId with
  | some i => exact .of_same hgraph hlife (h.same hgraph hi)
  | none =>
    have hadds := h.adds hi
    refine ⟨h.graph hgraph hi, hlife.adds hadds, fun key hkey hblocked =>
      hblocked.adds hadds hkey, Frozen.of_open (fun key hsealed => ?_)
      (fun hi => ⟨_, h.kept hi, rfl⟩) (fun {id j} hj => ?_) hadds.edges fun {d u} hdu => ?_⟩
    · rw [h.isSealed_eq]
      exact hsealed
    · rcases h.fresh hj with hold | ⟨rfl, _⟩
      · exact .inl ⟨j, hold⟩
      · exact .inr (h.itemRun ▸ h.isOpen)
    · rcases (h.edge d u).mp hdu with hold | hsame | hsame
      · exact .inl hold
      · cases hsame
        obtain ⟨i, hi, hplan⟩ := h.held
        have hrun : i.runKey = runKey := (congrArg WorkPlan.runKey hplan).trans h.itemRun
        exact .inr ⟨i, hi, hrun ▸ h.isOpen⟩
      · cases hsame
        exact .inr ⟨final, h.finalFound, h.finalRun ▸ h.isOpen⟩

end Derived

theorem findStage_spec {runKey : String} {key : Option String} {stage : PerceptionStage}
    {i : DurablePerceptionWorkItem} (h : db.findStage runKey key stage = .ok i) :
    db.items.find? i.workItemId = some i ∧ i.runKey = runKey ∧ i.contextKey = key ∧
      i.stage = stage := by
  unfold findStage at h
  split at h
  · rename_i item hfind
    cases h
    have hsel := List.find?_some hfind
    simp only [Bool.and_eq_true, beq_iff_eq] at hsel
    exact ⟨KeyedTable.mem_rows_iff.mp (List.mem_of_find?_eq_some hfind), hsel.1.1, hsel.1.2, hsel.2⟩
  · cases h

theorem derivedUpstream_spec {runKey : String} {context : DurablePerceptionContext}
    {upstream : Option String} {up : DurablePerceptionWorkItem}
    (h : db.derivedUpstream runKey context upstream = .ok up) :
    db.items.find? up.workItemId = some up ∧ up.runKey = runKey ∧
      up.contextKey = some context.contextKey ∧
      (upstream = none ∧ up.stage = .temporalReconcile ∨
        upstream = some up.workItemId ∧ up.stage = .fusion) := by
  cases upstream with
  | none =>
    obtain ⟨hfind, hrun, hkey, hstage⟩ := findStage_spec h
    exact ⟨hfind, hrun, hkey, .inl ⟨rfl, hstage⟩⟩
  | some id =>
    unfold PerceptionDb.derivedUpstream at h
    simp only [bind_eq_ok, raiseIf_eq_ok, Bool.or_eq_false_iff, bne_eq_false_iff_eq] at h
    obtain ⟨_, _, i, hload, _, ⟨⟨hrun, hkey⟩, hstage⟩, h⟩ := h
    cases h
    have hfind := loadItem_eq_ok.mp hload
    have hid := workItemId_of_find? hfind
    exact ⟨hid ▸ hfind, hrun, hkey, .inr ⟨by rw [hid], hstage⟩⟩

theorem scheduleDerived_spec {policy runKey inputSha256 configSha256 : String} {ordinal maxAttempts : Nat}
    {stage : PerceptionStage} {upstream : Option String} {current : Instant}
    {out : DurablePerceptionWorkItem × PerceptionDb} (hgraph : GraphInv S db) (hlife : LifeInv db)
    (h : db.scheduleDerived S policy runKey ordinal stage inputSha256 configSha256 maxAttempts
      upstream current = .ok out) :
    ∃ mid, Grown S runKey db mid ∧ out.2 = (mid.refreshReady (some runKey) current).2 := by
  unfold PerceptionDb.scheduleDerived at h
  simp only [bind_eq_ok, raiseIf_eq_ok] at h
  obtain ⟨_, hstage, _, _, _, _, _, _, _, hmax, _, _, _, hrefine, _, hfusion, run, hrun, _, hopen,
    h⟩ := h
  have hrun := loadRun_eq_ok.mp hrun
  split at h
  · cases h
  · rename_i context hcontext
    simp only [bind_eq_ok] at h
    obtain ⟨added, hadded, up, hup, linked, hlinked, final, hfinal, last, hlast, item, _, h⟩ := h
    cases h
    have hholds := insertOrVerifyWork_spec hadded
    have hfirst := dependency_spec hlinked
    have hsecond := dependency_spec hlast
    obtain ⟨hupFind, hupRun, hupKey, hupKind⟩ := derivedUpstream_spec hup
    obtain ⟨hfinalFind, hfinalRun, hfinalKey, hfinalStage⟩ := findStage_spec hfinal
    have hitems : last.items = added.items := hsecond.items.trans hfirst.items
    have hrunKey : run.runKey = runKey := KeyedTable.key_of_find? hrun
    have hexception : stage ∈ exceptionStages := by simpa using hstage
    have hderived : Derived db last runKey (workItem S policy run (some context) stage inputSha256
        configSha256 maxAttempts current upstream) up final :=
      { runs := (hsecond.runs.trans hfirst.runs).trans hholds.runs
        contexts := (hsecond.contexts.trans hfirst.contexts).trans hholds.contexts
        attempts := (hsecond.attempts.trans hfirst.attempts).trans hholds.attempts
        kept := fun hi => hitems ▸ hholds.kept hi
        held := by
          rw [hitems]
          exact hholds.held _ (List.mem_singleton_self _)
        fresh := fun {id i} hi => by
          rw [hitems] at hi
          rcases hholds.fresh hi with hold | ⟨hmem, hnone, _⟩
          · exact .inl hold
          · exact .inr ⟨List.mem_singleton.mp hmem, hnone⟩
        edge := fun d u => by
          have hsame : added.Edge d u ↔ db.Edge d u := by
            unfold PerceptionDb.Edge
            rw [hholds.dependencies]
          rw [hsecond.edge, hfirst.edge, hsame, List.mem_singleton, List.mem_singleton]
          exact or_assoc
        runExists := Option.isSome_iff_exists.mpr ⟨run, hrun⟩
        isOpen := by
          unfold isSealed
          rw [hrun]
          exact hopen
        itemRun := hrunKey
        itemKey := Option.some_ne_none _
        itemNew := by
          refine ⟨rfl, rfl, rfl, ?_⟩
          unfold requirePositive at hmax
          rw [raiseIf_eq_ok, beq_eq_false_iff_ne] at hmax
          exact Nat.pos_of_ne_zero hmax
        upFound := hitems ▸ hupFind
        upRun := hupRun
        upKey := hupKey
        kinds := by
          have hkind : stage = .fusion ∨ stage = .perceptionRefine := by
            simpa [exceptionStages] using hexception
          rcases hkind with rfl | rfl
          · rcases hupKind with ⟨_, hupStage⟩ | ⟨hsome, _⟩
            · exact .inl ⟨rfl, hupStage⟩
            · rw [hsome] at hfusion
              simp at hfusion
          · rcases hupKind with ⟨hnone, _⟩ | ⟨hsome, hupStage⟩
            · rw [hnone] at hrefine
              simp at hrefine
            · exact .inr ⟨rfl, hupStage, hsome⟩
        finalFound := by
          rw [hsecond.items]
          exact hfinalFind
        finalRun := hfinalRun
        finalStage := hfinalStage }
    exact ⟨last, hderived.grown hgraph hlife, rfl⟩

end Derived

end Robata.Perception
