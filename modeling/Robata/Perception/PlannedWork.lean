import Robata.Perception.BarrierGraph

/-!
# Adding work to the graph

A registration adds a whole run, or verifies the run that is there; the scheduling of
derived work adds one item between a reconciliation item and `FINALIZE`.  Both only add rows
of one run that is not sealed.
-/

namespace Robata.Perception

open Lib List
open KeyedTable (find?_of_insert? insert?_eq_some)

/-! ## The loops of a registration -/

section Loops

variable {db db' : PerceptionDb}

theorem registerContext_spec {c : DurablePerceptionContext} (h : db.registerContext c = .ok db') :
    (db'.runs = db.runs ∧ db'.items = db.items ∧ db'.dependencies = db.dependencies ∧
      db'.attempts = db.attempts) ∧
      (∀ {k d}, db.contexts.find? k = some d → db'.contexts.find? k = some d) ∧
      db'.contexts.find? (c.runKey, c.focusSegmentOrdinal) = some c ∧
      (db.KeysUnique → db'.KeysUnique) := by
  unfold PerceptionDb.registerContext at h
  split at h
  · unfold PerceptionDb.insertContext at h
    rw [raiseIf_bind_eq_ok, Bool.or_eq_false_iff] at h
    obtain ⟨⟨_, hfree⟩, h⟩ := h
    split at h
    · rename_i contexts hinsert
      cases h
      obtain ⟨hnone, hrows⟩ := insert?_eq_some hinsert
      refine ⟨⟨rfl, rfl, rfl, rfl⟩, fun {k d} hd => ?_, ?_, fun hunique => ?_⟩
      · rw [find?_of_insert? hinsert, if_neg, hd]
        rintro rfl
        rw [hnone] at hd
        cases hd
      · rw [find?_of_insert? hinsert, if_pos rfl]
      · rw [any_eq_false] at hfree
        simp only [Bool.and_eq_true, beq_iff_eq, not_and] at hfree
        intro a ha b hb hrun hkey
        rw [hrows, mem_append, mem_singleton] at ha hb
        rcases ha with ha | rfl <;> rcases hb with hb | rfl
        · exact hunique a ha b hb hrun hkey
        · exact absurd hkey (hfree a ha hrun)
        · exact absurd hkey.symm (hfree b hb hrun.symm)
        · rfl
    · cases h
  · rename_i existing hfind
    rw [raiseIf_bind_eq_ok, bne_eq_false_iff_eq] at h
    obtain ⟨rfl, h⟩ := h
    cases h
    exact ⟨⟨rfl, rfl, rfl, rfl⟩, id, hfind, id⟩

theorem registerContexts_spec {contexts : List DurablePerceptionContext} :
    ∀ {db db' : PerceptionDb}, contexts.foldlM PerceptionDb.registerContext db = .ok db' →
      (db'.runs = db.runs ∧ db'.items = db.items ∧ db'.dependencies = db.dependencies ∧
        db'.attempts = db.attempts) ∧
      (∀ {k d}, db.contexts.find? k = some d → db'.contexts.find? k = some d) ∧
      (∀ c ∈ contexts, db'.contexts.find? (c.runKey, c.focusSegmentOrdinal) = some c) ∧
      (db.KeysUnique → db'.KeysUnique) := by
  induction contexts with
  | nil =>
    intro db db' h
    cases h
    exact ⟨⟨rfl, rfl, rfl, rfl⟩, id, (fun c hc => (by cases hc)), id⟩
  | cons c rest ih =>
    intro db db' h
    rw [foldlM_cons, bind_eq_ok] at h
    obtain ⟨mid, hmid, h⟩ := h
    obtain ⟨⟨hruns, hitems, hdeps, hattempts⟩, hkept, hfound, hunique⟩ := registerContext_spec hmid
    obtain ⟨⟨hruns', hitems', hdeps', hattempts'⟩, hkept', hfound', hunique'⟩ := ih h
    refine ⟨⟨hruns'.trans hruns, hitems'.trans hitems, hdeps'.trans hdeps,
      hattempts'.trans hattempts⟩, fun hd => hkept' (hkept hd), ?_,
      fun hu => hunique' (hunique hu)⟩
    exact forall_mem_cons.mpr ⟨hkept' hfound, hfound'⟩

/-- The items of `db'` are those of `db` and new items of `work`, of which all are there. -/
structure Holds (work : List DurablePerceptionWorkItem) (db db' : PerceptionDb) : Prop where
  runs : db'.runs = db.runs
  contexts : db'.contexts = db.contexts
  dependencies : db'.dependencies = db.dependencies
  attempts : db'.attempts = db.attempts
  kept : ∀ {id i}, db.items.find? id = some i → db'.items.find? id = some i
  held : ∀ w ∈ work, ∃ i, db'.items.find? w.workItemId = some i ∧ i.toWorkPlan = w.toWorkPlan
  fresh : ∀ {id i}, db'.items.find? id = some i →
    db.items.find? id = some i ∨ i ∈ work ∧ db.items.find? id = none ∧
      (db.runs.find? i.runKey).isSome = true

theorem insertOrVerifyWork_spec {w : DurablePerceptionWorkItem}
    (h : db.insertOrVerifyWork w = .ok db') : Holds [w] db db' := by
  unfold PerceptionDb.insertOrVerifyWork at h
  split at h
  · rename_i existing hfind
    rw [raiseIf_bind_eq_ok, bne_eq_false_iff_eq] at h
    obtain ⟨hplan, h⟩ := h
    cases h
    have hitem := KeyedTable.mem_rows_iff.mp (mem_of_find?_eq_some hfind)
    have hid : existing.workItemId = w.workItemId :=
      congrArg (fun p : WorkPlan => p.workItemId) hplan
    refine ⟨rfl, rfl, rfl, rfl, fun h => h, fun w' hw' => ?_, fun h => .inl h⟩
    rw [mem_singleton] at hw'
    subst hw'
    exact ⟨existing, hid ▸ hitem, hplan⟩
  · unfold PerceptionDb.insertItem at h
    rw [raiseIf_bind_eq_ok, Bool.or_eq_false_iff] at h
    obtain ⟨⟨hrun, _⟩, h⟩ := h
    split at h
    · rename_i items hinsert
      cases h
      obtain ⟨hnone, _⟩ := insert?_eq_some hinsert
      refine ⟨rfl, rfl, rfl, rfl, fun {id i} hi => ?_, fun w' hw' => ?_, fun {id i} hi => ?_⟩
      · rw [find?_of_insert? hinsert, if_neg, hi]
        rintro rfl
        cases hnone.symm.trans hi
      · rw [mem_singleton] at hw'
        subst hw'
        refine ⟨w', ?_, rfl⟩
        rw [find?_of_insert? hinsert, if_pos rfl]
      · rw [find?_of_insert? hinsert] at hi
        split at hi
        · rename_i hid
          cases hi
          refine .inr ⟨mem_singleton_self _, hid ▸ hnone, ?_⟩
          rw [Option.isNone_eq_false_iff] at hrun
          exact hrun
        · exact .inl hi
    · cases h

theorem Holds.trans {w : DurablePerceptionWorkItem} {rest : List DurablePerceptionWorkItem}
    {mid : PerceptionDb} (h : Holds [w] db mid) (h' : Holds rest mid db') :
    Holds (w :: rest) db db' where
  runs := h'.runs.trans h.runs
  contexts := h'.contexts.trans h.contexts
  dependencies := h'.dependencies.trans h.dependencies
  attempts := h'.attempts.trans h.attempts
  kept hi := h'.kept (h.kept hi)
  held := by
    refine forall_mem_cons.mpr ⟨?_, h'.held⟩
    obtain ⟨i, hi, hplan⟩ := h.held w (mem_singleton_self w)
    exact ⟨i, h'.kept hi, hplan⟩
  fresh {id i} hi := by
    rcases h'.fresh hi with hmid | ⟨hrest, hnone, hrun⟩
    · rcases h.fresh hmid with hold | ⟨hw, hnone, hrun⟩
      · exact .inl hold
      · rw [mem_singleton] at hw
        exact .inr ⟨hw ▸ mem_cons_self, hnone, hrun⟩
    · refine .inr ⟨mem_cons_of_mem _ hrest, ?_, h.runs ▸ hrun⟩
      cases hold : db.items.find? id with
      | none => rfl
      | some i' => cases hnone.symm.trans (h.kept hold)

theorem insertWorks_spec {work : List DurablePerceptionWorkItem} :
    ∀ {db db' : PerceptionDb}, work.foldlM PerceptionDb.insertOrVerifyWork db = .ok db' →
      Holds work db db' := by
  induction work with
  | nil =>
    intro db db' h
    cases h
    exact ⟨rfl, rfl, rfl, rfl, id, (fun w hw => (by cases hw)), .inl⟩
  | cons w rest ih =>
    intro db db' h
    rw [foldlM_cons, bind_eq_ok] at h
    obtain ⟨mid, hmid, h⟩ := h
    exact (insertOrVerifyWork_spec hmid).trans (ih h)

/-- The edges of `db'` are those of `db` and those of a list. -/
structure Links (edges : List (String × String)) (db db' : PerceptionDb) : Prop where
  runs : db'.runs = db.runs
  contexts : db'.contexts = db.contexts
  items : db'.items = db.items
  attempts : db'.attempts = db.attempts
  edge : ∀ d u, db'.Edge d u ↔ db.Edge d u ∨ (d, u) ∈ edges

theorem dependency_spec {d u : String} (h : db.dependency d u = .ok db') :
    Links [(d, u)] db db' := by
  unfold PerceptionDb.dependency at h
  split at h
  · rename_i hfound
    cases h
    refine ⟨rfl, rfl, rfl, rfl, fun d' u' => ?_⟩
    obtain ⟨e, he⟩ := Option.isSome_iff_exists.mp hfound
    have hkey : e = (d, u) := (KeyedTable.find?_eq_some_iff.mp he).2
    rw [mem_singleton]
    refine ⟨.inl, fun hor => hor.elim id fun hsame => ?_⟩
    show (d', u') ∈ db.dependencies.rows
    rw [hsame, ← hkey]
    exact KeyedTable.mem_of_find? he
  · obtain ⟨_, h⟩ := raiseIf_bind_eq_ok.mp h
    split at h
    · rename_i dependencies hinsert
      cases h
      refine ⟨rfl, rfl, rfl, rfl, fun d' u' => ?_⟩
      show (d', u') ∈ dependencies.rows ↔ _
      rw [(insert?_eq_some hinsert).2, mem_append]
      exact Iff.rfl
    · cases h

theorem Links.trans {e : String × String} {rest : List (String × String)} {mid : PerceptionDb}
    (h : Links [e] db mid) (h' : Links rest mid db') : Links (e :: rest) db db' where
  runs := h'.runs.trans h.runs
  contexts := h'.contexts.trans h.contexts
  items := h'.items.trans h.items
  attempts := h'.attempts.trans h.attempts
  edge d u := by
    rw [h'.edge, h.edge, mem_singleton, mem_cons]
    exact or_assoc

theorem links_spec {edges : List (String × String)} :
    ∀ {db db' : PerceptionDb},
      edges.foldlM (fun (db : PerceptionDb) edge => db.dependency edge.1 edge.2) db = .ok db' →
        Links edges db db' := by
  induction edges with
  | nil =>
    intro db db' h
    cases h
    exact ⟨rfl, rfl, rfl, rfl, fun d u => by simp⟩
  | cons e rest ih =>
    intro db db' h
    rw [foldlM_cons, bind_eq_ok] at h
    obtain ⟨mid, hmid, h⟩ := h
    exact (dependency_spec hmid).trans (ih h)

end Loops

/-! ## One graph -/

section Same

variable {S : SchedulerHashing} {db db' : PerceptionDb}

/-- The same rows, but for contexts that are added. -/
structure SameGraph (db db' : PerceptionDb) : Prop where
  runs : db'.runs = db.runs
  items : ∀ id, db'.items.find? id = db.items.find? id
  edge : ∀ d u, db'.Edge d u ↔ db.Edge d u
  attempts : db'.attempts = db.attempts
  contexts : ∀ {k c}, db.contexts.find? k = some c → db'.contexts.find? k = some c
  keys : db.KeysUnique → db'.KeysUnique

theorem SameGraph.isSealed (hsame : SameGraph db db') : db'.isSealed = db.isSealed := by
  unfold PerceptionDb.isSealed
  rw [hsame.runs]

theorem GraphInv.of_same (h : GraphInv S db) (hsame : SameGraph db db') : GraphInv S db' := by
  constructor
  · intro id i hi
    rw [hsame.runs]
    exact h.run (hsame.items id ▸ hi)
  · exact hsame.keys h.keys
  · intro d u hdu
    simp only [hsame.items]
    exact h.edge ((hsame.edge d u).mp hdu)
  · intro d u di ui hdu hd hu
    rw [hsame.items] at hd hu
    exact h.waits ((hsame.edge d u).mp hdu) hd hu
  · intro id i hi
    rw [hsame.items] at hi
    rw [hsame.isSealed]
    exact h.gate hi
  · intro fid f id i hf hi
    rw [hsame.items] at hf hi
    rw [hsame.edge]
    exact h.barrier hf hi
  · intro id i id' i' hi hi'
    rw [hsame.items] at hi hi'
    exact h.unique hi hi'
  · intro id i hi
    rw [hsame.items] at hi
    exact h.finalKey hi
  · intro id i tid t hi ht
    rw [hsame.items] at hi ht
    rw [hsame.edge]
    exact h.fusion hi ht
  · intro id i hi
    rw [hsame.items] at hi
    simp only [hsame.edge]
    exact h.refine hi
  · intro key run hrun
    rw [hsame.runs] at hrun
    obtain ⟨contexts, hordinals, hcontexts, hitems, hedges⟩ := h.complete hrun
    refine ⟨contexts, hordinals, fun c hc => hsame.contexts (hcontexts c hc), fun n hn => ?_,
      fun edges hok e he => (hsame.edge _ _).mpr (hedges edges hok e he)⟩
    rw [hsame.items]
    exact hitems n hn

theorem BlockedFor.of_same {runKey : String} (h : BlockedFor db runKey)
    (hsame : SameGraph db db') : BlockedFor db' runKey := by
  intro id i hi hrun hstate hgate
  rw [hsame.items] at hi
  rw [hsame.isSealed] at hgate
  obtain ⟨u, ui, hedge, hu, hunfinished⟩ := h id i hi hrun hstate hgate
  exact ⟨u, ui, (hsame.edge _ _).mpr hedge, (hsame.items u).trans hu, hunfinished⟩

theorem LifeInv.of_same (h : LifeInv db) (hsame : SameGraph db db') : LifeInv db' := by
  have hatt : db'.attemptsOf = db.attemptsOf := by
    unfold PerceptionDb.attemptsOf
    rw [hsame.attempts]
  constructor
  · intro id i hi
    rw [hatt]
    exact h.items (hsame.items id ▸ hi)
  · intro id n hn
    rw [hsame.items]
    exact h.attempts (hatt ▸ hn)

end Same

/-! ## Rows of one open run -/

section Open

variable {S : SchedulerHashing} {db db' : PerceptionDb}

/-- New planned items of one run, that has no other items of their kind. -/
structure Adds (runKey : String) (db db' : PerceptionDb) : Prop where
  attempts : db'.attempts = db.attempts
  kept : ∀ {id i}, db.items.find? id = some i → db'.items.find? id = some i
  fresh : ∀ {id i}, db'.items.find? id = some i →
    db.items.find? id = some i ∨ db.items.find? id = none ∧ i.runKey = runKey ∧
      i.state = .planned ∧ i.attempt = 0 ∧ i.leaseEpoch = 0 ∧ 0 < i.maxAttempts
  sealed_iff : ∀ key, db'.isSealed key = db.isSealed key
  edges : ∀ {d u}, db.Edge d u → db'.Edge d u

theorem LifeInv.adds (h : LifeInv db) {runKey : String} (hadds : Adds runKey db db') :
    LifeInv db' := by
  have hatt : db'.attemptsOf = db.attemptsOf := by
    unfold PerceptionDb.attemptsOf
    rw [hadds.attempts]
  constructor
  · intro id i hi
    rw [hatt]
    rcases hadds.fresh hi with hold | ⟨hnone, _, hstate, hattempt, hepoch, hmax⟩
    · exact h.items hold
    · refine ItemLife.fresh (fun n => ?_) hstate hattempt hepoch hmax
      cases ha : db.attemptsOf id n with
      | none => rfl
      | some a =>
        have hitem := @h.attempts id n (by rw [ha]; rfl)
        rw [hnone] at hitem
        cases hitem
  · intro id n hn
    rw [hatt] at hn
    obtain ⟨i, hi⟩ := Option.isSome_iff_exists.mp (h.attempts hn)
    exact Option.isSome_iff_exists.mpr ⟨i, hadds.kept hi⟩

theorem BlockedFor.adds {runKey key : String} (h : BlockedFor db key)
    (hadds : Adds runKey db db') (hkey : key ≠ runKey) : BlockedFor db' key := by
  intro id i hi hrun hstate hgate
  rcases hadds.fresh hi with hold | ⟨_, hnew, _⟩
  · rw [hadds.sealed_iff] at hgate
    obtain ⟨u, ui, hedge, hu, hunfinished⟩ := h id i hold hrun hstate hgate
    exact ⟨u, ui, hadds.edges hedge, hadds.kept hu, hunfinished⟩
  · exact absurd (hrun.symm.trans hnew) hkey

theorem RunComplete.adds {runKey : String} {run : DurablePerceptionRun}
    (h : RunComplete S db run) (hadds : Adds runKey db db')
    (hcontexts : ∀ {k c}, db.contexts.find? k = some c → db'.contexts.find? k = some c) :
    RunComplete S db' run := by
  obtain ⟨contexts, hordinals, hfound, hitems, hedges⟩ := h
  refine ⟨contexts, hordinals, fun c hc => hcontexts (hfound c hc), fun n hn => ?_,
    fun edges hok e he => hadds.edges (hedges edges hok e he)⟩
  obtain ⟨i, hi⟩ := Option.isSome_iff_exists.mp (hitems n hn)
  exact Option.isSome_iff_exists.mpr ⟨i, hadds.kept hi⟩

end Open

end Robata.Perception
