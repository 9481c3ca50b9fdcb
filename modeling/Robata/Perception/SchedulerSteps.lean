import Robata.Perception.AttemptLife

/-!
# What the operations on leases do

Recovery, claims, starts, heartbeats and failures leave the graph as it is and give no item a
success; the acceptance of a result gives one item its success.  The only step that takes an
item out of `PLANNED` is the refresh.
-/

namespace Robata.Perception

open Lib
open Bool (and_eq_true)
open KeyedTable (find?_eq_some_iff find?_updateWhere key_of_find? mem_rows_iff rowcount_eq_one_iff)
open PerceptionDb (accepted attemptsOf expired isReleased leaseItem loadItem loadRun recoverItem
  succeed updateItem updateItems)

/-! ## Changes of items in place -/

/-- A change of one item: it keeps its plan and its success, and it is neither released
nor taken back. -/
structure Moves (i j : DurablePerceptionWorkItem) : Prop where
  plan : j.toWorkPlan = i.toWorkPlan
  planned : j.state = .planned ↔ i.state = .planned
  succeeded : i.state = .succeeded → j.state = .succeeded

/-- A change that is not a success either. -/
structure Rests (i j : DurablePerceptionWorkItem) : Prop extends Moves i j where
  unfinished : j.state = .succeeded → i.state = .succeeded

theorem Rests.refl (i : DurablePerceptionWorkItem) : Rests i i := ⟨⟨rfl, Iff.rfl, id⟩, id⟩

variable {i j : DurablePerceptionWorkItem}

theorem Rests.trans {k : DurablePerceptionWorkItem} (h : Rests i j) (h' : Rests j k) : Rests i k :=
  ⟨⟨h'.plan.trans h.plan, h'.planned.trans h.planned, fun hs => h'.succeeded (h.succeeded hs)⟩,
    fun hs => h.unfinished (h'.unfinished hs)⟩

/-- A change between states that are neither before the release nor a success. -/
theorem Rests.of_states (hplan : j.toWorkPlan = i.toWorkPlan)
    (hi : i.state ≠ .planned ∧ i.state ≠ .succeeded)
    (hj : j.state ≠ .planned ∧ j.state ≠ .succeeded) : Rests i j :=
  ⟨⟨hplan, iff_of_false hj.1 hi.1, fun hs => absurd hs hi.2⟩, fun hs => absurd hs hj.2⟩

theorem states_of_isActive (h : i.state.isActive = true) :
    i.state ≠ .planned ∧ i.state ≠ .succeeded := by
  constructor <;> intro hstate <;> rw [hstate] at h <;> cases h

/-- The graph is the same, and every item has changed by `R`. -/
structure InPlace (R : DurablePerceptionWorkItem → DurablePerceptionWorkItem → Prop)
    (db db' : PerceptionDb) : Prop where
  runs : db'.runs = db.runs
  contexts : db'.contexts = db.contexts
  dependencies : db'.dependencies = db.dependencies
  items : ∀ id, Option.Rel R (db.items.find? id) (db'.items.find? id)

namespace InPlace

variable {R : DurablePerceptionWorkItem → DurablePerceptionWorkItem → Prop}
  {db db' db'' : PerceptionDb}

theorem refl (hR : ∀ i, R i i) (db : PerceptionDb) : InPlace R db db := by
  refine ⟨rfl, rfl, rfl, fun id => ?_⟩
  cases db.items.find? id with
  | none => exact .none
  | some i => exact .some (hR i)

theorem trans (hR : ∀ {i j k}, R i j → R j k → R i k) (h : InPlace R db db')
    (h' : InPlace R db' db'') : InPlace R db db'' := by
  refine ⟨h'.runs.trans h.runs, h'.contexts.trans h.contexts,
    h'.dependencies.trans h.dependencies, fun id => ?_⟩
  have hfirst := h.items id
  have hsecond := h'.items id
  revert hfirst hsecond
  cases db.items.find? id <;> cases db'.items.find? id <;> cases db''.items.find? id <;>
    rintro (_ | hij) (_ | hjk)
  · exact .none
  · exact .some (hR ‹_› ‹_›)

theorem mono {R' : DurablePerceptionWorkItem → DurablePerceptionWorkItem → Prop}
    (hR : ∀ {i j}, R i j → R' i j) (h : InPlace R db db') : InPlace R' db db' := by
  refine ⟨h.runs, h.contexts, h.dependencies, fun id => ?_⟩
  have hitem := h.items id
  revert hitem
  cases db.items.find? id <;> cases db'.items.find? id <;> rintro (_ | hij)
  · exact .none
  · exact .some (hR ‹_›)

theorem exists_after (h : InPlace R db db') {id : String} (hi : db.items.find? id = some i) :
    ∃ j, db'.items.find? id = some j ∧ R i j := by
  have hitem := h.items id
  rw [hi] at hitem
  cases hj : db'.items.find? id with
  | none =>
    rw [hj] at hitem
    cases hitem
  | some j =>
    rw [hj] at hitem
    cases hitem
    exact ⟨j, rfl, ‹_›⟩

theorem exists_before (h : InPlace R db db') {id : String} (hj : db'.items.find? id = some j) :
    ∃ i, db.items.find? id = some i ∧ R i j := by
  have hitem := h.items id
  rw [hj] at hitem
  cases hi : db.items.find? id with
  | none =>
    rw [hi] at hitem
    cases hitem
  | some i =>
    rw [hi] at hitem
    cases hitem
    exact ⟨i, rfl, ‹_›⟩

theorem of_update {sel : DurablePerceptionWorkItem → Bool}
    {set : DurablePerceptionWorkItem → DurablePerceptionWorkItem}
    {hset : ∀ i, (set i).workItemId = i.workItemId} (hR : ∀ i, R i i)
    (hsel : ∀ {id i}, db.items.find? id = some i → sel i = true → R i (set i)) :
    InPlace R db (db.updateItems sel set hset) := by
  refine ⟨rfl, rfl, rfl, fun id => ?_⟩
  show Option.Rel R _ ((db.items.updateWhere sel set hset).find? id)
  rw [find?_updateWhere]
  cases hi : db.items.find? id with
  | none => exact .none
  | some i =>
    refine .some ?_
    show R i (if sel i then set i else i)
    split
    · rename_i hs
      exact hsel hi hs
    · exact hR i

theorem of_attempts (hR : ∀ i, R i i) (hruns : db'.runs = db.runs)
    (hcontexts : db'.contexts = db.contexts) (hdependencies : db'.dependencies = db.dependencies)
    (hitems : db'.items = db.items) : InPlace R db db' := by
  have h := refl hR db
  refine ⟨hruns, hcontexts, hdependencies, fun id => ?_⟩
  rw [hitems]
  exact h.items id

theorem of_updates {sel : DurablePerceptionWorkItem → Bool}
    {set : DurablePerceptionWorkItem → DurablePerceptionWorkItem}
    {hset : ∀ i, (set i).workItemId = i.workItemId} {sel' : WorkAttempt → Bool}
    {set' : WorkAttempt → WorkAttempt}
    {hset' : ∀ a, ((set' a).workItemId, (set' a).attemptNumber) = (a.workItemId, a.attemptNumber)}
    (hR : ∀ i, R i i)
    (hsel : ∀ {id i}, db.items.find? id = some i → sel i = true → R i (set i)) :
    InPlace R db ((db.updateItems sel set hset).updateAttempts sel' set' hset') := by
  have h : InPlace R db (db.updateItems sel set hset) := of_update hR hsel
  exact ⟨h.runs, h.contexts, h.dependencies, h.items⟩

end InPlace

/-! ## Statements -/

section Statements

variable {db db' : PerceptionDb} {current : Instant}

variable {id : String}

theorem workItemId_of_find? (h : db.items.find? id = some i) : i.workItemId = id :=
  (find?_eq_some_iff.mp h).2

theorem loadItem_eq_ok : db.loadItem id = .ok i ↔ db.items.find? id = some i := by
  unfold loadItem
  cases db.items.find? id <;> simp

theorem loadRun_eq_ok {runKey : String} {run : DurablePerceptionRun} :
    db.loadRun runKey = .ok run ↔ db.runs.find? runKey = some run := by
  unfold loadRun
  cases db.runs.find? runKey <;> simp

theorem liveLease_spec {lease : DurablePerceptionWorkLease} (h : db.liveLease lease current = .ok i) :
    db.items.find? lease.workItemId = some i ∧ i.leaseEpoch = lease.leaseEpoch ∧
      i.fencingToken = some lease.fencingToken := by
  obtain ⟨item, hitem, h⟩ := bind_eq_ok.mp h
  simp only [raiseIf_bind_eq_ok, Bool.or_eq_false_iff, bne_eq_false_iff_eq] at h
  obtain ⟨⟨⟨hepoch, htoken⟩, _⟩, _, h⟩ := h
  cases h
  exact ⟨loadItem_eq_ok.mp hitem, hepoch, htoken⟩

theorem updateItem_spec {sel : DurablePerceptionWorkItem → Bool}
    {set : DurablePerceptionWorkItem → DurablePerceptionWorkItem}
    {hset : ∀ i, (set i).workItemId = i.workItemId} {message : String} (target : String)
    (hkey : ∀ i, sel i = true → i.workItemId = target)
    (h : db.updateItem sel set hset message = .ok db') :
    db' = db.updateItems sel set hset ∧
      ∃ i, db.items.find? target = some i ∧ sel i = true ∧
        ∀ id, db'.items.find? id = if id = target then some (set i) else db.items.find? id := by
  unfold updateItem at h
  rw [raiseIf_bind_eq_ok, bne_eq_false_iff_eq, rowcount_eq_one_iff _ hkey] at h
  obtain ⟨⟨i, hi, hsel⟩, h⟩ := h
  cases h
  exact ⟨rfl, i, hi, hsel, KeyedTable.find?_updateWhere_of_key _ set hset hkey hi hsel⟩

variable {sel : WorkAttempt → Bool} {set : WorkAttempt → WorkAttempt}
  {hset : ∀ a, ((set a).workItemId, (set a).attemptNumber) = (a.workItemId, a.attemptNumber)}

theorem attemptsOf_update (id : String) (n : Nat) :
    (db.updateAttempts sel set hset).attemptsOf id n =
      (db.attemptsOf id n).map fun a => if sel a then set a else a :=
  find?_updateWhere _ _ _ hset _

theorem attemptsOf_update_other
    (target : String) (hkey : ∀ a, sel a = true → a.workItemId = target) (hid : id ≠ target) :
    (db.updateAttempts sel set hset).attemptsOf id = db.attemptsOf id := by
  funext n
  rw [attemptsOf_update]
  cases ha : db.attemptsOf id n with
  | none => rfl
  | some a =>
    have hof : a.workItemId = id := congrArg Prod.fst (key_of_find? ha)
    have hsel : sel a = false := by
      by_contra hcon
      rw [Bool.not_eq_false] at hcon
      exact hid (hof.symm.trans (hkey a hcon))
    simp [hsel]

/-- The end of an attempt: the item leaves its lease, and the open attempt its outcome. -/
theorem LifeInv.finish (h : LifeInv db) {target : String}
    (hi : db.items.find? target = some i) (hactive : i.state.isActive = true)
    (hitems : ∀ id, db'.items.find? id = if id = target then some j else db.items.find? id)
    (hattempts : db'.attempts = db.attempts) (hplan : j.toWorkPlan = i.toWorkPlan)
    (hidle : j.state.isActive = false) (hepoch : j.leaseEpoch = i.leaseEpoch)
    (hattempt : j.attempt = i.attempt) (hopen : j.state.isOpen = true → i.attempt < i.maxAttempts)
    (hkey : ∀ a, sel a = true → a.workItemId = target)
    (hsel : ∀ a, a.workItemId = target → a.leaseEpoch = i.leaseEpoch →
      i.fencingToken = some a.fencingToken → a.outcome = .active → sel a = true)
    (hended : ∀ a, (set a).leaseEpoch = a.leaseEpoch ∧ (set a).outcome ≠ .active) :
    LifeInv (db'.updateAttempts sel set hset) := by
  have hatt : db'.attemptsOf = db.attemptsOf := by
    unfold attemptsOf
    rw [hattempts]
  refine h.of_target hi hitems (fun id hid => ?_) fun hlife => ?_
  · rw [attemptsOf_update_other target hkey hid, hatt]
  · refine hlife.finish hplan hidle hepoch hattempt hopen (g := fun a => if sel a then set a else a)
      (fun a => ?_) (fun a ha => ?_) fun n => ?_
    · split
      · exact ⟨(hended a).1, fun hout => absurd hout (hended a).2⟩
      · exact ⟨rfl, id⟩
    · obtain ⟨b, hb, hout, hbepoch, hbtoken⟩ := hlife.exists_active hactive
      rw [ha] at hb
      cases hb
      have hof : a.workItemId = target := congrArg Prod.fst (key_of_find? ha)
      rw [if_pos (hsel a hof hbepoch hbtoken hout)]
      exact (hended a).2
    · rw [attemptsOf_update, hatt]

theorem finishAttempt_spec {lease : DurablePerceptionWorkLease} {outcome : AttemptOutcome}
    {code detail : Option String}
    (h : db.finishAttempt lease current outcome code detail = .ok db') :
    db' = db.updateAttempts
      (fun a => a.workItemId == lease.workItemId && a.leaseEpoch == lease.leaseEpoch &&
        a.fencingToken == lease.fencingToken && a.outcome == .active)
      (fun a => { a with
        completedAt := some current
        outcome := outcome
        errorCode := code
        errorDetail := detail }) fun _ => rfl := by
  unfold PerceptionDb.finishAttempt at h
  rw [raiseIf_bind_eq_ok] at h
  cases h.2
  rfl

end Statements

/-! ## Recovery and release -/

section Maintenance

variable {db : PerceptionDb} {current : Instant}

theorem recoverItem_spec (current : Instant) {changed : Nat × PerceptionDb} {item : DurablePerceptionWorkItem}
    (h : LifeInv changed.2) (hepoch : item.leaseEpoch = item.attempt)
    (hmax : ∀ i, changed.2.items.find? item.workItemId = some i → i.maxAttempts = item.maxAttempts) :
    LifeInv (recoverItem current changed item).2 ∧
      InPlace Rests changed.2 (recoverItem current changed item).2 := by
  unfold recoverItem
  simp only
  split
  · rename_i hcount
    rw [rowcount_eq_one_iff _ (by
      intro i hi
      simp only [and_eq_true, beq_iff_eq] at hi
      exact hi.1.1.1.1)] at hcount
    obtain ⟨i, hi, hsel⟩ := hcount
    simp only [and_eq_true, beq_iff_eq] at hsel
    obtain ⟨⟨⟨⟨hid, hiepoch⟩, hsome⟩, htoken⟩, hactive⟩ := hsel
    have hlife := h.items hi
    have hattempt : i.attempt = item.attempt := by rw [← hlife.epoch, hiepoch, hepoch]
    constructor
    · refine h.finish hi hactive
        (KeyedTable.find?_updateWhere_of_key _ (expired _ current) (fun _ => rfl)
          (fun r hr => ?_) hi ?_)
        rfl rfl ?_ rfl rfl ?_ (fun a ha => ?_) (fun a ha haepoch hatoken hout => ?_) fun a => ?_
      · simp only [and_eq_true, beq_iff_eq] at hr
        exact hr.1.1.1.1
      · simp only [and_eq_true, beq_iff_eq]
        exact ⟨⟨⟨⟨hid, hiepoch⟩, hsome⟩, htoken⟩, hactive⟩
      · split <;> rfl
      · intro hopen
        rw [hattempt, hmax i hi]
        by_contra hcon
        simp [expired, hcon, DurablePerceptionWorkState.isOpen] at hopen
      · simp only [and_eq_true, beq_iff_eq] at ha
        exact ha.1.1.1
      · simp only [and_eq_true, beq_iff_eq]
        exact ⟨⟨⟨ha, haepoch.trans hiepoch⟩, htoken.symm.trans hatoken⟩, hout⟩
      · exact ⟨rfl, by simp⟩
    · refine InPlace.of_updates Rests.refl fun {id r} hr hsel => ?_
      simp only [and_eq_true] at hsel
      refine .of_states rfl (states_of_isActive hsel.2) ?_
      simp only [expired]
      split <;> simp
  · exact ⟨h, InPlace.refl Rests.refl _⟩

theorem recoverExpired_spec (current : Instant) (h : LifeInv db) :
    LifeInv (db.recoverExpired current).2 ∧ InPlace Rests db (db.recoverExpired current).2 := by
  have hloop : ∀ (rows : List DurablePerceptionWorkItem) (changed : Nat × PerceptionDb),
      (∀ item ∈ rows, item ∈ db.items.rows) → LifeInv changed.2 → InPlace Rests db changed.2 →
      LifeInv (rows.foldl (recoverItem current) changed).2 ∧
        InPlace Rests db (rows.foldl (recoverItem current) changed).2 := by
    intro rows
    induction rows with
    | nil => exact fun changed _ hlife hplace => ⟨hlife, hplace⟩
    | cons item rest ih =>
      intro changed hrows hlife hplace
      have hitem := mem_rows_iff.mp (hrows item List.mem_cons_self)
      have hstep := recoverItem_spec current hlife (h.items hitem).epoch
        fun i hi => by
          obtain ⟨i', hi', hrests⟩ := hplace.exists_before hi
          cases hitem.symm.trans hi'
          exact congrArg WorkPlan.maxAttempts hrests.plan
      exact ih _ (fun a ha => hrows a (List.mem_cons_of_mem _ ha)) hstep.1
        (hplace.trans Rests.trans hstep.2)
  exact hloop _ _ (fun item hitem => (List.mem_filter.mp hitem).1) h (InPlace.refl Rests.refl _)

theorem promoteRetryWait_spec (current : Instant) (h : LifeInv db) :
    LifeInv (db.promoteRetryWait current).2 ∧ InPlace Rests db (db.promoteRetryWait current).2 := by
  have hplace : InPlace (fun i j => Rests i j ∧ ∀ att, ItemLife att i → ItemLife att j) db
      (db.promoteRetryWait current).2 := by
    refine InPlace.of_update (fun i => ⟨Rests.refl i, fun _ hlife => hlife⟩) fun {id i} hi hsel => ?_
    simp only [and_eq_true, beq_iff_eq] at hsel
    have hwait := hsel.1
    refine ⟨.of_states rfl (by simp [hwait]) (by simp), fun att hlife => ?_⟩
    exact hlife.idle rfl rfl rfl (by rw [hwait]; rfl) rfl (by rw [hwait]; rfl)
  refine ⟨h.of_items rfl (fun {id j} hj => ?_) (fun id hid => ?_), hplace.mono fun hR => hR.1⟩
  · obtain ⟨i, hi, hR⟩ := hplace.exists_before hj
    exact ⟨i, hi, hR.2 _⟩
  · obtain ⟨i, hi⟩ := Option.isSome_iff_exists.mp hid
    obtain ⟨j, hj, _⟩ := hplace.exists_after hi
    exact Option.isSome_iff_exists.mpr ⟨j, hj⟩

theorem find?_refreshReady {runKey : Option String} (id : String) :
    (db.refreshReady runKey current).2.items.find? id =
      (db.items.find? id).map fun i =>
        if db.isReleased runKey i then { i with state := .ready, updatedAt := current } else i := by
  unfold PerceptionDb.refreshReady updateItems
  rw [find?_updateWhere]
  cases hi : db.items.find? id with
  | none => rfl
  | some i =>
    obtain ⟨hmem, _⟩ := find?_eq_some_iff.mp hi
    have hsame : (((db.items.rows.filter (db.isReleased runKey)).map (·.workItemId)).contains
        i.workItemId && i.state == .planned) = db.isReleased runKey i := by
      rw [Bool.eq_iff_iff, and_eq_true, List.contains_iff_mem, List.mem_map, beq_iff_eq]
      constructor
      · rintro ⟨⟨r, hr, hrid⟩, _⟩
        obtain ⟨hrmem, hreleased⟩ := List.mem_filter.mp hr
        rwa [← db.items.eq_of_key_eq hrmem hmem hrid]
      · intro hreleased
        refine ⟨⟨i, List.mem_filter.mpr ⟨hmem, hreleased⟩, rfl⟩, ?_⟩
        simp only [isReleased, and_eq_true, beq_iff_eq] at hreleased
        exact hreleased.1.1.1.1
    simp only [Option.map_some, hsame]

theorem isReleased_planned {runKey : Option String} (h : db.isReleased runKey i = true) :
    i.state = .planned := by
  simp only [isReleased, and_eq_true, beq_iff_eq] at h
  exact h.1.1.1.1

theorem LifeInv.refresh (h : LifeInv db) (runKey : Option String) :
    LifeInv (db.refreshReady runKey current).2 := by
  refine h.of_items rfl (fun {id j} hj => ?_) (fun id hid => ?_)
  · rw [find?_refreshReady, Option.map_eq_some_iff] at hj
    obtain ⟨i, hi, rfl⟩ := hj
    refine ⟨i, hi, fun hlife => ?_⟩
    split
    · rename_i hreleased
      have hplanned := isReleased_planned hreleased
      exact hlife.idle rfl rfl rfl (by rw [hplanned]; rfl) rfl (by rw [hplanned]; rfl)
    · exact hlife
  · rw [find?_refreshReady, Option.isSome_map]
    exact hid

end Maintenance

/-! ## Leases -/

section Leases

variable {db db' : PerceptionDb} {current : Instant}

theorem nextClaim_spec {runKey workItemId : Option String}
    (h : db.nextClaim runKey workItemId = some i) :
    db.items.find? i.workItemId = some i ∧ i.state = .ready := by
  have hmem := List.mem_of_head? h
  rw [List.mem_insertionSort, List.mem_filter] at hmem
  obtain ⟨hmem, hsel⟩ := hmem
  simp only [and_eq_true, beq_iff_eq] at hsel
  exact ⟨mem_rows_iff.mp hmem, hsel.1.1.1⟩

theorem insertAttempt_spec {a : WorkAttempt} (h : db.insertAttempt a = .ok db') :
    db'.items = db.items ∧ InPlace Rests db db' ∧
      ∀ id n, db'.attemptsOf id n =
        if (id, n) = (a.workItemId, a.attemptNumber) then some a else db.attemptsOf id n := by
  obtain ⟨_, h⟩ := raiseIf_bind_eq_ok.mp h
  split at h
  · rename_i attempts hinsert
    cases h
    exact ⟨rfl, InPlace.of_attempts Rests.refl rfl rfl rfl rfl,
      fun id n => KeyedTable.find?_of_insert? hinsert (id, n)⟩
  · cases h

variable {seconds : Nat}

theorem leaseItem_spec {workerId token : String}
    {out : (DurablePerceptionWorkItem × DurablePerceptionWorkLease) × PerceptionDb} (h : LifeInv db)
    (hi : db.items.find? i.workItemId = some i) (hready : i.state = .ready)
    (hlease : db.leaseItem workerId seconds token current i = .ok out) :
    LifeInv out.2 ∧ InPlace Rests db out.2 := by
  unfold leaseItem at hlease
  simp only [bind_eq_ok] at hlease
  obtain ⟨expires, _, mid, hmid, last, hlast, leased, _, hlease⟩ := hlease
  cases hlease
  obtain ⟨rfl, r, hr, hsel, hitems⟩ := updateItem_spec i.workItemId (fun r hr => by
    simp only [and_eq_true, beq_iff_eq] at hr
    exact hr.1.1) hmid
  cases hi.symm.trans hr
  obtain ⟨hsame, hplace, hattempts⟩ := insertAttempt_spec hlast
  constructor
  · refine h.of_target hi (fun id => by rw [hsame]; exact hitems id) (fun id hid => ?_)
      fun hlife => ?_
    · funext n
      rw [hattempts, if_neg (fun hkey => hid (congrArg Prod.fst hkey))]
      rfl
    · refine hlife.lease (a := ⟨i.workItemId, i.attempt + 1, i.leaseEpoch + 1, token, workerId,
        current, none, none, .active, none, none⟩) hready rfl rfl rfl rfl rfl rfl rfl fun n => ?_
      rw [hattempts]
      by_cases hn : n = i.attempt + 1
      · rw [if_pos (by rw [hn]), if_pos hn]
      · rw [if_neg (fun hkey => hn (congrArg Prod.snd hkey)), if_neg hn]
        rfl
  · refine InPlace.trans Rests.trans (InPlace.of_update Rests.refl fun {id r} _ hsel => ?_) hplace
    simp only [and_eq_true, beq_iff_eq] at hsel
    exact .of_states rfl (by simp [hsel.1.2]) (by simp)

variable {lease : DurablePerceptionWorkLease} {out : DurablePerceptionWorkItem × PerceptionDb}

theorem start_spec (h : LifeInv db) (hstart : db.start lease current = .ok out) :
    LifeInv out.2 ∧ InPlace Rests db out.2 := by
  obtain ⟨i, hlive, hstart⟩ := bind_eq_ok.mp hstart
  obtain ⟨_, _, hstart⟩ := bind_eq_ok.mp hstart
  split at hstart
  · cases hstart
    exact ⟨h, InPlace.refl Rests.refl _⟩
  · rw [raiseIf_bind_eq_ok, bind_eq_ok] at hstart
    obtain ⟨_, mid, hmid, hstart⟩ := hstart
    obtain ⟨item, _, hstart⟩ := bind_eq_ok.mp hstart
    cases hstart
    obtain ⟨hmideq, r, hr, hsel, hitems⟩ := updateItem_spec i.workItemId (fun r hr => by
      simp only [and_eq_true, beq_iff_eq] at hr
      exact hr.1.1.1) hmid
    simp only [and_eq_true, beq_iff_eq] at hsel
    have hleased := hsel.1.1.2
    have hplace : InPlace Rests db mid := by
      rw [hmideq]
      refine InPlace.of_update Rests.refl fun {id r} _ hsel => ?_
      simp only [and_eq_true, beq_iff_eq] at hsel
      exact .of_states rfl (by simp [hsel.1.1.2]) (by simp)
    have hatt : mid.attemptsOf = db.attemptsOf := by rw [hmideq]; rfl
    refine ⟨h.of_target hr hitems (fun id hid => ?_) fun hlife => ?_,
      hplace.trans Rests.trans (InPlace.of_attempts Rests.refl rfl rfl rfl rfl)⟩
    · rw [← hatt]
      refine attemptsOf_update_other i.workItemId (fun a ha => ?_) hid
      simp only [and_eq_true, beq_iff_eq] at ha
      exact ha.1.1
    · refine hlife.run (g := fun a => if a.workItemId == i.workItemId &&
          a.leaseEpoch == lease.leaseEpoch && a.fencingToken == lease.fencingToken then
            { a with startedAt := some current } else a) rfl (by rw [hleased]; rfl) (fun h => by cases h)
        rfl rfl rfl (fun a => ?_) fun n => ?_
      · split <;> exact ⟨rfl, rfl, rfl⟩
      · rw [← hatt]
        exact attemptsOf_update _ _

theorem heartbeat_spec {out : DurablePerceptionWorkLease × PerceptionDb} (h : LifeInv db)
    (hbeat : db.heartbeat lease seconds current = .ok out) :
    LifeInv out.2 ∧ InPlace Rests db out.2 := by
  obtain ⟨_, _, hbeat⟩ := bind_eq_ok.mp hbeat
  obtain ⟨i, hlive, hbeat⟩ := bind_eq_ok.mp hbeat
  rw [raiseIf_bind_eq_ok, bind_eq_ok] at hbeat
  obtain ⟨_, expires, _, hbeat⟩ := hbeat
  obtain ⟨mid, hmid, hbeat⟩ := bind_eq_ok.mp hbeat
  cases hbeat
  obtain ⟨rfl, r, hr, _, hitems⟩ := updateItem_spec i.workItemId (fun r hr => by
    simp only [and_eq_true, beq_iff_eq] at hr
    exact hr.1.1) hmid
  constructor
  · exact h.of_target hr hitems (fun id _ => rfl) fun hlife => hlife.of_same rfl rfl rfl rfl rfl
  · exact InPlace.of_update Rests.refl fun _ _ => ⟨⟨rfl, Iff.rfl, id⟩, id⟩

theorem endAttempt_spec {mid last : PerceptionDb} {sel : DurablePerceptionWorkItem → Bool}
    {set : DurablePerceptionWorkItem → DurablePerceptionWorkItem}
    {hset : ∀ i, (set i).workItemId = i.workItemId} {message : String} {outcome : AttemptOutcome}
    {code detail : Option String} (h : LifeInv db) (hlive : db.liveLease lease current = .ok i)
    (hkey : ∀ r, sel r = true → r.workItemId = i.workItemId)
    (hmid : db.updateItem sel set hset message = .ok mid)
    (hlast : mid.finishAttempt lease current outcome code detail = .ok last)
    (hactive : i.state.isActive = true) (hplan : (set i).toWorkPlan = i.toWorkPlan)
    (hidle : (set i).state.isActive = false) (hepoch : (set i).leaseEpoch = i.leaseEpoch)
    (hattempt : (set i).attempt = i.attempt)
    (hopen : (set i).state.isOpen = true → i.attempt < i.maxAttempts) (hended : outcome ≠ .active) :
    LifeInv last ∧ InPlace Rests mid last := by
  obtain ⟨hi, hiepoch, hitoken⟩ := liveLease_spec hlive
  have hid := workItemId_of_find? hi
  rw [hid] at hkey
  obtain ⟨rfl, r, hr, _, hitems⟩ := updateItem_spec _ hkey hmid
  cases hi.symm.trans hr
  cases finishAttempt_spec hlast
  refine ⟨h.finish hi hactive hitems rfl hplan hidle hepoch hattempt hopen (fun a ha => ?_)
    (fun a ha haepoch hatoken hout => ?_) fun a => ⟨rfl, hended⟩,
    InPlace.of_attempts Rests.refl rfl rfl rfl rfl⟩
  · simp only [and_eq_true, beq_iff_eq] at ha
    exact ha.1.1.1
  · simp only [and_eq_true, beq_iff_eq]
    exact ⟨⟨⟨ha, haepoch.trans hiepoch⟩, (Option.some.inj (hitoken.symm.trans hatoken)).symm⟩, hout⟩

/-- The acceptance of a result: nothing, or one running item of the run has its success, and
the run is refreshed. -/
theorem succeed_spec {resultReference resultSha256 : String} (h : LifeInv db)
    (hsucceed : db.succeed lease resultReference resultSha256 current = .ok out) :
    out.2 = db ∨ ∃ mid runKey, LifeInv mid ∧ InPlace Moves db mid ∧
      (∀ id i j, db.items.find? id = some i → mid.items.find? id = some j → j.state = .succeeded →
        i.state = .succeeded ∨ i.runKey = runKey) ∧
      out.2 = (mid.refreshReady (some runKey) current).2 := by
  unfold succeed at hsucceed
  simp only [bind_eq_ok] at hsucceed
  obtain ⟨_, _, _, _, found, _, _, _, hsucceed⟩ := hsucceed
  split at hsucceed
  · rw [raiseIf_bind_eq_ok] at hsucceed
    cases hsucceed.2
    exact .inl rfl
  · simp only [bind_eq_ok, raiseIf_eq_ok, bne_eq_false_iff_eq] at hsucceed
    obtain ⟨i, hlive, _, hrunning, mid, hmid, last, hlast, final, _, hsucceed⟩ := hsucceed
    cases hsucceed
    have hactive : i.state.isActive = true := by rw [hrunning]; rfl
    have hkey : ∀ r : DurablePerceptionWorkItem, (r.workItemId == i.workItemId &&
        r.state == .running && r.leaseEpoch == lease.leaseEpoch &&
        r.fencingToken == some lease.fencingToken) = true → r.workItemId = i.workItemId := by
      intro r hr
      simp only [and_eq_true, beq_iff_eq] at hr
      exact hr.1.1.1
    have hend := endAttempt_spec h hlive hkey hmid hlast hactive rfl rfl rfl rfl
      (fun hopen => (by cases hopen)) (by decide)
    obtain ⟨hmideq, r, hr, _, hitems⟩ := updateItem_spec _ hkey hmid
    obtain ⟨hi, _, _⟩ := liveLease_spec hlive
    have hid := workItemId_of_find? hi
    have hplace : InPlace Moves db mid := by
      rw [hmideq]
      refine InPlace.of_update (fun i => (Rests.refl i).toMoves) fun {id r} _ hsel => ?_
      simp only [and_eq_true, beq_iff_eq] at hsel
      exact ⟨rfl, by simp [accepted, hsel.1.1.2], fun _ => rfl⟩
    refine .inr ⟨last, i.runKey, hend.1, hplace.trans (fun hij hjk => ?_)
      (hend.2.mono (·.toMoves)), fun id a b ha hb hstate => ?_, rfl⟩
    · exact ⟨hjk.plan.trans hij.plan, hjk.planned.trans hij.planned,
        fun hs => hjk.succeeded (hij.succeeded hs)⟩
    · -- the only new success is that of the accepted item
      obtain ⟨c, hc, hrests⟩ := hend.2.exists_before hb
      rw [hitems] at hc
      by_cases hsame : id = i.workItemId
      · rw [hsame, hid, hi] at ha
        cases ha
        exact .inr rfl
      · rw [if_neg hsame, ha] at hc
        cases hc
        exact .inl (hrests.unfinished hstate)

theorem fail_spec {errorCode : String} {retryable : Bool} {errorDetail : Option String}
    (h : LifeInv db)
    (hfail : db.fail lease errorCode retryable errorDetail seconds current = .ok out) :
    ∃ mid, LifeInv mid ∧ InPlace Rests db mid ∧
      (out.2 = mid ∨ ∃ runKey, out.2 = (mid.refreshReady (some runKey) current).2) := by
  unfold PerceptionDb.fail at hfail
  simp only [bind_eq_ok, raiseIf_eq_ok, Bool.not_eq_false'] at hfail
  obtain ⟨_, _, _, _, i, hlive, _, hactive, retryAt, _, mid, hmid, last, hlast, final, _, hfail⟩ :=
    hfail
  cases hfail
  have hkey : ∀ r : DurablePerceptionWorkItem, (r.workItemId == i.workItemId &&
      r.leaseEpoch == lease.leaseEpoch && r.fencingToken == some lease.fencingToken &&
      r.state.isActive) = true → r.workItemId = i.workItemId := by
    intro r hr
    simp only [and_eq_true, beq_iff_eq] at hr
    exact hr.1.1.1
  have hend := endAttempt_spec h hlive hkey hmid hlast hactive rfl (by split <;> rfl) rfl rfl
    (fun hopen => by
      by_contra hcon
      simp [hcon, DurablePerceptionWorkState.isOpen] at hopen)
    (by split <;> simp)
  obtain ⟨rfl, _⟩ := updateItem_spec _ hkey hmid
  refine ⟨last, hend.1, InPlace.trans Rests.trans
    (InPlace.of_update Rests.refl fun {id r} _ hsel => ?_) hend.2, ?_⟩
  · simp only [and_eq_true] at hsel
    refine .of_states rfl (states_of_isActive hsel.2) ?_
    dsimp only
    split <;> simp
  · split
    · exact .inl rfl
    · exact .inr ⟨i.runKey, rfl⟩

end Leases

end Robata.Perception
