import Robata.Perception.RegisteredRuns

/-!
# The finalization barrier

Every call keeps the invariant of the ledger, whether it returns or raises: the leases and
the attempts agree, the graph is ordered, and what waits for nothing is released.  Over any
sequence of calls, by any number of workers, with any leases and times, `FINALIZE` runs only
in a sealed run behind all of its work, and a sealed run keeps its items and dependencies.
-/

namespace Robata.Perception

open Lib
open KeyedTable (find?_eq_some_iff mem_of_find? mem_rows_iff)
open PerceptionDb (attemptsOf isSealed)

/-- The invariant of the ledger between two calls. -/
structure BarrierInv (S : SchedulerHashing) (db : PerceptionDb) : Prop where
  life : LifeInv db
  graph : GraphInv S db
  blocked : ∀ runKey, BlockedFor db runKey

/-- What one call does: the invariant holds again, and sealed runs are as they were. -/
structure KeepsBarrier (S : SchedulerHashing) (db db' : PerceptionDb) : Prop where
  inv : BarrierInv S db'
  frozen : Frozen db db'

section Calls

variable {S : SchedulerHashing} {db db' : PerceptionDb} {current : Instant}

theorem KeepsBarrier.refl (h : BarrierInv S db) : KeepsBarrier S db db := ⟨h, Frozen.refl db⟩

theorem KeepsBarrier.trans {db'' : PerceptionDb} (h : KeepsBarrier S db db')
    (h' : KeepsBarrier S db' db'') : KeepsBarrier S db db'' :=
  ⟨h'.inv, h.frozen.trans h'.frozen⟩

theorem KeepsBarrier.of_rests (h : BarrierInv S db) (hlife : LifeInv db')
    (hplace : InPlace Rests db db') : KeepsBarrier S db db' := by
  have hmoves : InPlace Moves db db' := hplace.mono (·.toMoves)
  refine ⟨⟨hlife, h.graph.inPlace hmoves, fun runKey => ?_⟩, .of_advances (.of_inPlace hmoves)⟩
  refine (h.blocked runKey).inPlace h.graph hmoves fun hi hj _ hs => ?_
  obtain ⟨j, hj', hrests⟩ := hplace.exists_after hi
  cases hj.symm.trans hj'
  exact hrests.unfinished hs

variable {runKey : String}

theorem KeepsBarrier.of_refresh {mid : PerceptionDb} (h : BarrierInv S db)
    (hmid : Grown S runKey db mid) :
    KeepsBarrier S db (mid.refreshReady (some runKey) current).2 := by
  refine ⟨⟨hmid.life.refresh _, hmid.graph.refresh _ _, fun key => ?_⟩,
    hmid.frozen.trans (.of_advances (.of_refresh _ _ _))⟩
  by_cases hkey : key = runKey
  · exact blockedFor_refreshReady hmid.graph (by simp [hkey]) current
  · exact (hmid.blocked key hkey (h.blocked key)).refresh hmid.graph _ _

theorem KeepsBarrier.of_refreshReady (h : BarrierInv S db) (runKey : Option String) :
    KeepsBarrier S db (db.refreshReady runKey current).2 :=
  ⟨⟨h.life.refresh _, h.graph.refresh _ _, fun key => (h.blocked key).refresh h.graph _ _⟩,
    .of_advances (.of_refresh _ _ _)⟩

theorem maintenance_keeps (current : Instant) (h : BarrierInv S db) (runKey : Option String) :
    KeepsBarrier S db
      (((db.recoverExpired current).2.promoteRetryWait current).2.refreshReady runKey current).2 := by
  obtain ⟨hlife, hplace⟩ := recoverExpired_spec current h.life
  have hrecovered := KeepsBarrier.of_rests h hlife hplace
  obtain ⟨hlife', hplace'⟩ := promoteRetryWait_spec current hlife
  have hpromoted := hrecovered.trans (KeepsBarrier.of_rests hrecovered.inv hlife' hplace')
  exact hpromoted.trans (KeepsBarrier.of_refreshReady hpromoted.inv runKey)

variable {seconds : Nat}

theorem claim_keeps {workerId token : String} {runKey workItemId : Option String}
    {out : Option (DurablePerceptionWorkItem × DurablePerceptionWorkLease) × PerceptionDb}
    (h : BarrierInv S db)
    (hclaim : db.claim workerId seconds runKey workItemId token current = .ok out) :
    KeepsBarrier S db out.2 := by
  unfold PerceptionDb.claim at hclaim
  simp only [bind_eq_ok] at hclaim
  obtain ⟨_, _, _, _, _, _, _, _, hclaim⟩ := hclaim
  have hmaintained := maintenance_keeps current h runKey
  split at hclaim
  · cases hclaim
    exact hmaintained
  · rename_i item hnext
    obtain ⟨leased, hleased, hclaim⟩ := bind_eq_ok.mp hclaim
    cases hclaim
    obtain ⟨hfind, hready⟩ := nextClaim_spec hnext
    obtain ⟨hlife, hplace⟩ := leaseItem_spec hmaintained.inv.life hfind hready hleased
    exact hmaintained.trans (KeepsBarrier.of_rests hmaintained.inv hlife hplace)

variable {lease : DurablePerceptionWorkLease} {out : DurablePerceptionWorkItem × PerceptionDb}

section

variable (h : BarrierInv S db)
include h

theorem start_keeps (hstart : db.start lease current = .ok out) : KeepsBarrier S db out.2 :=
  KeepsBarrier.of_rests h (start_spec h.life hstart).1 (start_spec h.life hstart).2

theorem heartbeat_keeps {out : DurablePerceptionWorkLease × PerceptionDb}
    (hbeat : db.heartbeat lease seconds current = .ok out) : KeepsBarrier S db out.2 :=
  KeepsBarrier.of_rests h (heartbeat_spec h.life hbeat).1 (heartbeat_spec h.life hbeat).2

theorem succeed_keeps {resultReference resultSha256 : String}
    (hsucceed : db.succeed lease resultReference resultSha256 current = .ok out) :
    KeepsBarrier S db out.2 := by
  rcases succeed_spec h.life hsucceed with hsame | ⟨mid, runKey, hlife, hplace, hsuccess, hout⟩
  · rw [hsame]
    exact KeepsBarrier.refl h
  · rw [hout]
    refine KeepsBarrier.of_refresh h ⟨h.graph.inPlace hplace, hlife, fun key hkey hblocked => ?_,
      .of_advances (.of_inPlace hplace)⟩
    -- the other runs have no new success
    exact hblocked.inPlace h.graph hplace fun hi hj hrun hs =>
      (hsuccess _ _ _ hi hj hs).resolve_right fun hown => hkey (hrun.symm.trans hown)

theorem fail_keeps {errorCode : String} {retryable : Bool} {errorDetail : Option String}
    (hfail : db.fail lease errorCode retryable errorDetail seconds current = .ok out) :
    KeepsBarrier S db out.2 := by
  obtain ⟨mid, hlife, hplace, hout⟩ := fail_spec h.life hfail
  have hmid := KeepsBarrier.of_rests h hlife hplace
  rcases hout with hout | ⟨runKey, hout⟩ <;> rw [hout]
  · exact hmid
  · exact hmid.trans (KeepsBarrier.of_refreshReady hmid.inv _)

end

theorem DurablePerceptionRun.sealed_runKey :
    ∀ r : DurablePerceptionRun, { r with derivedWorkSealed := true }.runKey = r.runKey :=
  fun _ => rfl

/-- The ledger with the run sealed. -/
def PerceptionDb.withSeal (db : PerceptionDb) (runKey : String) : PerceptionDb :=
  { db with
    runs := db.runs.updateWhere (·.runKey == runKey)
      (fun r => { r with derivedWorkSealed := true }) DurablePerceptionRun.sealed_runKey }

theorem PerceptionDb.withSeal_run (runKey k : String) :
    (db.withSeal runKey).runs.find? k = (db.runs.find? k).map fun r =>
      if r.runKey == runKey then { r with derivedWorkSealed := true } else r :=
  db.runs.find?_updateWhere (·.runKey == runKey)
    (fun r => { r with derivedWorkSealed := true }) (fun _ => rfl) k

theorem PerceptionDb.withSeal_isSealed (runKey k : String) :
    (db.withSeal runKey).isSealed k =
      (db.runs.find? k).any fun r => r.runKey == runKey || r.derivedWorkSealed := by
  unfold isSealed
  rw [PerceptionDb.withSeal_run]
  cases db.runs.find? k with
  | none => rfl
  | some r => by_cases hkey : r.runKey = runKey <;> simp [hkey]

theorem PerceptionDb.withSeal_keeps {k : String} (h : db.isSealed k = true) :
    (db.withSeal runKey).isSealed k = true := by
  rw [PerceptionDb.withSeal_isSealed]
  unfold isSealed at h
  cases hfind : db.runs.find? k with
  | none =>
    rw [hfind] at h
    cases h
  | some r =>
    rw [hfind, Option.any_some] at h
    simp [h]

theorem PerceptionDb.withSeal_other {k : String} (hk : k ≠ runKey)
    (h : (db.withSeal runKey).isSealed k = true) : db.isSealed k = true := by
  rw [PerceptionDb.withSeal_isSealed] at h
  unfold isSealed
  cases hfind : db.runs.find? k with
  | none =>
    rw [hfind] at h
    cases h
  | some r =>
    have hrkey : r.runKey = k := (find?_eq_some_iff.mp hfind).2
    rw [hfind, Option.any_some, Bool.or_eq_true, beq_iff_eq] at h
    exact h.resolve_left fun hown => hk (hrkey.symm.trans hown)

theorem seal_grown (h : BarrierInv S db) : Grown S runKey db (db.withSeal runKey) := by
  have hgraph := h.graph
  refine ⟨⟨fun {id i} hi => ?_, hgraph.keys, hgraph.edge, hgraph.waits, fun hi hstage hstate =>
    PerceptionDb.withSeal_keeps (hgraph.gate hi hstage hstate), hgraph.barrier, hgraph.unique,
    hgraph.finalKey, hgraph.fusion, hgraph.refine, fun {key run} hrun => ?_⟩,
    ⟨h.life.items, h.life.attempts⟩, fun key hkey hblocked => ?_,
    Frozen.of_kept (fun _ => PerceptionDb.withSeal_keeps) (fun hi => ⟨_, hi, rfl⟩)
      (fun hj => ⟨_, hj⟩) Iff.rfl⟩
  · rw [PerceptionDb.withSeal_run, Option.isSome_map]
    exact hgraph.run hi
  · rw [PerceptionDb.withSeal_run, Option.map_eq_some_iff] at hrun
    obtain ⟨r, hr, rfl⟩ := hrun
    have hcomplete := hgraph.complete hr
    -- the seal is no part of the plan of a run
    split <;> exact hcomplete
  · intro id i hi hrun hstate hgate
    exact hblocked id i hi hrun hstate fun hstage =>
      PerceptionDb.withSeal_other hkey (hgate hstage)

theorem sealDerivedWork_keeps {out : DurablePerceptionRun × PerceptionDb} (h : BarrierInv S db)
    (hseal : db.sealDerivedWork runKey current = .ok out) :
    KeepsBarrier S db out.2 := by
  unfold PerceptionDb.sealDerivedWork at hseal
  simp only [bind_eq_ok] at hseal
  obtain ⟨_, _, run, _, hseal⟩ := hseal
  split at hseal
  · cases hseal
    exact KeepsBarrier.refl h
  · simp only [bind_eq_ok] at hseal
    obtain ⟨_, _, run', _, hseal⟩ := hseal
    cases hseal
    exact KeepsBarrier.of_refresh h (seal_grown h)

theorem transact_keeps {α : Type} (write : PerceptionDb → Except SchedulerError (α × PerceptionDb))
    (h : BarrierInv S db) (hwrite : ∀ out, write db = .ok out → KeepsBarrier S db out.2) :
    KeepsBarrier S db (Method.transact write db).2 := by
  unfold Method.transact
  cases hresult : write db with
  | error e => exact KeepsBarrier.refl h
  | ok out => exact hwrite out hresult

theorem claimAndStart_keeps {workerId token : String} {runKey workItemId : Option String}
    {startedAt : Instant} (h : BarrierInv S db) :
    KeepsBarrier S db
      (PerceptionDb.claimAndStart workerId seconds runKey workItemId token current startedAt db).2 := by
  have hclaim := transact_keeps (fun db =>
    db.claim workerId seconds runKey workItemId token current) h fun out hout => claim_keeps h hout
  unfold PerceptionDb.claimAndStart
  cases hresult : Method.transact (fun db : PerceptionDb =>
      db.claim workerId seconds runKey workItemId token current) db with
  | mk answer mid =>
    rw [hresult] at hclaim
    cases answer with
    | error e =>
      simp only [bind, hresult]
      exact hclaim
    | ok claimed =>
      cases claimed with
      | none =>
        simp only [bind, hresult]
        exact hclaim
      | some leased =>
        have hstart := transact_keeps (·.start leased.2 startedAt)
          hclaim.inv fun out hout => start_keeps hclaim.inv hout
        simp only [bind, hresult]
        cases hstarted : Method.transact (fun db : PerceptionDb =>
            db.start leased.2 startedAt) mid with
        | mk answer last =>
          rw [hstarted] at hstart
          cases answer <;> exact hclaim.trans hstart

theorem call_keeps (policy : String) (current : Instant) (h : BarrierInv S db) (c : SchedulerCall) :
    KeepsBarrier S db (c.after S policy current db) := by
  cases c with
  | registerPlan plan codecPolicyVersion maxAttempts =>
    refine transact_keeps _ h fun out hout => ?_
    obtain ⟨mid, runKey, hgrown, hafter⟩ := registerPlan_spec h.graph h.life hout
    rw [hafter]
    exact KeepsBarrier.of_refresh h hgrown
  | scheduleDerived runKey ordinal stage inputSha256 configSha256 maxAttempts upstream =>
    refine transact_keeps _ h fun out hout => ?_
    obtain ⟨mid, hgrown, hafter⟩ := scheduleDerived_spec h.graph h.life hout
    rw [hafter]
    exact KeepsBarrier.of_refresh h hgrown
  | sealDerivedWork runKey =>
    exact transact_keeps _ h fun out hout => sealDerivedWork_keeps h hout
  | claim workerId seconds runKey workItemId token =>
    exact transact_keeps _ h fun out hout => claim_keeps h hout
  | claimAndStart workerId seconds runKey workItemId token startedAt =>
    exact claimAndStart_keeps h
  | start lease => exact transact_keeps _ h fun out hout => start_keeps h hout
  | heartbeat lease seconds => exact transact_keeps _ h fun out hout => heartbeat_keeps h hout
  | succeed lease resultReference resultSha256 =>
    exact transact_keeps _ h fun out hout => succeed_keeps h hout
  | fail lease errorCode retryable errorDetail seconds =>
    exact transact_keeps _ h fun out hout => fail_keeps h hout
  | reconcile => exact maintenance_keeps current h none

theorem calls_keep (calls : List (String × Instant × SchedulerCall)) :
    ∀ {db : PerceptionDb}, BarrierInv S db → KeepsBarrier S db (db.afterCalls S calls) := by
  induction calls with
  | nil => exact fun h => KeepsBarrier.refl h
  | cons c rest ih =>
    intro db h
    have hfirst := call_keeps c.1 c.2.1 h c.2.2
    exact hfirst.trans (ih hfirst.inv)

end Calls

/-! ## The barrier -/

/-- The open attempts of an item. -/
def PerceptionDb.activeAttempts (db : PerceptionDb) (workItemId : String) : List WorkAttempt :=
  db.attempts.rows.filter fun a => a.workItemId == workItemId && a.outcome == .active

/-- `FINALIZE` may be executed, or has been. -/
def DurablePerceptionWorkState.isReleased : DurablePerceptionWorkState → Bool
  | .ready | .leased | .running | .retryWait | .succeeded => true
  | _ => false

/-- What holds of the items of a ledger. -/
structure BarrierHolds (db : PerceptionDb) : Prop where
  finalize : ∀ f ∈ db.items.rows, f.stage = .finalize → f.state.isReleased = true →
    db.isSealed f.runKey = true ∧ ∀ i ∈ db.items.rows, i.runKey = f.runKey →
      i.stage ∈ barrierStages → i.state = .succeeded
  upstream : ∀ i ∈ db.items.rows, i.state ≠ .planned → ∀ u, db.Edge i.workItemId u →
    ∃ ui ∈ db.items.rows, ui.workItemId = u ∧ ui.state = .succeeded
  planned : ∀ i ∈ db.items.rows, i.state = .planned →
    (i.stage = .finalize → db.isSealed i.runKey = true) →
    ∃ ui ∈ db.items.rows, db.Edge i.workItemId ui.workItemId ∧ ui.state ≠ .succeeded
  acyclic : ∀ id, ¬ Relation.TransGen db.Edge id id
  active : ∀ i ∈ db.items.rows, i.state.isActive = true ↔
    ∃ a, db.activeAttempts i.workItemId = [a] ∧ a.leaseEpoch = i.leaseEpoch ∧
      i.fencingToken = some a.fencingToken
  idle : ∀ i ∈ db.items.rows, i.state.isActive = false → db.activeAttempts i.workItemId = []
  attempts : ∀ i ∈ db.items.rows, i.attempt = i.leaseEpoch ∧ i.attempt ≤ i.maxAttempts ∧
    ∀ n, (db.attemptsOf i.workItemId n).isSome = true ↔ 1 ≤ n ∧ n ≤ i.attempt

section Barrier

variable {S : SchedulerHashing} {db : PerceptionDb}

theorem mem_activeAttempts {id : String} {a : WorkAttempt} :
    a ∈ db.activeAttempts id ↔ db.attemptsOf id a.attemptNumber = some a ∧ a.outcome = .active := by
  unfold PerceptionDb.activeAttempts attemptsOf
  rw [List.mem_filter, Bool.and_eq_true, beq_iff_eq, beq_iff_eq, find?_eq_some_iff, Prod.mk.injEq]
  tauto

theorem activeAttempts_of_active {i : DurablePerceptionWorkItem} (h : LifeInv db)
    (hi : i ∈ db.items.rows) (hactive : i.state.isActive = true) :
    ∃ a, db.activeAttempts i.workItemId = [a] ∧ a.leaseEpoch = i.leaseEpoch ∧
      i.fencingToken = some a.fencingToken := by
  have hlife := h.items (mem_rows_iff.mp hi)
  obtain ⟨a, ha, hout, hepoch, htoken⟩ := hlife.exists_active hactive
  have hkey : (a.workItemId, a.attemptNumber) = (i.workItemId, i.attempt) :=
    (find?_eq_some_iff.mp ha).2
  refine ⟨a, ?_, hepoch, htoken⟩
  refine KeyedTable.filter_eq_singleton _ (mem_of_find? ha) ?_ fun b hb hsel => ?_
  · have hid : a.workItemId = i.workItemId := (Prod.mk.inj hkey).1
    simp [hid, hout]
  · -- another open attempt would have the same number
    simp only [Bool.and_eq_true, beq_iff_eq] at hsel
    have hb' : db.attemptsOf i.workItemId b.attemptNumber = some b :=
      find?_eq_some_iff.mpr ⟨hb, by rw [hsel.1]⟩
    have hn := ((hlife.outcome hb').mp hsel.2).2
    rw [hn, ha, Option.some.injEq] at hb'
    exact hb'.symm

theorem activeAttempts_of_idle {i : DurablePerceptionWorkItem} (h : LifeInv db)
    (hi : i ∈ db.items.rows) (hidle : i.state.isActive = false) :
    db.activeAttempts i.workItemId = [] := by
  rw [List.eq_nil_iff_forall_not_mem]
  intro a ha
  obtain ⟨hfind, hout⟩ := mem_activeAttempts.mp ha
  have hlife := h.items (mem_rows_iff.mp hi)
  have hactive := ((hlife.outcome hfind).mp hout).1
  rw [hidle] at hactive
  cases hactive

theorem rank_lt_of_path (h : GraphInv S db) {d u : String} (hpath : Relation.TransGen db.Edge d u) :
    ∃ di ui, db.items.find? d = some di ∧ db.items.find? u = some ui ∧ ui.rank < di.rank := by
  induction hpath with
  | single hedge =>
    obtain ⟨di, ui, hd, hu, _, hrank⟩ := h.edge hedge
    exact ⟨di, ui, hd, hu, hrank⟩
  | tail _ hedge ih =>
    obtain ⟨di, mi, hd, hm, hrank⟩ := ih
    obtain ⟨mi', ui, hm', hu, _, hrank'⟩ := h.edge hedge
    cases hm.symm.trans hm'
    exact ⟨di, ui, hd, hu, hrank'.trans hrank⟩

theorem BarrierInv.holds (h : BarrierInv S db) : BarrierHolds db where
  finalize f hf hstage hreleased := by
    have hfind := mem_rows_iff.mp hf
    have hstate : f.state ≠ .planned := by
      intro hplanned
      rw [hplanned] at hreleased
      cases hreleased
    refine ⟨h.graph.gate hfind hstage hstate, fun i hi hrun hwaits => ?_⟩
    have hifind := mem_rows_iff.mp hi
    exact h.graph.waits (h.graph.barrier hfind hifind hstage hwaits hrun) hfind hifind hstate
  upstream i hi hstate u hedge := by
    obtain ⟨di, ui, hd, hu, _⟩ := h.graph.edge hedge
    exact ⟨ui, mem_of_find? hu, workItemId_of_find? hu,
      h.graph.waits hedge (mem_rows_iff.mp hi) hu hstate⟩
  planned i hi hstate hgate := by
    obtain ⟨u, ui, hedge, hu, hunfinished⟩ := h.blocked i.runKey i.workItemId i
      (mem_rows_iff.mp hi) rfl hstate hgate
    refine ⟨ui, mem_of_find? hu, ?_, hunfinished⟩
    rw [workItemId_of_find? hu]
    exact hedge
  acyclic id hcycle := by
    obtain ⟨di, ui, hd, hu, hrank⟩ := rank_lt_of_path h.graph hcycle
    cases hd.symm.trans hu
    exact lt_irrefl _ hrank
  active i hi := by
    refine ⟨activeAttempts_of_active h.life hi, ?_⟩
    rintro ⟨a, ha, _⟩
    by_contra hidle
    rw [Bool.not_eq_true] at hidle
    rw [activeAttempts_of_idle h.life hi hidle] at ha
    cases ha
  idle i hi := activeAttempts_of_idle h.life hi
  attempts i hi := by
    have hlife := h.life.items (mem_rows_iff.mp hi)
    exact ⟨hlife.epoch.symm, hlife.bounded, hlife.numbered⟩

theorem barrierInv_empty (S : SchedulerHashing) : BarrierInv S .empty :=
  ⟨lifeInv_empty, graphInv_empty S, fun _ _ _ h => (by cases h)⟩

/-- After every sequence of calls the barrier holds, and whatever calls follow, a run that is
sealed has the items and the dependencies it had. -/
theorem finalization_barrier (S : SchedulerHashing)
    (calls later : List (String × Instant × SchedulerCall)) :
    BarrierHolds (PerceptionDb.empty.afterCalls S calls) ∧
      ∀ runKey, (PerceptionDb.empty.afterCalls S calls).isSealed runKey = true →
        (PerceptionDb.empty.afterCalls S (calls ++ later)).isSealed runKey = true ∧
        (PerceptionDb.empty.afterCalls S (calls ++ later)).runPlans runKey =
          (PerceptionDb.empty.afterCalls S calls).runPlans runKey ∧
        (PerceptionDb.empty.afterCalls S (calls ++ later)).runDependencies runKey =
          (PerceptionDb.empty.afterCalls S calls).runDependencies runKey := by
  have hinv := (calls_keep calls (barrierInv_empty S)).inv
  refine ⟨hinv.holds, ?_⟩
  have hsplit : PerceptionDb.empty.afterCalls S (calls ++ later) =
      (PerceptionDb.empty.afterCalls S calls).afterCalls S later :=
    List.foldl_append
  rw [hsplit]
  exact (calls_keep later hinv).frozen

end Barrier

end Robata.Perception
