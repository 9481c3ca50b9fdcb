import Robata.Outbox.RelayRuns

/-!
# Source rows enrolled earlier or later

The primary store leaves a new source row without a delivery row until its next claim.  What an
acknowledgement or a failure does to a row that has been enrolled does not depend on the others:
enrolling them first or afterwards comes to the same.
-/

namespace Robata.Outbox

open Lib
open KeyedTable (find?_insertMissing_of_some insertMissing_map insertMissing_of_taken mem_rows_iff
  rowcount_insertMissing updateWhere_insertMissing)

variable {γ : Type} {dialect : StoreDialect γ} {db : OutboxDb γ} {policy : OutboxRetryPolicy}
  {time now : Int} {outboxId : String} {claim : OutboxDeliveryClaim}

/-- Every source row has a delivery row. -/
def OutboxDb.Enrolled (db : OutboxDb γ) : Prop :=
  ∀ o ∈ db.source.rows, (db.deliveries.find? o.fact.outboxId).isSome

theorem discover_enrolled (policy : OutboxRetryPolicy) (now : Int) :
    (db.discover policy now).Enrolled := by
  intro o ho
  have hsource : db.source.find? o.fact.outboxId = some o := mem_rows_iff.mp ho
  rw [find?_discover, hsource]
  cases db.deliveries.find? o.fact.outboxId <;> rfl

theorem OutboxDb.Enrolled.discover (h : db.Enrolled) (policy : OutboxRetryPolicy) (now : Int) :
    db.discover policy now = db :=
  congrArg (OutboxDb.mk db.source) (insertMissing_of_taken h)

theorem OutboxDb.Enrolled.moved {token : String → Nat → String} {published : String → Prop}
    {db' : OutboxDb γ} (h : db.Enrolled) (hmoves : StoreMoves token published db db') :
    db'.Enrolled := by
  intro o' ho'
  have hsource' : db'.source.find? o'.fact.outboxId = some o' := mem_rows_iff.mp ho'
  cases hsource : db.source.find? o'.fact.outboxId with
  | none =>
    rw [(hmoves.others _ hsource).1] at hsource'
    cases hsource'
  | some o =>
    obtain ⟨e, he, hentry⟩ := hmoves.moves _ (o, _) (entry_eq_some_iff.mpr ⟨hsource, rfl⟩)
    have hid : o.fact.outboxId = o'.fact.outboxId := (KeyedTable.find?_eq_some_iff.mp hsource).2
    rw [(entry_eq_some_iff.mp he).2]
    exact hentry.enrolled (hid ▸ h o (KeyedTable.mem_of_find? hsource))

/-- A claim enrols before anything else, so that enrolling just before it changes nothing. -/
theorem claim_discover (workerId : String) (leaseDuration : Int) :
    (db.discover policy now).claim dialect policy workerId leaseDuration now =
      db.claim dialect policy workerId leaseDuration now := by
  unfold OutboxDb.claim
  rw [(discover_enrolled policy now).discover]

/-! ## Acknowledgements and failures -/

theorem discovered_unleased (row : SourceRow γ) :
    (discovered policy time row).status ≠ .leased := by
  unfold discovered
  dsimp only
  split <;> decide

theorem expireLeases_discover :
    (db.discover policy time).expireLeases now = (db.expireLeases now).discover policy time := by
  have hlapsed : ∀ row : SourceRow γ, (discovered policy time row).lapsed now = false := fun row =>
    Bool.eq_false_iff.mpr fun h => discovered_unleased row (lapsed_leased h)
  refine congrArg (OutboxDb.mk db.source) ?_
  show ((db.deliveries.insertMissing _ _).updateWhere _ _ _).updateWhere _ _ _ = _
  rw [updateWhere_insertMissing fun row _ => by rw [hlapsed, Bool.false_and],
    updateWhere_insertMissing fun row _ => by rw [hlapsed, Bool.false_and]]
  rfl

theorem joinedRow_discover (h : (db.deliveries.find? outboxId).isSome) :
    (db.discover policy time).joinedRow dialect outboxId = db.joinedRow dialect outboxId := by
  obtain ⟨row, hrow⟩ := Option.isSome_iff_exists.mp h
  have hrow' : (db.discover policy time).deliveries.find? outboxId = some row :=
    find?_insertMissing_of_some hrow
  have hsource : (db.discover policy time).source = db.source := rfl
  unfold OutboxDb.joinedRow
  rw [hrow, hrow', hsource]

/-- No row that has just been enrolled answers to the fence of a claim. -/
theorem discovered_unfenced (row : SourceRow γ) :
    ((discovered policy time row).outboxId == outboxId &&
      (discovered policy time row).holdsFence claim) = false := by
  have hfence : (discovered policy time row).holdsFence claim = false :=
    Bool.eq_false_iff.mpr fun h => discovered_unleased row (holdsFence_leased h).1
  rw [hfence, Bool.and_false]

theorem failed_discover {write : DeliveryRow → DeliveryRow}
    {hwrite : ∀ row, (write row).outboxId = row.outboxId} :
    (⟨(db.discover policy time).source, (db.discover policy time).deliveries.updateWhere
      (fun row => row.outboxId == outboxId && row.holdsFence claim) write hwrite⟩ : OutboxDb γ) =
    OutboxDb.discover ⟨db.source, db.deliveries.updateWhere
      (fun row => row.outboxId == outboxId && row.holdsFence claim) write hwrite⟩ policy time :=
  congrArg (OutboxDb.mk db.source)
    (updateWhere_insertMissing fun row _ => discovered_unfenced row)

section Held

variable (h : (db.deliveries.find? claim.message.outboxId).isSome)
include h

theorem expireLeases_isSome (now : Int) :
    ((db.expireLeases now).deliveries.find? claim.message.outboxId).isSome := by
  rw [find?_expireLeases, Option.isSome_map]
  exact h

/-- The rows that an acknowledgement or a failure writes are enrolled already. -/
theorem written_discover {selects : SourceRow γ → Bool} {set : SourceRow γ → SourceRow γ}
    {hset : ∀ row, (set row).fact.outboxId = row.fact.outboxId} {write : DeliveryRow → DeliveryRow}
    {hwrite : ∀ row, (write row).outboxId = row.outboxId}
    (hselects : ∀ row, selects row = true → row.fact.outboxId = claim.message.outboxId) :
    (⟨(db.discover policy time).source.updateWhere selects set hset,
      (db.discover policy time).deliveries.updateWhere (fun row =>
        row.outboxId == claim.message.outboxId && row.holdsFence claim) write hwrite⟩ :
          OutboxDb γ) =
    OutboxDb.discover ⟨db.source.updateWhere selects set hset,
      db.deliveries.updateWhere (fun row =>
        row.outboxId == claim.message.outboxId && row.holdsFence claim) write hwrite⟩
          policy time := by
  refine congrArg (OutboxDb.mk _) ?_
  show (db.deliveries.insertMissing _ _).updateWhere _ _ hwrite =
    (db.deliveries.updateWhere _ _ hwrite).insertMissing (discovered policy time)
      (db.source.rows.map fun row => if selects row then set row else row)
  rw [updateWhere_insertMissing fun row _ => discovered_unfenced row, insertMissing_map]
  · intro row
    show (if selects row then set row else row).fact.outboxId = row.fact.outboxId
    split
    · exact hset row
    · rfl
  · intro row _
    by_cases hselected : selects row = true
    · right
      show (KeyedTable.find? _ row.fact.outboxId).isSome
      rw [KeyedTable.find?_updateWhere, Option.isSome_map, hselects row hselected]
      exact h
    · exact .inl (if_neg hselected)

theorem returned_discover :
    (do
      let joined ← (db.discover policy time).joinedRow dialect claim.message.outboxId
      Except.ok (joined.2, db.discover policy time)) =
    (fun r : DeliveryRow × OutboxDb γ => (r.1, r.2.discover policy time)) <$> (do
      let joined ← db.joinedRow dialect claim.message.outboxId
      Except.ok (joined.2, db)) := by
  rw [joinedRow_discover h, map_bind]
  rfl

theorem acknowledge_discover :
    (db.discover policy time).acknowledge dialect claim now =
      (fun r => (r.1, r.2.discover policy time)) <$> db.acknowledge dialect claim now := by
  have hheld := expireLeases_isSome h now
  unfold OutboxDb.acknowledge
  dsimp only
  rw [expireLeases_discover]
  generalize db.expireLeases now = ready at hheld ⊢
  rw [joinedRow_discover hheld, map_bind]
  refine bind_congr fun joined => ?_
  split
  · rfl
  · rw [map_bind]
    refine bind_congr fun _ => ?_
    show (refuse ((ready.deliveries.insertMissing _ _).rowcount _ != 1) _ >>= _) = _
    rw [rowcount_insertMissing fun row _ => discovered_unfenced row, map_bind]
    refine bind_congr fun _ => ?_
    rw [map_bind]
    refine bind_congr fun _ => ?_
    have hkey : ∀ row : SourceRow γ, (row.fact.outboxId == claim.message.outboxId &&
        row.deliveredAt.isNone) = true → row.fact.outboxId = claim.message.outboxId := by
      intro row hrow
      rw [Bool.and_eq_true, beq_iff_eq] at hrow
      exact hrow.1
    rw [written_discover hheld hkey]
    refine returned_discover ?_
    rw [KeyedTable.find?_updateWhere, Option.isSome_map]
    exact hheld

theorem recordFailure_discover (error : String) :
    (db.discover policy time).recordFailure dialect claim error now =
      (fun r => (r.1, r.2.discover policy time)) <$> db.recordFailure dialect claim error now := by
  have hheld := expireLeases_isSome h now
  unfold OutboxDb.recordFailure
  rw [map_bind]
  refine bind_congr fun _ => ?_
  dsimp only
  rw [expireLeases_discover]
  generalize db.expireLeases now = ready at hheld ⊢
  rw [joinedRow_discover hheld, map_bind]
  refine bind_congr fun joined => ?_
  split
  · rfl
  · rw [map_bind]
    refine bind_congr fun _ => ?_
    rw [map_bind]
    refine bind_congr fun next => ?_
    show (refuse ((ready.deliveries.insertMissing _ _).rowcount _ != 1) _ >>= _) = _
    rw [rowcount_insertMissing fun row _ => discovered_unfenced row, map_bind]
    refine bind_congr fun _ => ?_
    rw [failed_discover]
    refine returned_discover ?_
    rw [KeyedTable.find?_updateWhere, Option.isSome_map]
    exact hheld

end Held

end Robata.Outbox
