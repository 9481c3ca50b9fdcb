import Robata.Backpressure.Controller
import Robata.Stream.Backlog

/-!
# Backpressure controllers in the ledger

The ledger stores the state of a controller beside the owner that may replace it.  Claiming
a controller raises its fence, and a save under an older fence is refused.  The controllers
of one key share their appends: the ledger counts the windows each recording has open.
-/

namespace Robata.Stream

open Backpressure (BackpressureControllerState)
open Lib

/-- `StoredStreamBackpressureController`, a row of `stream_backpressure_controllers`. -/
structure StoredStreamBackpressureController where
  (planKey controllerKey policyVersion ownerId : String)
  ownerFence : Nat
  stateJson : BackpressureControllerState

/-- The tables of the stream database with the controllers. -/
structure LedgerDb extends StreamDb where
  controllers : KeyedTable StoredStreamBackpressureController (String × String)
    fun r => (r.planKey, r.controllerKey)

def LedgerDb.empty : LedgerDb := ⟨.empty, .empty⟩

def requireNonemptyText (value field : String) : Except StreamError Unit :=
  refuse (value == "") (.value (field ++ " must be non-empty text"))

namespace LedgerDb

variable (ldb : LedgerDb)

/-- Rewrite the row of one controller. -/
def setController (planKey controllerKey : String)
    (set : StoredStreamBackpressureController → StoredStreamBackpressureController)
    (hset : ∀ r, ((set r).planKey, (set r).controllerKey) = (r.planKey, r.controllerKey)) :
    LedgerDb :=
  { ldb with
    controllers := ldb.controllers.updateWhere
      (fun r => r.planKey == planKey && r.controllerKey == controllerKey) set hset }

def claimBackpressureController (planKey controllerKey policyVersion ownerId : String)
    (initialState : BackpressureControllerState) :
    Except StreamError (StoredStreamBackpressureController × LedgerDb) := do
  requireNonemptyText planKey "plan_key"
  requireNonemptyText controllerKey "controller_key"
  requireNonemptyText policyVersion "policy_version"
  requireNonemptyText ownerId "owner_id"
  let _ ← ldb.getPlan planKey
  match ldb.controllers.find? (planKey, controllerKey) with
  | none =>
    let created := ⟨planKey, controllerKey, policyVersion, ownerId, 1, initialState⟩
    match ldb.controllers.insert? created with
    | some controllers => .ok (created, { ldb with controllers := controllers })
    | none => .error (.work Queue.integrityError)
  | some stored => do
      refuse (stored.policyVersion != policyVersion)
        (.ledgerConflict "backpressure controller policy version changed")
      if stored.ownerId = ownerId then .ok (stored, ldb)
      else
        .ok ({ stored with ownerId := ownerId, ownerFence := stored.ownerFence + 1 },
          ldb.setController planKey controllerKey
            (fun r => { r with ownerId := ownerId, ownerFence := stored.ownerFence + 1 })
            fun _ => rfl)

/-- The row a save may replace: that of the same owner, fence and policy. -/
def holdsController (controller : StoredStreamBackpressureController) : Bool :=
  (ldb.controllers.find? (controller.planKey, controller.controllerKey)).any fun r =>
    r.ownerId == controller.ownerId && r.ownerFence == controller.ownerFence &&
      r.policyVersion == controller.policyVersion

def saveBackpressureController (controller : StoredStreamBackpressureController)
    (state : BackpressureControllerState) :
    Except StreamError (StoredStreamBackpressureController × LedgerDb) := do
  refuse (!ldb.holdsController controller) (.work (.fence "backpressure controller fence is stale"))
  .ok ({ controller with stateJson := state },
    ldb.setController controller.planKey controller.controllerKey
      (fun r => { r with stateJson := state }) fun _ => rfl)

/-- The windows each recording of a partition has open. -/
def activeWindowCounts (controllerKey : String) : List (String × Nat) :=
  let active := ldb.rows.rows.filter fun r =>
    (ldb.controllers.find? (r.planKey, controllerKey)).isSome && r.expectedOrdinal.isSome &&
      (r.publicationState == .pending ||
        !((ldb.work.item? r.plan.workItemId).any (·.state.isTerminal)))
  (bucketKeys (·.planKey) active).map fun planKey =>
    (planKey, (bucketKeys (·.expectedOrdinal) (inBucket (·.planKey) active planKey)).length)

def enforceRecordingFairAdmission (planKey controllerKey controllerPolicyVersion : String)
    (requestedNewWindowCount : Nat) : Except StreamError Unit :=
  match ldb.controllers.find? (planKey, controllerKey) with
  | none => .error (.ledger "backpressure fairness requires a registered partition controller")
  | some controller => do
      refuse (controller.policyVersion != controllerPolicyVersion)
        (.ledgerConflict "backpressure fairness policy does not match this recording controller")
      refuse (ldb.controllers.rows.any fun r =>
          r.controllerKey == controllerKey && r.policyVersion != controllerPolicyVersion)
        (.ledgerConflict "backpressure partition controller key has conflicting policy versions")
      let activeByPlan := ldb.activeWindowCounts controllerKey
      match ((activeByPlan.filter fun count => count.1 != planKey).map Prod.snd).min? with
      | none => .ok ()
      | some leastPeerActive =>
        let currentActive := ((activeByPlan.find? fun count => count.1 == planKey).map
          Prod.snd).getD 0
        refuse (decide (leastPeerActive + 1 - currentActive < requestedNewWindowCount)) .throttle

end LedgerDb

/-! ## Fences -/

section Fences

variable {ldb ldb' : LedgerDb} {planKey controllerKey policyVersion ownerId : String}
  {initialState : BackpressureControllerState} {c c' : StoredStreamBackpressureController}

theorem find?_setController
    {set : StoredStreamBackpressureController → StoredStreamBackpressureController}
    {hset : ∀ r, ((set r).planKey, (set r).controllerKey) = (r.planKey, r.controllerKey)} :
    (ldb.setController planKey controllerKey set hset).controllers.find? (planKey, controllerKey) =
      (ldb.controllers.find? (planKey, controllerKey)).map set := by
  unfold LedgerDb.setController
  rw [KeyedTable.find?_updateWhere]
  cases hfind : ldb.controllers.find? (planKey, controllerKey) with
  | none => rfl
  | some stored =>
    have hkey := KeyedTable.key_of_find? hfind
    simp only [Prod.mk.injEq] at hkey
    simp [hkey]

theorem saveBackpressureController_spec {state : BackpressureControllerState}
    (h : ldb.saveBackpressureController c state = .ok (c', ldb')) :
    ldb.holdsController c = true ∧ c' = { c with stateJson := state } ∧
      ldb'.toStreamDb = ldb.toStreamDb ∧ ldb'.holdsController c' = true := by
  obtain ⟨hheld, h⟩ := refuse_bind_eq_ok.mp h
  rw [Bool.not_eq_false'] at hheld
  cases h
  refine ⟨hheld, rfl, rfl, ?_⟩
  unfold LedgerDb.holdsController at hheld ⊢
  rw [find?_setController, Option.any_map]
  exact hheld

end Fences

end Robata.Stream
