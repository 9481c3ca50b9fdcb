import Robata.Lib.Interleaving
import Robata.Outbox.Delivery

/-!
# The outbox relay

`OutboxRelay` over one delivery store and one `SQLiteIdempotentOutboxSink`.
`deliver_once` claims a row, publishes its message in the database of the sink, and
acknowledges or records a failure in that of the store; the three are separate
transactions.  The sink may also fail, before or after its own commit.
-/

namespace Robata.Outbox

open Lib

/-- A row of `delivered_outbox_messages`. -/
structure SinkRow where
  (outboxId topic messageKey : String)
  payload : Payload
  payloadSha256 : String
  publishedAt : Int

/-- The database of the store and the database of the sink. -/
structure RelayDb (γ : Type) where
  store : OutboxDb γ
  sink : KeyedTable SinkRow String (·.outboxId)

def RelayDb.empty {γ : Type} : RelayDb γ := ⟨⟨.empty, .empty⟩, .empty⟩

/-- What the sink's row of a message holds. -/
def SinkRow.holds (row : SinkRow) (message : OutboxMessage) : Prop :=
  row.outboxId = message.outboxId ∧ row.topic = message.topic ∧ row.messageKey = message.key ∧
    row.payload = message.payload ∧ row.payloadSha256 = message.payloadSha256

instance SinkRow.decidableHolds (row : SinkRow) (message : OutboxMessage) :
    Decidable (row.holds message) :=
  inferInstanceAs (Decidable (_ ∧ _ ∧ _ ∧ _ ∧ _))

/-- A failure of the database of the sink, described as the relay describes it. -/
inductive SinkFault
  | none
  | beforeCommit (description : String)
  | afterCommit (description : String)

section Publish

variable {γ : Type}

def RelayDb.publish (db : RelayDb γ) (message : OutboxMessage) (publishedAt : Int) :
    Except OutboxError (RelayDb γ) :=
  match db.sink.find? message.outboxId with
  | some row =>
    if row.holds message then .ok db
    else .error (.delivery "sink already contains different bytes for this outbox ID")
  | none =>
    match db.sink.insert? ⟨message.outboxId, message.topic, message.key, message.payload,
        message.payloadSha256, publishedAt⟩ with
    | some sink => .ok { db with sink := sink }
    | none => .error (.delivery "cannot publish to idempotent sink")

/-- `publish` with the failures of its database. -/
def RelayDb.publishFaulty (message : OutboxMessage) (publishedAt : Int) (fault : SinkFault) :
    Method (RelayDb γ) OutboxError Unit := fun db =>
  match fault with
  | .none => Method.update (·.publish message publishedAt) db
  | .beforeCommit description => (.error (.delivery description), db)
  | .afterCommit description =>
    (.error (.delivery description), (Method.update (·.publish message publishedAt) db).2)

end Publish

/-- The transactions of both databases. -/
inductive RelayCommand (γ : Type)
  | claim (policy : OutboxRetryPolicy) (workerId : String) (leaseDuration now : Int)
  | publish (message : OutboxMessage) (now : Int) (fault : SinkFault)
  | acknowledge (claim : OutboxDeliveryClaim) (now : Int)
  | recordFailure (claim : OutboxDeliveryClaim) (error : String) (now : Int)
  | reconcile (policy : OutboxRetryPolicy) (now : Int)
  | append (fact : OutboxFact γ) (policy : OutboxRetryPolicy) (createdAt : Int)

abbrev RelayAnswer {γ : Type} : RelayCommand γ → Type
  | .claim _ _ _ _ => Option OutboxDeliveryClaim
  | .publish _ _ _ => Unit
  | .acknowledge _ _ => DeliveryRow
  | .recordFailure _ _ _ => DeliveryRow
  | .reconcile _ _ => Unit
  | .append _ _ _ => Unit

section System

variable {γ : Type} (dialect : StoreDialect γ)

/-- A transaction of the store, which does not touch the sink. -/
def inStore {α : Type} (write : OutboxDb γ → Except OutboxError (α × OutboxDb γ))
    (db : RelayDb γ) : Except OutboxError (α × RelayDb γ) :=
  match write db.store with
  | .ok (a, store) => .ok (a, { db with store := store })
  | .error e => .error e

theorem inStore_eq_ok {α : Type} {write : OutboxDb γ → Except OutboxError (α × OutboxDb γ)}
    {db db' : RelayDb γ} {a : α} (h : inStore write db = .ok (a, db')) :
    write db.store = .ok (a, db'.store) ∧ db'.sink = db.sink := by
  unfold inStore at h
  split at h
  · rename_i b store hwrite
    cases h
    exact ⟨hwrite, rfl⟩
  · cases h

def RelayCommand.run : (c : RelayCommand γ) → Method (RelayDb γ) OutboxError (RelayAnswer c)
  | .claim policy workerId leaseDuration now => .transact (inStore fun db =>
    db.claim dialect policy workerId leaseDuration now)
  | .publish message now fault => RelayDb.publishFaulty message now fault
  | .acknowledge held now => .transact (inStore (·.acknowledge dialect held now))
  | .recordFailure held error now => .transact (inStore fun db =>
    db.recordFailure dialect held error now)
  | .reconcile policy now => .transact (inStore fun db => .ok ((), db.reconcile policy now))
  | .append fact policy createdAt => .transact (inStore
      (Method.answerless (·.append dialect fact policy createdAt)))

abbrev RelayProg (γ : Type) := Prog (RelayCommand γ) RelayAnswer OutboxError

/-- How the relay describes an exception of the sink. -/
def describe : OutboxError → String
  | .value message => "ValueError: " ++ message
  | .delivery message => "OutboxDeliveryError: " ++ message
  | .fence message => "OutboxFenceError: " ++ message

/-- A worker of the relay, with what its clock and the sink do during one call. -/
structure RelayWorker where
  policy : OutboxRetryPolicy
  workerId : String
  (leaseDuration claimedAt publishedAt finishedAt : Int)
  fault : SinkFault

def deliverOnce (worker : RelayWorker) : RelayProg γ (Option DeliveryRow) := do
  let claim ← Prog.perform
    (RelayCommand.claim worker.policy worker.workerId worker.leaseDuration worker.claimedAt)
  match claim with
  | none => pure none
  | some claim =>
    -- an exception of the sink is caught and recorded
    .call (RelayCommand.publish claim.message worker.publishedAt worker.fault) fun answer =>
      match answer with
      | .ok _ => do
          let snapshot ← Prog.perform (RelayCommand.acknowledge claim worker.finishedAt)
          pure (some snapshot)
      | .error e => do
          let description := String.ofList ((describe e).toList.take 1000)
          let snapshot ← Prog.perform (RelayCommand.recordFailure claim description worker.finishedAt)
          pure (some snapshot)

/-- What happens around the databases: relay workers, repeated calls with claims made
earlier, the reconciliation of the stream store, and publications. -/
inductive RelayCall (γ : Type)
  | deliverOnce (worker : RelayWorker)
  | acknowledge (claim : OutboxDeliveryClaim) (now : Int)
  | recordFailure (claim : OutboxDeliveryClaim) (error : String) (now : Int)
  | reconcile (policy : OutboxRetryPolicy) (now : Int)
  | append (fact : OutboxFact γ) (policy : OutboxRetryPolicy) (createdAt : Int)

def relay : System (RelayDb γ) (RelayCall γ) (RelayCommand γ) RelayAnswer OutboxError
    (Option DeliveryRow) where
  run := RelayCommand.run dialect
  method
    | .deliverOnce worker => Outbox.deliverOnce worker
    | .acknowledge claim now => do
        let snapshot ← Prog.perform (RelayCommand.acknowledge claim now)
        pure (some snapshot)
    | .recordFailure claim error now => do
        let snapshot ← Prog.perform (RelayCommand.recordFailure claim error now)
        pure (some snapshot)
    | .reconcile policy now => do
        let _ ← Prog.perform (RelayCommand.reconcile policy now)
        pure none
    | .append fact policy createdAt => do
        let _ ← Prog.perform (RelayCommand.append fact policy createdAt)
        pure none

end System

end Robata.Outbox
