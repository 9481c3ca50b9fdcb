import Mathlib.Data.Rat.Defs
import Robata.Lib.HalfEven
import Robata.Lib.MissingRows
import Robata.Lib.Transaction

/-!
# Outbox delivery stores

The lease, retry and dead-letter state of outbox rows.  The protocol exists twice:
`SQLitePrimaryOutboxDeliveryStore` over `primary_outbox`, and
`SQLiteStreamDeliveryAuthority` over `stream_delivery_outbox`.  The two run the
same statements; they differ in the columns of a source row, in the name a fencing
token is derived from, in how a text column that may be NULL is compared, in their
messages, and in whether a source row is enrolled for delivery when it is written.
`StoreDialect` collects the differences.

A method is one transaction: it returns, and with it the rows it has written, or it
raises and writes nothing.  Instants are microseconds; the digest, `uuid5` and the
wire format of a payload are parameters.
-/

namespace Robata.Outbox

open Lib

/-- The exceptions of the delivery stores, with their texts. -/
inductive OutboxError
  | value (message : String)
  | delivery (message : String)
  | fence (message : String)
  deriving DecidableEq

/-- Raise when a check finds its condition. -/
def refuse (found : Bool) (e : OutboxError) : Except OutboxError Unit :=
  if found then .error e else .ok ()

@[simp] theorem refuse_eq_ok {found : Bool} {e : OutboxError} {u : Unit} :
    refuse found e = .ok u ↔ found = false := by
  cases found <;> simp [refuse]

/-- Operational lifecycle for one immutable outbox fact. -/
inductive OutboxDeliveryStatus
  | pending
  | leased
  | retryWait
  | delivered
  | deadLetter
  deriving DecidableEq

/-- The states that nothing leaves. -/
def OutboxDeliveryStatus.isTerminal : OutboxDeliveryStatus → Bool
  | delivered | deadLetter => true
  | pending | leased | retryWait => false

structure OutboxRetryPolicy where
  version : String
  maxAttempts : Nat
  (baseDelaySeconds maxDelaySeconds : Rat)
  versioned : version ≠ ""
  attempts : 0 < maxAttempts
  nonnegative : 0 ≤ baseDelaySeconds
  ordered : baseDelaySeconds ≤ maxDelaySeconds

/-- `delay_after`, as a `timedelta` rounds it to microseconds. -/
def OutboxRetryPolicy.delayAfter (policy : OutboxRetryPolicy) (attemptCount : Nat) :
    Except OutboxError Int := do
  refuse (attemptCount == 0) (.value "attempt_count must be a positive integer")
  let exponent := min (attemptCount - 1) 62
  let seconds := min (policy.baseDelaySeconds * 2 ^ exponent) policy.maxDelaySeconds
  let micros := seconds * 1000000
  .ok (roundHalfEven micros.num micros.den)

abbrev Payload := List UInt8

/-- Exact outbox payload presented to a delivery sink. -/
structure OutboxMessage where
  (outboxId completionRunId recordingIdentity : String)
  outboxOrdinal : Nat
  (topic key : String)
  payload : Payload
  payloadSha256 : String
  deriving DecidableEq

/-- A row of the delivery table, which is also what a snapshot shows. -/
structure DeliveryRow where
  outboxId : String
  status : OutboxDeliveryStatus
  (attemptCount leaseEpoch : Nat)
  (fencingToken claimedBy : Option String)
  leaseExpiresAt : Option Int
  nextAttemptAt : Int
  retryPolicy : OutboxRetryPolicy
  lastError : Option String
  (deliveredAt deadLetteredAt : Option Int)

structure OutboxDeliveryClaim where
  message : OutboxMessage
  delivery : DeliveryRow
  sameId : message.outboxId = delivery.outboxId
  leased : delivery.status = .leased
  fenced : delivery.fencingToken.isSome

/-- `OutboxDeliveryClaim.__post_init__`. -/
def makeClaim (message : OutboxMessage) (delivery : DeliveryRow) :
    Except String OutboxDeliveryClaim :=
  if hid : message.outboxId = delivery.outboxId then
    if hleased : delivery.status = .leased ∧ delivery.fencingToken.isSome then
      .ok ⟨message, delivery, hid, hleased.1, hleased.2⟩
    else .error "claim requires a leased delivery with a fencing token"
  else .error "claim message and delivery IDs disagree"

/-- The columns of a source row that never change. -/
structure OutboxFact (γ : Type) where
  outboxId : String
  -- `completion_run_id` or `plan_key`
  scope : String
  outboxOrdinal : Nat
  content : γ

structure SourceRow (γ : Type) where
  fact : OutboxFact γ
  deliveredAt : Option Int

/-- The two tables of a store. -/
structure OutboxDb (γ : Type) where
  source : KeyedTable (SourceRow γ) String (·.fact.outboxId)
  deliveries : KeyedTable DeliveryRow String (·.outboxId)

/-- Where the two stores differ. -/
structure StoreDialect (γ : Type) where
  token : String → Nat → String
  message : OutboxFact γ → Except OutboxError OutboxMessage
  invalidClaim : String → OutboxError
  sameText : Option String → String → Bool
  enrols : Bool
  (missing claimLost staleFence staleAcknowledgement inconsistent staleFailure : OutboxError)
  badError : OutboxError
  conflict : OutboxError

/-! ## The statements -/

section Statements

variable {γ : Type} (db : OutboxDb γ)

/-- The row `_discover` inserts for a source row. -/
def discovered (policy : OutboxRetryPolicy) (now : Int) (row : SourceRow γ) : DeliveryRow where
  outboxId := row.fact.outboxId
  status := if row.deliveredAt = none then .pending else .delivered
  attemptCount := 0
  leaseEpoch := 0
  fencingToken := none
  claimedBy := none
  leaseExpiresAt := none
  nextAttemptAt := row.deliveredAt.getD now
  retryPolicy := policy
  lastError := none
  deliveredAt := row.deliveredAt
  deadLetteredAt := none

/-- `_discover`: a delivery row for every source row without one. -/
def OutboxDb.discover (policy : OutboxRetryPolicy) (now : Int) : OutboxDb γ :=
  { db with
    deliveries := db.deliveries.insertMissing (discovered policy now) db.source.rows }

/-- The `WHERE` clause both statements of `_expire_leases` share. -/
def DeliveryRow.lapsed (row : DeliveryRow) (now : Int) : Bool :=
  row.status == .leased && row.leaseExpiresAt.any fun expiry => decide (expiry ≤ now)

def DeliveryRow.expireFinal (row : DeliveryRow) (now : Int) : DeliveryRow :=
  { row with
    status := .deadLetter
    leaseExpiresAt := none
    nextAttemptAt := now
    lastError := some "delivery lease expired after final attempt"
    deadLetteredAt := some now }

def DeliveryRow.expireRetry (row : DeliveryRow) (now : Int) : DeliveryRow :=
  { row with
    status := .retryWait
    leaseExpiresAt := none
    nextAttemptAt := now
    lastError := some "delivery lease expired before acknowledgement" }

theorem DeliveryRow.expireFinal_outboxId (row : DeliveryRow) (now : Int) :
    (row.expireFinal now).outboxId = row.outboxId := rfl

theorem DeliveryRow.expireRetry_outboxId (row : DeliveryRow) (now : Int) :
    (row.expireRetry now).outboxId = row.outboxId := rfl

def OutboxDb.expireLeases (now : Int) : OutboxDb γ :=
  let final := db.deliveries.updateWhere
    (fun row => row.lapsed now && decide (row.retryPolicy.maxAttempts ≤ row.attemptCount))
    (·.expireFinal now) (·.expireFinal_outboxId now)
  { db with
    deliveries := final.updateWhere
      (fun row => row.lapsed now && decide (row.attemptCount < row.retryPolicy.maxAttempts))
      (·.expireRetry now) (·.expireRetry_outboxId now) }

/-- The columns `claim` sets. -/
def DeliveryRow.leaseTo (row : DeliveryRow) (attemptCount leaseEpoch : Nat) (token : String)
    (workerId : String) (expiresAt : Int) : DeliveryRow :=
  { row with
    status := .leased
    attemptCount := attemptCount
    leaseEpoch := leaseEpoch
    fencingToken := some token
    claimedBy := some workerId
    leaseExpiresAt := some expiresAt
    lastError := none }

theorem DeliveryRow.leaseTo_outboxId (row : DeliveryRow) (attemptCount leaseEpoch : Nat)
    (token : String) (workerId : String) (expiresAt : Int) :
    (row.leaseTo attemptCount leaseEpoch token workerId expiresAt).outboxId = row.outboxId := rfl

/-- The columns `acknowledge` sets. -/
def DeliveryRow.deliverAt (row : DeliveryRow) (now : Int) : DeliveryRow :=
  { row with
    status := .delivered
    leaseExpiresAt := none
    nextAttemptAt := now
    deliveredAt := some now
    deadLetteredAt := none
    lastError := none }

theorem DeliveryRow.deliverAt_outboxId (row : DeliveryRow) (now : Int) :
    (row.deliverAt now).outboxId = row.outboxId := rfl

def SourceRow.deliverAt (row : SourceRow γ) (now : Int) : SourceRow γ :=
  { row with deliveredAt := some now }

theorem SourceRow.deliverAt_outboxId (row : SourceRow γ) (now : Int) :
    (row.deliverAt now).fact.outboxId = row.fact.outboxId := rfl

/-- The columns `record_failure` sets, with the status, the time of the next attempt and
the time of dead-lettering. -/
def DeliveryRow.failWith (row : DeliveryRow) (next : OutboxDeliveryStatus × Int × Option Int)
    (error : String) : DeliveryRow :=
  { row with
    status := next.1
    leaseExpiresAt := none
    nextAttemptAt := next.2.1
    lastError := some error
    deadLetteredAt := next.2.2 }

theorem DeliveryRow.failWith_outboxId (row : DeliveryRow)
    (next : OutboxDeliveryStatus × Int × Option Int) (error : String) :
    (row.failWith next error).outboxId = row.outboxId := rfl

/-- What the query of `claim` selects. -/
structure Candidate where
  scope : String
  outboxOrdinal : Nat
  outboxId : String
  (attemptCount leaseEpoch : Nat)

/-- `ORDER BY` scope, ordinal, identity. -/
def Candidate.before (a b : Candidate) : Prop :=
  a.scope < b.scope ∨ (a.scope = b.scope ∧ (a.outboxOrdinal < b.outboxOrdinal ∨
    (a.outboxOrdinal = b.outboxOrdinal ∧ a.outboxId ≤ b.outboxId)))

instance Candidate.decidableBefore : DecidableRel Candidate.before := fun a b =>
  inferInstanceAs (Decidable (a.scope < b.scope ∨ (a.scope = b.scope ∧
    (a.outboxOrdinal < b.outboxOrdinal ∨
      (a.outboxOrdinal = b.outboxOrdinal ∧ a.outboxId ≤ b.outboxId)))))

def DeliveryRow.claimable (row : DeliveryRow) : Bool :=
  row.status == .pending || row.status == .retryWait

/-- The source rows that may be claimed now. -/
def OutboxDb.candidates (now : Int) : List Candidate :=
  db.source.rows.filterMap fun o =>
    match db.deliveries.find? o.fact.outboxId with
    | some d =>
      if o.deliveredAt = none ∧ d.claimable ∧ d.nextAttemptAt ≤ now then
        some ⟨o.fact.scope, o.fact.outboxOrdinal, o.fact.outboxId, d.attemptCount, d.leaseEpoch⟩
      else none
    | none => none

def OutboxDb.joinedRow (dialect : StoreDialect γ) (outboxId : String) :
    Except OutboxError (SourceRow γ × DeliveryRow) :=
  match db.source.find? outboxId, db.deliveries.find? outboxId with
  | some source, some delivery => .ok (source, delivery)
  | _, _ => .error dialect.missing

/-- A text compared with a column that may be NULL. -/
def StoreDialect.sameToken (dialect : StoreDialect γ) (stored given : Option String) : Bool :=
  match given with
  | some token => dialect.sameText stored token
  | none => false

/-- `_require_current_fence`. -/
def DeliveryRow.holdsFence (row : DeliveryRow) (claim : OutboxDeliveryClaim) : Bool :=
  row.status == .leased && row.leaseEpoch == claim.delivery.leaseEpoch &&
    row.fencingToken == claim.delivery.fencingToken &&
    row.claimedBy == claim.delivery.claimedBy

end Statements

/-! ## The methods -/

section Methods

variable {γ : Type} (dialect : StoreDialect γ) (db : OutboxDb γ)

def OutboxDb.claim (policy : OutboxRetryPolicy) (workerId : String) (leaseDuration now : Int) :
    Except OutboxError (Option OutboxDeliveryClaim × OutboxDb γ) := do
  refuse (workerId == "") (.value "worker_id must be a nonempty string")
  refuse (decide (leaseDuration ≤ 0)) (.value "lease_duration must be positive")
  let db := (db.discover policy now).expireLeases now
  match ((db.candidates now).insertionSort Candidate.before).head? with
  | none => .ok (none, db)
  | some candidate => do
      let selects := fun row : DeliveryRow => row.outboxId == candidate.outboxId &&
        row.claimable && row.leaseEpoch == candidate.leaseEpoch
      refuse (db.deliveries.rowcount selects != 1) dialect.claimLost
      let leased := { db with
        deliveries := db.deliveries.updateWhere selects (fun row =>
          row.leaseTo (candidate.attemptCount + 1) (candidate.leaseEpoch + 1)
            (dialect.token candidate.outboxId (candidate.leaseEpoch + 1)) workerId
            (now + leaseDuration)) (·.leaseTo_outboxId _ _ _ _ _) }
      let joined ← leased.joinedRow dialect candidate.outboxId
      let message ← dialect.message joined.1.fact
      match makeClaim message joined.2 with
      | .error text => .error (dialect.invalidClaim text)
      | .ok claim => .ok (some claim, leased)

def OutboxDb.acknowledge (claim : OutboxDeliveryClaim) (now : Int) :
    Except OutboxError (DeliveryRow × OutboxDb γ) := do
  let outboxId := claim.message.outboxId
  let db := db.expireLeases now
  let joined ← db.joinedRow dialect outboxId
  if joined.2.status == .delivered &&
      dialect.sameToken joined.2.fencingToken claim.delivery.fencingToken then
    .ok (joined.2, db)
  else do
    refuse (!joined.2.holdsFence claim) dialect.staleFence
    let selects := fun row : DeliveryRow => row.outboxId == outboxId && row.holdsFence claim
    refuse (db.deliveries.rowcount selects != 1) dialect.staleAcknowledgement
    let undelivered := fun row : SourceRow γ =>
      row.fact.outboxId == outboxId && row.deliveredAt.isNone
    refuse (db.source.rowcount undelivered != 1) dialect.inconsistent
    let written : OutboxDb γ := {
      source := db.source.updateWhere undelivered (·.deliverAt now) (·.deliverAt_outboxId now)
      deliveries := db.deliveries.updateWhere selects (·.deliverAt now) (·.deliverAt_outboxId now) }
    let joined ← written.joinedRow dialect outboxId
    .ok (joined.2, written)

/-- The status, time of the next attempt and time of dead-lettering after a failure. -/
def DeliveryRow.afterFailure (row : DeliveryRow) (now : Int) :
    Except OutboxError (OutboxDeliveryStatus × Int × Option Int) :=
  if row.retryPolicy.maxAttempts ≤ row.attemptCount then .ok (.deadLetter, now, some now)
  else do
    let delay ← row.retryPolicy.delayAfter row.attemptCount
    .ok (.retryWait, now + delay, none)

def OutboxDb.recordFailure (claim : OutboxDeliveryClaim) (error : String) (now : Int) :
    Except OutboxError (DeliveryRow × OutboxDb γ) := do
  refuse (error == "") dialect.badError
  let error := String.ofList (error.toList.take 1000)
  let outboxId := claim.message.outboxId
  let db := db.expireLeases now
  let joined ← db.joinedRow dialect outboxId
  if (joined.2.status == .retryWait || joined.2.status == .deadLetter) &&
      dialect.sameToken joined.2.fencingToken claim.delivery.fencingToken &&
      dialect.sameText joined.2.lastError error then
    .ok (joined.2, db)
  else do
    refuse (!joined.2.holdsFence claim) dialect.staleFence
    let next ← joined.2.afterFailure now
    let selects := fun row : DeliveryRow => row.outboxId == outboxId && row.holdsFence claim
    refuse (db.deliveries.rowcount selects != 1) dialect.staleFailure
    let written := { db with
      deliveries := db.deliveries.updateWhere selects (·.failWith next error)
        (·.failWith_outboxId next error) }
    let joined ← written.joinedRow dialect outboxId
    .ok (joined.2, written)

/-- `reconcile` of the stream store. -/
def OutboxDb.reconcile (policy : OutboxRetryPolicy) (now : Int) : OutboxDb γ :=
  (db.discover policy now).expireLeases now

/-- The outbox part of a publication: the source row, undelivered, and in the stream
store its delivery row. -/
def OutboxDb.append (fact : OutboxFact γ) (policy : OutboxRetryPolicy) (createdAt : Int) :
    Except OutboxError (OutboxDb γ) := do
  refuse (db.source.rows.any fun row => row.fact.scope == fact.scope &&
    row.fact.outboxOrdinal == fact.outboxOrdinal) dialect.conflict
  let row : SourceRow γ := ⟨fact, none⟩
  match db.source.insert? row with
  | none => .error dialect.conflict
  | some source =>
    if dialect.enrols then
      match db.deliveries.insert? (discovered policy createdAt row) with
      | none => .error dialect.conflict
      | some deliveries => .ok ⟨source, deliveries⟩
    else .ok { db with source := source }

end Methods

/-! ## The two stores -/

/-- What the columns of a payload decode to. -/
structure EventIdentityOutboxWireRecord where
  (outboxId recordingIdentity assignmentLogicalKey topic key : String)

/-- The digest, `uuid5` in the URL namespace, and the registered wire format. -/
structure Codec where
  exactBytesSha256 : Payload → String
  uuid5 : String → String
  parse : Payload → Option EventIdentityOutboxWireRecord
  canonicalJsonBytes : EventIdentityOutboxWireRecord → Payload

/-- The other columns of `primary_outbox`. -/
structure PrimaryContent where
  (recordingIdentity assignmentLogicalKey : String)
  payloadJson : Payload
  payloadJsonSha256 : String

/-- The other columns of `stream_delivery_outbox`. -/
structure StreamContent where
  (messageKind topic messageKey : String)
  payload : Payload
  payloadSha256 : String
  createdAt : Int

variable (codec : Codec)

/-- `OutboxMessage.__post_init__`. -/
def checkMessage (message : OutboxMessage) : Except String OutboxMessage :=
  let named : List (String × String) := [("outbox_id", message.outboxId),
    ("completion_run_id", message.completionRunId),
    ("recording_identity", message.recordingIdentity), ("topic", message.topic),
    ("key", message.key), ("payload_sha256", message.payloadSha256)]
  match named.find? fun field => field.2 == "" with
  | some field => .error (field.1 ++ " must be a nonempty string")
  | none =>
    if codec.exactBytesSha256 message.payload == message.payloadSha256 then .ok message
    else .error "payload_sha256 does not match exact payload bytes"

/-- `_message_from_row` of the primary store. -/
def primaryMessage (fact : OutboxFact PrimaryContent) : Except OutboxError OutboxMessage := do
  let row := fact.content
  refuse (codec.exactBytesSha256 row.payloadJson != row.payloadJsonSha256)
    (.delivery "primary outbox payload exact digest is corrupt")
  match codec.parse row.payloadJson with
  | none => .error (.delivery "primary outbox payload is not a valid record")
  | some record => do
      refuse (codec.canonicalJsonBytes record != row.payloadJson)
        (.delivery "primary outbox payload is not canonical JSON")
      refuse (record.outboxId != fact.outboxId ||
          record.recordingIdentity != row.recordingIdentity ||
          record.assignmentLogicalKey != row.assignmentLogicalKey)
        (.delivery "primary outbox columns disagree with exact payload")
      match checkMessage codec ⟨record.outboxId, fact.scope, record.recordingIdentity,
          fact.outboxOrdinal, record.topic, record.key, row.payloadJson,
          row.payloadJsonSha256⟩ with
      | .ok message => .ok message
      | .error text => .error (.delivery ("cannot claim primary outbox row: " ++ text))

/-- The message of `_claim_from_row` of the stream store. -/
def streamMessage (fact : OutboxFact StreamContent) : Except OutboxError OutboxMessage := do
  let row := fact.content
  let texts : List (String × String) := [("outbox_id", fact.outboxId), ("plan_key", fact.scope),
    ("topic", row.topic), ("message_key", row.messageKey),
    ("payload_sha256", row.payloadSha256)]
  match texts.find? fun field => field.2 == "" with
  | some field =>
    .error (.delivery ("persisted " ++ field.1 ++ " must be nonempty text"))
  | none =>
    match checkMessage codec ⟨fact.outboxId, fact.scope, fact.scope, fact.outboxOrdinal,
        row.topic, row.messageKey, row.payload, row.payloadSha256⟩ with
    | .ok message => .ok message
    | .error text => .error (.delivery ("stream delivery claim failed: " ++ text))

/-- `SQLitePrimaryOutboxDeliveryStore`. -/
def primaryStore : StoreDialect PrimaryContent where
  token outboxId leaseEpoch := codec.uuid5
    ("robata:primary-outbox-delivery:" ++ outboxId ++ ":" ++ toString leaseEpoch)
  message := primaryMessage codec
  invalidClaim text := .delivery ("cannot claim primary outbox row: " ++ text)
  -- the column is read through `str`, which writes NULL as a text
  sameText stored given := stored.getD "None" == given
  enrols := false
  missing := .delivery "primary outbox delivery row is missing"
  claimLost := .delivery "outbox claim lost its atomic state transition"
  staleFence := .fence "outbox delivery claim is stale"
  staleAcknowledgement := .fence "delivery acknowledgement fence is stale"
  inconsistent := .delivery "primary outbox acknowledgement is inconsistent"
  staleFailure := .fence "delivery failure fence is stale"
  badError := .value "error must be a nonempty string"
  conflict := .delivery "primary outbox facts are append-only"

/-- `SQLiteStreamDeliveryAuthority`. -/
def streamStore : StoreDialect StreamContent where
  token outboxId leaseEpoch := codec.uuid5
    ("robata:stream-outbox-lease-v1:" ++ outboxId ++ ":" ++ toString leaseEpoch)
  message := streamMessage codec
  invalidClaim text := .delivery ("stream delivery claim failed: " ++ text)
  sameText stored given := stored == some given
  enrols := true
  missing := .delivery "stream outbox row is missing"
  claimLost := .delivery "stream outbox claim lost its fence"
  staleFence := .fence "stream delivery fence is stale"
  staleAcknowledgement := .fence "stream delivery acknowledgement fence is stale"
  inconsistent := .delivery "stream outbox acknowledgement is inconsistent"
  staleFailure := .fence "stream delivery failure fence is stale"
  badError := .value "error must be a nonempty string"
  conflict := .delivery "stream outbox rows are append-only"

end Robata.Outbox
