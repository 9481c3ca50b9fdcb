import Robata.Contracts.Common
import Robata.Lib.KeyedTable
import Robata.Queue.Models

/-!
# Contracts of the human review queue

Tasks, annotations and reopen commands are immutable documents; a snapshot is the mutable
queue state around a task, and a lease the fenced authority to submit one annotation.  A
document is compared as a whole; the fields that no queue method reads are one text,
`otherFields`.

The wire format, the digest of exact bytes and the schema registry are parameters.
-/

namespace Robata.Review

open Contracts Lib
open Queue (isPythonSpace)

/-! ## Errors -/

inductive ReviewQueueErrorCode
  | invalidRequest
  | taskNotFound
  | taskConflict
  | notClaimable
  | staleFence
  | leaseExpired
  | annotationConflict
  | reopenConflict
  | storageIoError
  | integrityError

/-- What a queue method raises: a `ReviewQueueError`, or the `ValueError` of a document
that cannot be built or encoded. -/
inductive ReviewFailure
  | queue (code : ReviewQueueErrorCode) (message : String)
  | value (message : String)

/-- Raise when a check finds its condition. -/
def refuse (found : Bool) (e : ReviewFailure) : Except ReviewFailure Unit :=
  if found then .error e else .ok ()

@[simp] theorem refuse_bind_eq_ok {α : Type} {found : Bool} {e : ReviewFailure}
    {rest : Unit → Except ReviewFailure α} {a : α} :
    (refuse found e >>= rest) = .ok a ↔ found = false ∧ rest () = .ok a := by
  cases found <;> simp [refuse]

def integrityError (message : String) : ReviewFailure :=
  .queue .integrityError message

/-- A `sqlite3.IntegrityError`, as `_transaction` re-raises it. -/
def constraintFailure (message : String) : ReviewFailure :=
  .queue .integrityError ("review queue integrity failure: " ++ message)

/-! ## Documents -/

structure ReviewSubject where
  subjectType : String
  subjectId : NodeLogicalKey
  recordingIdentity : Sha256Digest
  selectedRevisionLogicalKey : Option NodeLogicalKey
  deriving DecidableEq

@[ext]
structure ReviewTask where
  reviewTaskId : OpaqueUuid
  semanticSha256 : Sha256Digest
  requestId : OpaqueUuid
  subject : ReviewSubject
  priority : Nat
  (requestedAtNs dueAtNs : Int)
  otherFields : String
  due : requestedAtNs < dueAtNs

instance : DecidableEq ReviewTask := fun _ _ => decidable_of_iff _ ReviewTask.ext_iff.symm

@[ext]
structure ReviewAnnotation where
  annotationId : OpaqueUuid
  semanticSha256 : Sha256Digest
  reviewTaskId : OpaqueUuid
  reviewTaskSemanticSha256 : Sha256Digest
  subject : ReviewSubject
  leaseFence : Nat
  (leaseOwner otherFields : String)
  fenced : 0 < leaseFence

instance : DecidableEq ReviewAnnotation := fun _ _ => decidable_of_iff _ ReviewAnnotation.ext_iff.symm

structure ReviewReopenCommand where
  reopenId : OpaqueUuid
  semanticSha256 : Sha256Digest
  (reviewTaskId expectedAnnotationId : OpaqueUuid)
  otherFields : String
  deriving DecidableEq

inductive ReviewTaskStatus
  | pending
  | leased
  | completed
  deriving DecidableEq

/-- `ReviewActorId`: between 1 and 256 characters. -/
def isActorId (text : String) : Bool :=
  1 ≤ text.length && text.length ≤ 256

def fitsInt64 (value : Int) : Bool :=
  decide (int64Min ≤ value) && decide (value ≤ int64Max)

structure ReviewTaskSnapshot where
  task : ReviewTask
  status : ReviewTaskStatus
  (leaseFence attemptCount : Nat)
  leaseOwner : Option String
  leaseExpiresAtNs : Option Int
  completedAnnotationId : Option OpaqueUuid

namespace ReviewTaskSnapshot

/-- The ranges of the counters, the owner and the expiry. -/
def fieldsValid (s : ReviewTaskSnapshot) : Bool :=
  fitsInt64 s.leaseFence && fitsInt64 s.attemptCount && s.leaseOwner.all isActorId &&
    s.leaseExpiresAtNs.all fitsInt64

def validateState (s : ReviewTaskSnapshot) : Except String Unit :=
  if s.attemptCount ≠ s.leaseFence then
    .error "attempt_count must equal the monotonically increasing lease fence"
  else if s.status = .leased then
    if s.leaseOwner = none ∨ s.leaseExpiresAtNs = none then
      .error "leased review task requires complete lease metadata"
    else if s.leaseFence = 0 then
      .error "leased review task requires a positive fence"
    else if s.completedAnnotationId ≠ none then
      .error "leased review task cannot have a completed annotation"
    else .ok ()
  else if s.leaseOwner ≠ none ∨ s.leaseExpiresAtNs ≠ none then
    .error "only leased review tasks may retain lease metadata"
  else if (s.status == .completed) != s.completedAnnotationId.isSome then
    .error "completed status and annotation ID must be present together"
  else .ok ()

end ReviewTaskSnapshot

@[ext]
structure ReviewLease where
  task : ReviewTask
  workerId : String
  leaseFence : Nat
  leaseExpiresAtNs : Int
  actor : isActorId workerId = true
  fenced : 0 < leaseFence

instance : DecidableEq ReviewLease := fun _ _ => decidable_of_iff _ ReviewLease.ext_iff.symm

/-- The constructor, with its validation. -/
def makeLease (task : ReviewTask) (workerId : String) (leaseFence : Nat) (leaseExpiresAtNs : Int) :
    Except ReviewFailure ReviewLease :=
  if h : isActorId workerId = true ∧ 0 < leaseFence then
    .ok ⟨task, workerId, leaseFence, leaseExpiresAtNs, h.1, h.2⟩
  else
    .error (.value "ReviewLease")

theorem makeLease_eq_ok {task : ReviewTask} {workerId : String} {leaseFence : Nat}
    {leaseExpiresAtNs : Int} {lease : ReviewLease}
    (h : makeLease task workerId leaseFence leaseExpiresAtNs = .ok lease) :
    lease.task = task ∧ lease.workerId = workerId ∧ lease.leaseFence = leaseFence ∧
      lease.leaseExpiresAtNs = leaseExpiresAtNs ∧ isActorId workerId = true := by
  unfold makeLease at h
  split at h
  · rename_i hvalid
    cases h
    exact ⟨rfl, rfl, rfl, rfl, hvalid.1⟩
  · cases h

/-! ## Parameters -/

/-- How a document is written and read: `canonical_json_bytes`, which may refuse it, and
`model_validate_json`. -/
structure WireFormat (α : Type) where
  canonicalJsonBytes : α → Except String (List UInt8)
  modelValidateJson : List UInt8 → Except String α
  roundTrip : ∀ model payload, canonicalJsonBytes model = .ok payload →
    modelValidateJson payload = .ok model

/-- The formats of the three documents, and the digest of their bytes. -/
structure ReviewCodec where
  exactBytesSha256 : List UInt8 → Sha256Digest
  task : WireFormat ReviewTask
  annotation : WireFormat ReviewAnnotation
  command : WireFormat ReviewReopenCommand

/-- The registered validators: `validate_registered_review_task` and its two siblings. -/
structure ReviewRegistry where
  task : ReviewTask → Except String Unit
  annotation : ReviewAnnotation → Except String Unit
  command : ReviewReopenCommand → Except String Unit

section Parameters

variable {α : Type} (sha256 : List UInt8 → Sha256Digest) (format : WireFormat α)
  (validator : α → Except String Unit)

def encodeModel (model : α) : Except ReviewFailure (List UInt8 × Sha256Digest) :=
  match format.canonicalJsonBytes model with
  | .ok payload => .ok (payload, sha256 payload)
  | .error text => .error (.value text)

def decodeModel (payload : List UInt8) (expectedSha256 : Sha256Digest) :
    Except ReviewFailure α := do
  refuse (sha256 payload != expectedSha256)
    (integrityError "persisted review payload exact digest mismatch")
  match format.modelValidateJson payload with
  | .ok model => .ok model
  | .error text => .error (integrityError ("invalid persisted review payload: " ++ text))

def validateForWrite (model : α) (label : String) : Except ReviewFailure Unit :=
  match validator model with
  | .ok () => .ok ()
  | .error text => .error
      (.queue .invalidRequest (label ++ " registered schema validation failed: " ++ text))

def validatePersisted (model : α) (label : String) : Except ReviewFailure Unit :=
  match validator model with
  | .ok () => .ok ()
  | .error text => .error
      (integrityError ("persisted " ++ label ++ " registered schema validation failed: " ++ text))

/-- A document that can be stored, and what is stored of it. -/
structure Storable (model : α) (payload : List UInt8) (payloadSha256 : Sha256Digest) : Prop where
  valid : validator model = .ok ()
  encoded : format.canonicalJsonBytes model = .ok payload
  digest : sha256 payload = payloadSha256

variable {sha256 format validator} {model : α} {payload : List UInt8} {payloadSha256 : Sha256Digest}

theorem storable_of_ok {β : Type} {label : String} {b : β}
    {rest : List UInt8 × Sha256Digest → Except ReviewFailure β}
    (h : (do validateForWrite validator model label let stored ← encodeModel sha256 format model
             rest stored) = .ok b) :
    ∃ payload payloadSha256, Storable sha256 format validator model payload payloadSha256 ∧
      rest (payload, payloadSha256) = .ok b := by
  obtain ⟨_, hvalid, h⟩ := bind_eq_ok.mp h
  obtain ⟨stored, hstored, h⟩ := bind_eq_ok.mp h
  unfold validateForWrite at hvalid
  unfold encodeModel at hstored
  split at hvalid
  · rename_i hok
    split at hstored
    · rename_i payload hpayload
      cases hstored
      exact ⟨payload, sha256 payload, ⟨hok, hpayload, rfl⟩, h⟩
    · cases hstored
  · cases hvalid

namespace Storable

variable (hmodel : Storable sha256 format validator model payload payloadSha256)

include hmodel

theorem validateForWrite_ok (label : String) : validateForWrite validator model label = .ok () := by
  simp [validateForWrite, hmodel.valid]

theorem encodeModel_ok : encodeModel sha256 format model = .ok (payload, payloadSha256) := by
  simp [encodeModel, hmodel.encoded, hmodel.digest]

theorem decodeModel_ok : decodeModel sha256 format payload payloadSha256 = .ok model := by
  have hread := format.roundTrip model payload hmodel.encoded
  simp [decodeModel, hmodel.digest, hread]

theorem validatePersisted_ok (label : String) :
    validatePersisted validator model label = .ok () := by
  simp [validatePersisted, hmodel.valid]

end Storable
end Parameters

/-! ## Arguments -/

def nonemptyString (value label : String) : Except ReviewFailure Unit :=
  refuse (value.toList.all isPythonSpace)
    (.queue .invalidRequest (label ++ " must be a nonempty string"))

def nanoseconds (value : Int) (label : String) : Except ReviewFailure Unit :=
  refuse (!fitsInt64 value) (.queue .invalidRequest (label ++ " must fit signed int64 nanoseconds"))

def positiveDuration (value : Int) : Except ReviewFailure Unit := do
  nanoseconds value "lease_duration_ns"
  refuse (decide (value ≤ 0)) (.queue .invalidRequest "lease_duration_ns must be positive")

def positiveFence (value : Int) : Except ReviewFailure Unit :=
  refuse (decide (value ≤ 0)) (.queue .invalidRequest "lease_fence must be a positive integer")

def checkedAdd (left right : Int) (label : String) : Except ReviewFailure Int := do
  refuse (!fitsInt64 (left + right))
    (.queue .invalidRequest (label ++ " exceeds signed int64 nanoseconds"))
  .ok (left + right)

end Robata.Review
