import Robata.Lib.Transaction

/-!
# Durable-work contracts

The data model of the work ledger: plans, dependencies, ledger rows, leases and
attempts, with the validation that turns a stored row into a `WorkItem`.

Conventions of the embedding:

* an `OpaqueUuid` and a `Sha256Digest` are fixed-width lowercase hexadecimal
  texts, so a text is its number and the `ORDER BY` of the text is the order of
  the numbers;
* an instant is an `Int`, a number of microseconds, the resolution of a UTC
  `datetime`; a timestamp text is a wall-clock reading with its UTC offset, so one instant has
  many spellings;
* the literal `schema_version` has a single value and is left out.
-/

namespace Robata.Queue

open Lib

/-- Lowercase UUID text, read as its 128-bit number. -/
abbrev OpaqueUuid := Nat

/-- Lowercase SHA-256 text, read as its 256-bit number. -/
abbrev Sha256Digest := Nat

/-- The last instant a `datetime` can hold, 9999-12-31T23:59:59.999999Z. -/
def maxInstant : Int := 253402300799999999

/-- The largest value of an SQLite `INTEGER` column. -/
def maxSqliteInteger : Nat := 9223372036854775807

/-! ## Errors -/

/-- The exceptions of the ledger.  `value` stands for `ValueError`, of which a
model validation failure is a case; `overflow` for `OverflowError`. -/
inductive WorkError
  | storage (message : String)
  | conflict (message : String)
  | notFound (workItemId : OpaqueUuid)
  | fence (message : String)
  | state (message : String)
  | value (message : String)
  | overflow
  deriving DecidableEq

/-- Raise a `ValueError` when a validator finds its condition. -/
def reject (found : Bool) (message : String) : Except WorkError Unit :=
  if found then .error (.value message) else .ok ()

@[simp] theorem reject_eq_ok_iff {found : Bool} {message : String} :
    reject found message = .ok () ↔ found = false := by
  cases found <;> simp [reject]

@[simp] theorem reject_bind_eq_ok_iff {α : Type} {found : Bool} {message : String}
    {rest : Unit → Except WorkError α} {a : α} :
    (reject found message >>= rest) = .ok a ↔ found = false ∧ rest () = .ok a := by
  cases found <;> simp [reject]

/-! ## Text and time -/

/-- Text with at least one character. -/
@[ext]
structure NonEmptyString where
  val : String
  nonempty : val ≠ ""

instance : DecidableEq NonEmptyString := fun _ _ => decidable_of_iff _ NonEmptyString.ext_iff.symm

/-- The characters `str.strip` removes. -/
def isPythonSpace (c : Char) : Bool :=
  let n := c.toNat
  (9 ≤ n && n ≤ 13) || (28 ≤ n && n ≤ 32) || n == 0x85 || n == 0xA0 || n == 0x1680 ||
    (0x2000 ≤ n && n ≤ 0x200A) || n == 0x2028 || n == 0x2029 || n == 0x202F || n == 0x205F ||
    n == 0x3000

/-- `_nonempty`: a caller's text must hold more than white space. -/
def nonempty (value fieldName : String) : Except WorkError NonEmptyString :=
  if h : value.toList.all isPythonSpace = false then
    .ok ⟨value, by rintro rfl; simp at h⟩
  else
    .error (.value (fieldName ++ " must be a nonempty string"))

/-- `_nonempty` on an optional text. -/
def nonemptyOption (value : Option String) (fieldName : String) :
    Except WorkError (Option NonEmptyString) :=
  match value with
  | none => .ok none
  | some text => (nonempty text fieldName).map some

/-- RFC 3339 text: a wall-clock reading in microseconds and its UTC offset. -/
structure Rfc3339Timestamp where
  (wall utcOffset : Int)
  deriving DecidableEq

/-- `_parse_timestamp`: the instant a timestamp text names. -/
def parseTimestamp (text : Rfc3339Timestamp) : Int :=
  text.wall - text.utcOffset

/-- `_format_timestamp`: the UTC spelling.  It has a fixed width, so comparing
two of these texts is comparing their instants. -/
def formatTimestamp (instant : Int) : Rfc3339Timestamp :=
  ⟨instant, 0⟩

def normalizeTimestamp (text : Rfc3339Timestamp) : Rfc3339Timestamp :=
  formatTimestamp (parseTimestamp text)

@[simp] theorem parseTimestamp_formatTimestamp (instant : Int) :
    parseTimestamp (formatTimestamp instant) = instant := by
  simp [parseTimestamp, formatTimestamp]

@[simp] theorem parseTimestamp_normalizeTimestamp (text : Rfc3339Timestamp) :
    parseTimestamp (normalizeTimestamp text) = parseTimestamp text :=
  parseTimestamp_formatTimestamp _

/-- `now + timedelta(seconds=…)`, which raises past the last `datetime`. -/
def addSeconds (now : Int) (seconds : Nat) : Except WorkError Int :=
  if now + (seconds : Int) * 1000000 ≤ maxInstant then
    .ok (now + (seconds : Int) * 1000000)
  else
    .error .overflow

theorem le_of_addSeconds {now later : Int} {seconds : Nat}
    (h : addSeconds now seconds = .ok later) : now ≤ later := by
  unfold addSeconds at h
  split at h
  · cases h
    omega
  · cases h

/-! ## Enumerations -/

/-- Canonical pipeline stages. -/
inductive Stage
  | mcapIngest | inspectMap | align
  | qaCoarsePlan | sampleMaterialize
  | qwenQaCoarse | qaSuspicionReduce | qaDensePlan | qwenQaDense
  | qaAggregate
  | eventProposalPlan | qwenEventProposal | eventProposalReduce
  | actionDensePlan | qwenActionEvidence
  | fusionProvisional | boundaryPlan | qwenBoundary | fusionFinal
  | actionPublish | retrievalIndex | valueScore
  deriving DecidableEq

/-- Classification of the subject of a work item. -/
inductive WorkItemSubjectType
  | mcap | window | packageSet | package | splitReduction | candidate | event | inference
  deriving DecidableEq

/-- How strongly a downstream item depends on an upstream one. -/
inductive DependencyCriticality
  | required | degradable | optional
  deriving DecidableEq

inductive WorkItemState
  | planned | ready | leased | running | retryWait
  | succeeded | failedPermanent | skippedPolicy | skippedNotNeeded
  | cancelled | expired | invalidated
  deriving DecidableEq

inductive WorkAttemptOutcome
  | active | succeeded | failedRetryable | failedPermanent | abandoned
  | cancelled | expired | invalidated | skipped
  deriving DecidableEq

namespace WorkItemState

/-- The persisted text of a state. -/
def value : WorkItemState → String
  | planned => "PLANNED"
  | ready => "READY"
  | leased => "LEASED"
  | running => "RUNNING"
  | retryWait => "RETRY_WAIT"
  | succeeded => "SUCCEEDED"
  | failedPermanent => "FAILED_PERMANENT"
  | skippedPolicy => "SKIPPED_POLICY"
  | skippedNotNeeded => "SKIPPED_NOT_NEEDED"
  | cancelled => "CANCELLED"
  | expired => "EXPIRED"
  | invalidated => "INVALIDATED"

/-- Membership in `TERMINAL_WORK_STATES`. -/
def isTerminal : WorkItemState → Bool
  | succeeded | failedPermanent | skippedPolicy | skippedNotNeeded
  | cancelled | expired | invalidated => true
  | planned | ready | leased | running | retryWait => false

/-- Membership in `SUCCESSFUL_DEPENDENCY_STATES`. -/
def isSuccessful : WorkItemState → Bool
  | succeeded | skippedPolicy | skippedNotNeeded => true
  | _ => false

/-- `LEASED` or `RUNNING`: the states that hold a lease. -/
def isActive : WorkItemState → Bool
  | leased | running => true
  | _ => false

/-- The states an item can only be in once it has been released. -/
def isReleased : WorkItemState → Bool
  | ready | leased | running | retryWait | succeeded => true
  | _ => false

theorem not_isTerminal_of_isActive {state : WorkItemState} (h : state.isActive = true) :
    state.isTerminal = false := by
  cases state <;> simp_all [isActive, isTerminal]

end WorkItemState

/-! ## Plans and rows -/

/-- Immutable identity and scheduling policy of a work item. -/
@[ext]
structure WorkItemPlan where
  workItemId : OpaqueUuid
  workLogicalKey : NonEmptyString
  (runId mcapId : OpaqueUuid)
  stage : Stage
  subjectType : WorkItemSubjectType
  subjectId : OpaqueUuid
  (inputDigest configDigest : Sha256Digest)
  priority : Nat
  (slaDeadlineAt executionExpiryAt : Option Rfc3339Timestamp)
  maxAttempts : Nat
  traceId : Option NonEmptyString
  createdAt : Rfc3339Timestamp
  maxAttempts_pos : 0 < maxAttempts

instance : DecidableEq WorkItemPlan := fun _ _ => decidable_of_iff _ WorkItemPlan.ext_iff.symm

structure WorkDependency where
  (dependencyId downstreamWorkItemId upstreamWorkItemId : OpaqueUuid)
  criticality : DependencyCriticality
  distinctNodes : downstreamWorkItemId ≠ upstreamWorkItemId
  deriving DecidableEq

structure WorkRow extends WorkItemPlan where
  state : WorkItemState
  cancelRequested : Bool
  leaseEpoch : Nat
  (fencingToken leasedBy : Option NonEmptyString)
  leaseExpiresAt : Option Rfc3339Timestamp
  attempt : Nat
  retryNotBeforeAt : Option Rfc3339Timestamp
  (terminalReasonCode terminalReasonDetail resultReference : Option NonEmptyString)
  resultSha256 : Option Sha256Digest
  completedAt : Option Rfc3339Timestamp
  updatedAt : Rfc3339Timestamp
  rowVersion : Nat
  deriving DecidableEq

/-- Opaque capability required for every mutation of a claimed item. -/
@[ext]
structure WorkLease where
  workItemId : OpaqueUuid
  workerId : NonEmptyString
  leaseEpoch : Nat
  fencingToken : NonEmptyString
  leaseExpiresAt : Rfc3339Timestamp
  leaseEpoch_pos : 0 < leaseEpoch

instance : DecidableEq WorkLease := fun _ _ => decidable_of_iff _ WorkLease.ext_iff.symm

structure WorkAttempt where
  workItemId : OpaqueUuid
  (attemptNumber leaseEpoch : Nat)
  (fencingToken workerId : NonEmptyString)
  claimedAt : Rfc3339Timestamp
  (startedAt completedAt : Option Rfc3339Timestamp)
  outcome : WorkAttemptOutcome
  (errorCode errorDetail : Option NonEmptyString)
  deriving DecidableEq

/-! ## Row validation -/

namespace WorkRow

/-- `WorkItem.validate_state_shape`, check by check. -/
def validateStateShape (r : WorkRow) : Except WorkError Unit := do
  let leaseMissing := r.fencingToken.isNone || r.leasedBy.isNone || r.leaseExpiresAt.isNone
  let leasePresent := r.fencingToken.isSome || r.leasedBy.isSome || r.leaseExpiresAt.isSome
  reject (r.state.isActive && leaseMissing)
    "leased or running work requires complete lease metadata"
  reject (!r.state.isActive && leasePresent) "only leased or running work may retain lease metadata"
  reject (r.state.isActive && (r.leaseEpoch == 0 || r.attempt == 0))
    "leased or running work requires positive epoch and attempt"
  reject (r.state == .retryWait && r.retryNotBeforeAt.isNone)
    "retry-wait work requires retry_not_before_at"
  reject (r.state != .retryWait && r.retryNotBeforeAt.isSome)
    "only retry-wait work may have retry_not_before_at"
  reject (r.state.isTerminal != r.completedAt.isSome)
    "terminal work and completed_at must be present together"
  reject (r.state.isTerminal && r.state != .succeeded && r.terminalReasonCode.isNone)
    "non-success terminal work requires a reason code"
  reject (!r.state.isTerminal && r.terminalReasonCode.isSome)
    "nonterminal work cannot have a terminal reason"
  reject (r.terminalReasonDetail.isSome && r.terminalReasonCode.isNone)
    "terminal reason detail requires a reason code"
  reject (r.resultReference.isNone != r.resultSha256.isNone)
    "result reference and digest must be present together"
  reject (r.state != .succeeded && r.resultReference.isSome)
    "only succeeded work may publish a result"
  reject (decide (parseTimestamp r.updatedAt < parseTimestamp r.createdAt))
    "updated_at cannot precede created_at"

/-- Everything `validate_state_shape` asks of a row except the order of its two
timestamps. -/
structure Shape (r : WorkRow) : Prop where
  lease_complete : r.state.isActive = true →
    r.fencingToken.isSome = true ∧ r.leasedBy.isSome = true ∧ r.leaseExpiresAt.isSome = true
  lease_absent : r.state.isActive = false →
    r.fencingToken = none ∧ r.leasedBy = none ∧ r.leaseExpiresAt = none
  lease_positive : r.state.isActive = true → 0 < r.leaseEpoch ∧ 0 < r.attempt
  retry_iff : r.state = .retryWait ↔ r.retryNotBeforeAt.isSome = true
  completed_iff : r.state.isTerminal = true ↔ r.completedAt.isSome = true
  reason_present : r.state.isTerminal = true → r.state ≠ .succeeded →
    r.terminalReasonCode.isSome = true
  reason_absent : r.state.isTerminal = false → r.terminalReasonCode = none
  detail_needs_code : r.terminalReasonDetail.isSome = true → r.terminalReasonCode.isSome = true
  result_paired : r.resultReference.isSome = r.resultSha256.isSome
  result_succeeded : r.state ≠ .succeeded → r.resultReference = none

/-- `updated_at` does not precede `created_at`. -/
def ClockOrdered (r : WorkRow) : Prop :=
  parseTimestamp r.createdAt ≤ parseTimestamp r.updatedAt

instance (r : WorkRow) : Decidable r.ClockOrdered :=
  inferInstanceAs (Decidable (_ ≤ _))

/-- The validator accepts exactly the rows of the right shape whose timestamps
are in order. -/
theorem validateStateShape_eq_ok_iff (r : WorkRow) :
    r.validateStateShape = .ok () ↔ r.Shape ∧ r.ClockOrdered := by
  have hconj : r.validateStateShape = .ok () ↔
      ((r.state.isActive && (r.fencingToken.isNone || r.leasedBy.isNone ||
          r.leaseExpiresAt.isNone)) = false ∧
        (!r.state.isActive && (r.fencingToken.isSome || r.leasedBy.isSome ||
          r.leaseExpiresAt.isSome)) = false ∧
        (r.state.isActive && (r.leaseEpoch == 0 || r.attempt == 0)) = false ∧
        (r.state == .retryWait && r.retryNotBeforeAt.isNone) = false ∧
        (r.state != .retryWait && r.retryNotBeforeAt.isSome) = false ∧
        (r.state.isTerminal != r.completedAt.isSome) = false ∧
        (r.state.isTerminal && r.state != .succeeded && r.terminalReasonCode.isNone) = false ∧
        (!r.state.isTerminal && r.terminalReasonCode.isSome) = false ∧
        (r.terminalReasonDetail.isSome && r.terminalReasonCode.isNone) = false ∧
        (r.resultReference.isNone != r.resultSha256.isNone) = false ∧
        (r.state != .succeeded && r.resultReference.isSome) = false ∧
        decide (parseTimestamp r.updatedAt < parseTimestamp r.createdAt) = false) := by
    simp only [validateStateShape, reject_bind_eq_ok_iff, reject_eq_ok_iff]
  rw [hconj]
  constructor
  · rintro ⟨h1, h2, h3, h4, h5, h6, h7, h8, h9, h10, h11, h12⟩
    refine ⟨⟨?_, ?_, ?_, ?_, ?_, ?_, ?_, ?_, ?_, ?_⟩, ?_⟩
    · intro ha
      simpa [ha, and_assoc] using h1
    · intro ha
      simpa [ha, and_assoc] using h2
    · intro ha
      have hpos : ¬ r.leaseEpoch = 0 ∧ ¬ r.attempt = 0 := by simpa [ha] using h3
      omega
    · by_cases hs : r.state = .retryWait <;> simp_all
    · by_cases hs : r.state.isTerminal = true <;> simp_all
    · intro ht hs
      simpa [ht, hs] using h7
    · intro ht
      simpa [ht] using h8
    · intro hd
      simpa [hd] using h9
    · cases hr : r.resultReference <;> cases hd : r.resultSha256 <;> simp_all
    · intro hs
      simpa [hs] using h11
    · simpa [ClockOrdered] using h12
  · rintro ⟨⟨h1, h2, h3, h4, h5, h6, h7, h8, h9, h10⟩, hclock⟩
    refine ⟨?_, ?_, ?_, ?_, ?_, ?_, ?_, ?_, ?_, ?_, ?_, ?_⟩
    · cases ha : r.state.isActive
      · rfl
      · simp_all
    · cases ha : r.state.isActive
      · obtain ⟨t1, t2, t3⟩ := h2 ha
        simp [t1, t2, t3]
      · rfl
    · cases ha : r.state.isActive
      · rfl
      · obtain ⟨t1, t2⟩ := h3 ha
        simp
        omega
    · by_cases hs : r.state = .retryWait <;> simp_all
    · by_cases hs : r.state = .retryWait <;> simp_all
    · cases ht : r.state.isTerminal <;> cases hc : r.completedAt <;> simp_all
    · cases ht : r.state.isTerminal
      · rfl
      · by_cases hs : r.state = .succeeded
        · simp [hs]
        · simp_all
    · cases ht : r.state.isTerminal
      · simp [h7 ht]
      · rfl
    · cases hd : r.terminalReasonDetail
      · rfl
      · simp_all
    · cases hr : r.resultReference <;> cases hd : r.resultSha256 <;> simp_all
    · by_cases hs : r.state = .succeeded
      · simp [hs]
      · simp [h10 hs]
    · simpa [ClockOrdered] using hclock

end WorkRow

/-- A ledger row that has passed its validation. -/
structure WorkItem where
  row : WorkRow
  valid : row.validateStateShape = .ok ()

def itemFromRow (r : WorkRow) : Except WorkError WorkItem :=
  match h : r.validateStateShape with
  | .ok () => .ok ⟨r, h⟩
  | .error e => .error e

theorem itemFromRow_eq_ok_iff {r : WorkRow} {item : WorkItem} :
    itemFromRow r = .ok item ↔ item.row = r := by
  unfold itemFromRow
  split
  · constructor
    · intro hitem
      cases hitem
      rfl
    · rintro rfl
      rfl
  · rename_i e h
    constructor
    · intro hitem
      cases hitem
    · rintro rfl
      rw [item.valid] at h
      cases h

theorem itemFromRow_readable_iff {r : WorkRow} :
    (∃ item, itemFromRow r = .ok item) ↔ r.Shape ∧ r.ClockOrdered := by
  rw [← r.validateStateShape_eq_ok_iff]
  constructor
  · rintro ⟨item, h⟩
    rw [itemFromRow_eq_ok_iff] at h
    exact h ▸ item.valid
  · intro h
    exact ⟨⟨r, h⟩, itemFromRow_eq_ok_iff.mpr rfl⟩

end Robata.Queue
