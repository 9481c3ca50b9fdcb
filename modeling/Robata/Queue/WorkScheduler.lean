import Robata.Lib.KeyedTable
import Robata.Queue.Models

/-!
# The authoritative work ledger

The state and the operations of `SQLiteWorkScheduler`.  A `WorkLedger` is the
content of its three tables.  Every operation is the body of one write
transaction: it returns the committed ledger or raises, and a raised
transaction is rolled back (`Lib.commit`).

The fenced calls `start`, `heartbeat`, `succeed` and `fail` run a second
transaction, `reconcileExactDueState`, when the first raises `WorkFenceError`.
Other workers may commit in between, so the two transactions are separate
operations of `SchedulerOp` here.

Reading conventions: SQL comparisons of stored timestamp texts are comparisons
of instants, since stored texts are normalised; `uuid4` is the argument
`fencingToken` of a claim.
-/

namespace Robata.Queue

open Lib List

/-- The tables `work_items`, `work_dependencies` and `work_attempts`. -/
structure WorkLedger where
  items : KeyedTable WorkRow OpaqueUuid (·.workItemId)
  deps : KeyedTable WorkDependency OpaqueUuid (·.dependencyId)
  attempts : KeyedTable WorkAttempt (OpaqueUuid × Nat) (fun a => (a.workItemId, a.attemptNumber))
  deriving DecidableEq

/-- Reason codes the scheduler itself writes. -/
def executionExpired : NonEmptyString := ⟨"EXECUTION_EXPIRED", by decide⟩

@[inherit_doc executionExpired]
def leaseExpired : NonEmptyString := ⟨"LEASE_EXPIRED", by decide⟩

@[inherit_doc executionExpired]
def leaseAttemptsExhausted : NonEmptyString := ⟨"LEASE_ATTEMPTS_EXHAUSTED", by decide⟩

@[inherit_doc executionExpired]
def requiredDependencyFailed : NonEmptyString := ⟨"REQUIRED_DEPENDENCY_FAILED", by decide⟩

/-- The columns `_set_terminal` is called with. -/
structure TerminalFacts where
  state : WorkItemState
  (reasonCode reasonDetail resultReference : Option NonEmptyString)
  resultSha256 : Option Sha256Digest
  cancelRequested : Bool

/-- A terminal outcome that publishes no result. -/
def TerminalFacts.ofReason (state : WorkItemState) (code : NonEmptyString)
    (detail : Option NonEmptyString) : TerminalFacts where
  state := state
  reasonCode := some code
  reasonDetail := detail
  resultReference := none
  resultSha256 := none
  cancelRequested := false

/-! ## Rows written by the update statements -/

namespace WorkRow

/-- The row `_set_terminal` writes. -/
def withTerminal (r : WorkRow) (facts : TerminalFacts) (now : Int) : WorkRow :=
  { r with
    state := facts.state
    cancelRequested := facts.cancelRequested
    fencingToken := none
    leasedBy := none
    leaseExpiresAt := none
    retryNotBeforeAt := none
    terminalReasonCode := facts.reasonCode
    terminalReasonDetail := facts.reasonDetail
    resultReference := facts.resultReference
    resultSha256 := facts.resultSha256
    completedAt := some (formatTimestamp now)
    updatedAt := formatTimestamp now
    rowVersion := r.rowVersion + 1 }

/-- The row a released `PLANNED` item gets. -/
def withReady (r : WorkRow) (now : Int) : WorkRow :=
  { r with
    state := .ready
    updatedAt := formatTimestamp now
    rowVersion := r.rowVersion + 1 }

/-- The row of an item whose retry delay has passed. -/
def withRetryReady (r : WorkRow) (now : Int) : WorkRow :=
  { r with
    state := .ready
    retryNotBeforeAt := none
    updatedAt := formatTimestamp now
    rowVersion := r.rowVersion + 1 }

/-- The row of an item whose expired lease is taken back. -/
def withRecovered (r : WorkRow) (now : Int) : WorkRow :=
  { r with
    state := .ready
    fencingToken := none
    leasedBy := none
    leaseExpiresAt := none
    updatedAt := formatTimestamp now
    rowVersion := r.rowVersion + 1 }

/-- The row of an item that waits for its next attempt. -/
def withRetryWait (r : WorkRow) (retryAt now : Int) : WorkRow :=
  { r with
    state := .retryWait
    fencingToken := none
    leasedBy := none
    leaseExpiresAt := none
    retryNotBeforeAt := some (formatTimestamp retryAt)
    updatedAt := formatTimestamp now
    rowVersion := r.rowVersion + 1 }

/-- The row of a claimed item. -/
def withClaim (r : WorkRow) (next : WorkItemState) (fencingToken workerId : NonEmptyString)
    (leaseExpiresAt now : Int) : WorkRow :=
  { r with
    state := next
    leaseEpoch := r.leaseEpoch + 1
    fencingToken := some fencingToken
    leasedBy := some workerId
    leaseExpiresAt := some (formatTimestamp leaseExpiresAt)
    attempt := r.attempt + 1
    updatedAt := formatTimestamp now
    rowVersion := r.rowVersion + 1 }

/-- The row of a started item. -/
def withRunning (r : WorkRow) (now : Int) : WorkRow :=
  { r with
    state := .running
    updatedAt := formatTimestamp now
    rowVersion := r.rowVersion + 1 }

/-- The row of an item whose lease is renewed. -/
def withRenewal (r : WorkRow) (leaseExpiresAt now : Int) : WorkRow :=
  { r with
    leaseExpiresAt := some (formatTimestamp leaseExpiresAt)
    updatedAt := formatTimestamp now
    rowVersion := r.rowVersion + 1 }

end WorkRow

/-- The row a plan is inserted as. -/
def WorkItemPlan.toRow (plan : WorkItemPlan) : WorkRow :=
  { plan with
    slaDeadlineAt := plan.slaDeadlineAt.map normalizeTimestamp
    executionExpiryAt := plan.executionExpiryAt.map normalizeTimestamp
    createdAt := normalizeTimestamp plan.createdAt
    state := .planned
    cancelRequested := false
    leaseEpoch := 0
    fencingToken := none
    leasedBy := none
    leaseExpiresAt := none
    attempt := 0
    retryNotBeforeAt := none
    terminalReasonCode := none
    terminalReasonDetail := none
    resultReference := none
    resultSha256 := none
    completedAt := none
    updatedAt := normalizeTimestamp plan.createdAt
    rowVersion := 0 }

/-- The attempt `_finish_attempt` writes. -/
def WorkAttempt.withOutcome (a : WorkAttempt) (outcome : WorkAttemptOutcome)
    (errorCode errorDetail : Option NonEmptyString) (now : Int) : WorkAttempt :=
  { a with
    completedAt := some (formatTimestamp now)
    outcome := outcome
    errorCode := errorCode
    errorDetail := errorDetail }

/-- The attempt a start writes: `COALESCE(started_at, ?)`. -/
def WorkAttempt.withStarted (a : WorkAttempt) (now : Int) : WorkAttempt :=
  { a with startedAt := some (a.startedAt.getD (formatTimestamp now)) }

namespace WorkLedger

/-- A freshly initialised database. -/
def empty : WorkLedger := ⟨KeyedTable.empty, KeyedTable.empty, KeyedTable.empty⟩

/-- The row of a work item. -/
def item? (s : WorkLedger) (workItemId : OpaqueUuid) : Option WorkRow :=
  s.items.find? workItemId

variable {r : WorkRow}

theorem workItemId_of_item? {s : WorkLedger} {workItemId : OpaqueUuid}
    (h : s.item? workItemId = some r) : r.workItemId = workItemId := by
  have hkey := KeyedTable.key_of_find? h
  exact hkey

theorem mem_items_iff {s : WorkLedger} : r ∈ s.items.rows ↔ s.item? r.workItemId = some r :=
  KeyedTable.mem_rows_iff

/-! ## Queries -/

def loadItem (s : WorkLedger) (workItemId : OpaqueUuid) : Except WorkError WorkItem :=
  match s.item? workItemId with
  | none => .error (.notFound workItemId)
  | some r => itemFromRow r

/-- `_dependencies`: the upstream edges in dependency-id order. -/
def dependencies (s : WorkLedger) (workItemId : OpaqueUuid) : List WorkDependency :=
  (s.deps.rows.filter (·.downstreamWorkItemId = workItemId)).insertionSort
    fun a b => a.dependencyId ≤ b.dependencyId

/-- The upstream edges joined with the current upstream states. -/
def dependencyStates (s : WorkLedger) (workItemId : OpaqueUuid) :
    List (DependencyCriticality × WorkItemState) :=
  (s.dependencies workItemId).filterMap fun d =>
    (s.item? d.upstreamWorkItemId).map fun u => (d.criticality, u.state)

/-- The direct downstream items in id order. -/
def downstreamIds (s : WorkLedger) (workItemId : OpaqueUuid) : List OpaqueUuid :=
  ((s.deps.rows.filter (·.upstreamWorkItemId = workItemId)).map
    (·.downstreamWorkItemId)).insertionSort (· ≤ ·)

/-- How many items are `PLANNED`. -/
def plannedCount (s : WorkLedger) : Nat :=
  s.items.rows.countP (·.state = .planned)

/-! ## Single statements -/

/-- `UPDATE work_items … WHERE work_item_id = ? AND …`, raising unless exactly one
row was changed. -/
def updateOne (s : WorkLedger) (workItemId : OpaqueUuid) (guard : WorkRow → Bool)
    (set : WorkRow → WorkRow) (hset : ∀ r, (set r).workItemId = r.workItemId) (lost : WorkError) :
    Except WorkError WorkLedger :=
  let sel := fun r : WorkRow => r.workItemId == workItemId && guard r
  if s.items.rowcount sel = 1 then
    .ok { s with items := s.items.updateWhere sel set hset }
  else
    .error lost

def setTerminal (s : WorkLedger) (workItemId : OpaqueUuid) (facts : TerminalFacts) (now : Int) :
    Except WorkError WorkLedger :=
  s.updateOne workItemId (·.completedAt.isNone) (·.withTerminal facts now)
    (fun _ => rfl) (.state "work became terminal before the requested transition")

def finishAttempt (s : WorkLedger) (item : WorkRow) (outcome : WorkAttemptOutcome)
    (errorCode errorDetail : Option NonEmptyString) (now : Int) : Except WorkError WorkLedger :=
  let sel := fun a : WorkAttempt =>
    (a.workItemId, a.attemptNumber) == (item.workItemId, item.attempt) &&
      a.leaseEpoch == item.leaseEpoch && some a.fencingToken == item.fencingToken &&
      a.outcome == .active
  if s.attempts.rowcount sel = 1 then
    .ok { s with
      attempts := s.attempts.updateWhere sel
        (·.withOutcome outcome errorCode errorDetail now) fun _ => rfl }
  else
    .error (.storage "active attempt does not match its work-item lease")

/-- The two ledgers differ in one work item, whose row went from `r` to `r'`. -/
structure ItemChange (s s' : WorkLedger) (workItemId : OpaqueUuid) (r r' : WorkRow) : Prop where
  before : s.item? workItemId = some r
  after : ∀ j, s'.item? j = if j = workItemId then some r' else s.item? j
  deps_eq : s'.deps = s.deps

theorem ItemChange.after_self {s s' : WorkLedger} {workItemId : OpaqueUuid} {r' : WorkRow}
    (h : ItemChange s s' workItemId r r') : s'.item? workItemId = some r' := by
  rw [h.after, if_pos rfl]

section UpdateOne

variable {s s' : WorkLedger} {workItemId : OpaqueUuid} {guard : WorkRow → Bool}
  {set : WorkRow → WorkRow} {hset : ∀ r, (set r).workItemId = r.workItemId} {lost : WorkError}

theorem workItemId_of_guard (guard : WorkRow → Bool) (r : WorkRow)
    (h : (r.workItemId == workItemId && guard r) = true) : r.workItemId = workItemId := by
  rw [Bool.and_eq_true, beq_iff_eq] at h
  exact h.1

theorem updateOne_spec (h : s.updateOne workItemId guard set hset lost = .ok s') :
    ∃ r, ItemChange s s' workItemId r (set r) ∧ guard r = true ∧ s'.attempts = s.attempts := by
  unfold updateOne at h
  simp only at h
  split at h
  · rename_i hcount
    cases h
    obtain ⟨r, hfind, hr⟩ :=
      (s.items.rowcount_eq_one_iff (workItemId_of_guard guard)).mp hcount
    refine ⟨r, ⟨hfind, ?_, rfl⟩, (Bool.and_eq_true _ _ ▸ hr).2, rfl⟩
    intro j
    exact s.items.find?_updateWhere_of_key set hset (workItemId_of_guard guard) hfind hr j
  · cases h

variable (guard set hset lost) in
theorem updateOne_completes (hfind : s.item? workItemId = some r) (hr : guard r = true) :
    ∃ s', s.updateOne workItemId guard set hset lost = .ok s' := by
  have hcount := (s.items.rowcount_eq_one_iff (workItemId_of_guard guard)).mpr
    ⟨r, hfind, by simp [workItemId_of_item? hfind, hr]⟩
  unfold updateOne
  simp only [hcount, if_true]
  exact ⟨_, rfl⟩

end UpdateOne

variable {now : Int} {workItemId : OpaqueUuid} {s : WorkLedger} {s' : WorkLedger}

theorem setTerminal_spec {facts : TerminalFacts} (h : s.setTerminal workItemId facts now = .ok s') :
    ∃ r, ItemChange s s' workItemId r (r.withTerminal facts now) ∧ r.completedAt = none ∧
      s'.attempts = s.attempts := by
  obtain ⟨r, hchange, hr, hattempts⟩ := updateOne_spec h
  exact ⟨r, hchange, Option.isNone_iff_eq_none.mp hr, hattempts⟩

theorem setTerminal_completes (facts : TerminalFacts)
    (now : Int) (hfind : s.item? workItemId = some r) (hopen : r.completedAt = none) :
    ∃ s', s.setTerminal workItemId facts now = .ok s' :=
  updateOne_completes _ _ _ _ hfind (Option.isNone_iff_eq_none.mpr hopen)

/-- `_finish_attempt` closes exactly one attempt, the active one of the lease
it is called with. -/
theorem finishAttempt_spec {item : WorkRow} {outcome : WorkAttemptOutcome}
    {errorCode errorDetail : Option NonEmptyString}
    (h : s.finishAttempt item outcome errorCode errorDetail now = .ok s') :
    ∃ a, s.attempts.find? (item.workItemId, item.attempt) = some a ∧ a.outcome = .active ∧
      a.leaseEpoch = item.leaseEpoch ∧ some a.fencingToken = item.fencingToken ∧
      s'.items = s.items ∧ s'.deps = s.deps ∧
      ∀ k, s'.attempts.find? k =
        if k = (item.workItemId, item.attempt) then
          some (a.withOutcome outcome errorCode errorDetail now)
        else s.attempts.find? k := by
  unfold finishAttempt at h
  simp only at h
  split at h
  · rename_i hcount
    cases h
    have hsel : ∀ a : WorkAttempt,
        ((a.workItemId, a.attemptNumber) == (item.workItemId, item.attempt) &&
          a.leaseEpoch == item.leaseEpoch && some a.fencingToken == item.fencingToken &&
          a.outcome == .active) = true →
        (a.workItemId, a.attemptNumber) = (item.workItemId, item.attempt) := by
      intro a ha
      simp only [Bool.and_eq_true, beq_iff_eq] at ha
      exact ha.1.1.1
    obtain ⟨a, hfind, ha⟩ := (s.attempts.rowcount_eq_one_iff hsel).mp hcount
    have hparts := ha
    simp only [Bool.and_eq_true, beq_iff_eq] at hparts
    refine ⟨a, hfind, hparts.2, hparts.1.1.2, hparts.1.2, rfl, rfl, ?_⟩
    intro k
    exact s.attempts.find?_updateWhere_of_key
      (·.withOutcome outcome errorCode errorDetail now) (fun _ => rfl) hsel hfind ha k
  · cases h

theorem finishAttempt_completes {item : WorkRow} {a : WorkAttempt}
    (outcome : WorkAttemptOutcome) (errorCode errorDetail : Option NonEmptyString) (now : Int)
    (hfind : s.attempts.find? (item.workItemId, item.attempt) = some a)
    (hactive : a.outcome = .active) (hepoch : a.leaseEpoch = item.leaseEpoch)
    (htoken : some a.fencingToken = item.fencingToken) :
    ∃ s', s.finishAttempt item outcome errorCode errorDetail now = .ok s' := by
  have hkey := KeyedTable.key_of_find? hfind
  have hcount : s.attempts.rowcount (fun a : WorkAttempt =>
      (a.workItemId, a.attemptNumber) == (item.workItemId, item.attempt) &&
        a.leaseEpoch == item.leaseEpoch && some a.fencingToken == item.fencingToken &&
        a.outcome == .active) = 1 := by
    apply (s.attempts.rowcount_eq_one_iff _).mpr
    · exact ⟨a, hfind, by simp only [hkey, hepoch, htoken, hactive, beq_self_eq_true, Bool.and_self]⟩
    · intro b hb
      simp only [Bool.and_eq_true, beq_iff_eq] at hb
      exact hb.1.1.1
  unfold finishAttempt
  simp only [hcount]
  exact ⟨_, rfl⟩

/-! ## Readiness -/

/-- `_advance_planned_item`: release or fail one `PLANNED` item whose upstream
work has ended. -/
def advancePlannedItem (s : WorkLedger) (workItemId : OpaqueUuid) (now : Int) :
    Except WorkError (Option WorkItemState × WorkLedger) := do
  let item ← s.loadItem workItemId
  if item.row.state ≠ .planned then
    .ok (none, s)
  else if (s.dependencyStates workItemId).any fun v => !v.2.isTerminal then
    .ok (none, s)
  else if (s.dependencyStates workItemId).any fun v => v.1 == .required && !v.2.isSuccessful then do
    let s' ← s.setTerminal workItemId (.ofReason .failedPermanent requiredDependencyFailed none) now
    .ok (some .failedPermanent, s')
  else do
    let s' ← s.updateOne workItemId (·.state == .planned) (·.withReady now)
      (fun _ => rfl) (.storage "planned readiness transition lost its compare-and-swap")
    .ok (some .ready, s')

/-- All upstream work of an item has ended. -/
def UpstreamEnded (s : WorkLedger) (workItemId : OpaqueUuid) : Prop :=
  ∀ v ∈ s.dependencyStates workItemId, v.2.isTerminal = true

/-- Some required upstream work did not end in a successful state. -/
def RequiredFailure (s : WorkLedger) (workItemId : OpaqueUuid) : Prop :=
  ∃ v ∈ s.dependencyStates workItemId, v.1 = .required ∧ v.2.isSuccessful = false

/-- A `PLANNED` item that nothing holds back any more. -/
def Stuck (s : WorkLedger) (workItemId : OpaqueUuid) : Prop :=
  ∃ r, s.item? workItemId = some r ∧ r.state = .planned ∧ s.UpstreamEnded workItemId

/-- What one call of `_advance_planned_item` can do: nothing, or one readiness
transition of a `PLANNED` item all of whose upstream work has ended. -/
inductive Advance (now : Int) (s : WorkLedger) (workItemId : OpaqueUuid) :
    Option WorkItemState → WorkLedger → Prop
  | idle (held : ¬ s.Stuck workItemId) : Advance now s workItemId none s
  | release {s' : WorkLedger} {r : WorkRow}
      (change : ItemChange s s' workItemId r (r.withReady now))
      (attempts_eq : s'.attempts = s.attempts) (planned : r.state = .planned)
      (ended : s.UpstreamEnded workItemId) (sound : ¬ s.RequiredFailure workItemId) :
      Advance now s workItemId (some .ready) s'
  | fail {s' : WorkLedger} {r : WorkRow}
      (change : ItemChange s s' workItemId r
        (r.withTerminal (.ofReason .failedPermanent requiredDependencyFailed none) now))
      (attempts_eq : s'.attempts = s.attempts) (planned : r.state = .planned)
      (ended : s.UpstreamEnded workItemId) (failure : s.RequiredFailure workItemId) :
      Advance now s workItemId (some .failedPermanent) s'

theorem loadItem_eq_ok_iff {item : WorkItem} :
    s.loadItem workItemId = .ok item ↔ s.item? workItemId = some item.row := by
  unfold loadItem
  cases hfind : s.item? workItemId with
  | none => simp
  | some r =>
    rw [itemFromRow_eq_ok_iff]
    constructor
    · intro h
      rw [h]
    · intro h
      exact (Option.some.inj h).symm

theorem loadItem_completes (hr : s.item? workItemId = some r) (hshape : r.Shape)
    (hclock : r.ClockOrdered) : ∃ item, s.loadItem workItemId = .ok item ∧ item.row = r := by
  obtain ⟨item, hitem⟩ := itemFromRow_readable_iff.mpr ⟨hshape, hclock⟩
  have hrow := itemFromRow_eq_ok_iff.mp hitem
  exact ⟨item, loadItem_eq_ok_iff.mpr (hrow ▸ hr), hrow⟩

theorem upstreamEnded_iff : s.UpstreamEnded workItemId ↔
      ((s.dependencyStates workItemId).any fun v => !v.2.isTerminal) = false := by
  simp [UpstreamEnded]

theorem requiredFailure_iff : s.RequiredFailure workItemId ↔
      ((s.dependencyStates workItemId).any
        fun v => v.1 == .required && !v.2.isSuccessful) = true := by
  simp [RequiredFailure]

/-- The one description of a readiness transition every invariant is derived
from. -/
theorem advancePlannedItem_spec {transition : Option WorkItemState}
    (h : s.advancePlannedItem workItemId now = .ok (transition, s')) :
    Advance now s workItemId transition s' := by
  obtain ⟨item, hload, h⟩ := bind_eq_ok.mp h
  rw [loadItem_eq_ok_iff] at hload
  split at h
  · rename_i hnot
    cases h
    refine .idle ?_
    rintro ⟨r, hr, hplanned, _⟩
    have hrow : r = item.row := Option.some.inj (hr.symm.trans hload)
    exact hnot (hrow ▸ hplanned)
  rename_i hplanned
  rw [not_not] at hplanned
  split at h
  · rename_i hopen
    cases h
    refine .idle ?_
    rintro ⟨_, _, _, hended⟩
    rw [upstreamEnded_iff, hopen] at hended
    cases hended
  rename_i hended
  rw [Bool.not_eq_true] at hended
  split at h
  · rename_i hfailure
    obtain ⟨s₁, hset, h⟩ := bind_eq_ok.mp h
    cases h
    obtain ⟨r, hchange, _, hattempts⟩ := setTerminal_spec hset
    have hrow : r = item.row := Option.some.inj (hchange.before.symm.trans hload)
    exact .fail hchange hattempts (hrow ▸ hplanned) (upstreamEnded_iff.mpr hended)
      (requiredFailure_iff.mpr hfailure)
  · rename_i hsound
    obtain ⟨s₁, hupdate, h⟩ := bind_eq_ok.mp h
    cases h
    obtain ⟨r, hchange, _, hattempts⟩ := updateOne_spec hupdate
    have hrow : r = item.row := Option.some.inj (hchange.before.symm.trans hload)
    exact .release hchange hattempts (hrow ▸ hplanned) (upstreamEnded_iff.mpr hended)
      (fun hcon => hsound (requiredFailure_iff.mp hcon))

theorem advancePlannedItem_completes (now : Int)
    (hfind : s.item? workItemId = some r) (hshape : r.Shape) (hclock : r.ClockOrdered) :
    ∃ out, s.advancePlannedItem workItemId now = .ok out := by
  obtain ⟨item, hload, hitem⟩ := loadItem_completes hfind hshape hclock
  unfold advancePlannedItem
  rw [hload, ok_bind]
  split
  · exact ⟨_, rfl⟩
  rename_i hplanned
  rw [not_not, hitem] at hplanned
  split
  · exact ⟨_, rfl⟩
  split
  · have hopen : r.completedAt = none := by
      have hiff := hshape.completed_iff
      rw [hplanned] at hiff
      cases hcompleted : r.completedAt with
      | none => rfl
      | some _ => simp [hcompleted, WorkItemState.isTerminal] at hiff
    obtain ⟨s', hset⟩ := setTerminal_completes
      (.ofReason .failedPermanent requiredDependencyFailed none) now hfind hopen
    rw [hset]
    exact ⟨_, rfl⟩
  · obtain ⟨s', hupdate⟩ := updateOne_completes (·.state == .planned)
      (·.withReady now) (fun _ => rfl)
      (.storage "planned readiness transition lost its compare-and-swap") hfind
      (by rw [hplanned]; rfl)
    rw [hupdate]
    exact ⟨_, rfl⟩

/-! ## The readiness cascade -/

/-- `if downstream_id not in queued: pending.append(downstream_id)` for each
row.  The set `queued` is always the set of the ids in `pending`. -/
def enqueue (pending ids : List OpaqueUuid) : List OpaqueUuid :=
  ids.foldl (fun acc i => if i ∈ acc then acc else acc ++ [i]) pending

theorem mem_enqueue {ids : List OpaqueUuid} {pending : List OpaqueUuid} {i : OpaqueUuid} :
    i ∈ enqueue pending ids ↔ i ∈ pending ∨ i ∈ ids := by
  unfold enqueue
  induction ids generalizing pending with
  | nil => simp
  | cons a rest ih =>
    rw [foldl_cons, ih]
    by_cases ha : a ∈ pending
    · rw [if_pos ha, mem_cons]
      constructor
      · rintro (h | h)
        · exact .inl h
        · exact .inr (.inr h)
      · rintro (h | rfl | h)
        · exact .inl h
        · exact .inl ha
        · exact .inr h
    · rw [if_neg ha, mem_append, mem_singleton, mem_cons, or_assoc]

theorem length_enqueue_le (pending ids : List OpaqueUuid) :
    (enqueue pending ids).length ≤ pending.length + ids.length := by
  unfold enqueue
  induction ids generalizing pending with
  | nil => simp
  | cons a rest ih =>
    rw [foldl_cons, length_cons]
    by_cases ha : a ∈ pending
    · rw [if_pos ha]
      have hrest := ih pending
      omega
    · rw [if_neg ha]
      have hrest := ih (pending ++ [a])
      rw [length_append, length_singleton] at hrest
      omega

theorem mem_downstreamIds {j : OpaqueUuid} : j ∈ s.downstreamIds workItemId ↔
      ∃ d ∈ s.deps.rows, d.upstreamWorkItemId = workItemId ∧ d.downstreamWorkItemId = j := by
  simp [downstreamIds, and_assoc]

theorem length_downstreamIds_le (s : WorkLedger) (workItemId : OpaqueUuid) :
    (s.downstreamIds workItemId).length ≤ s.deps.rows.length := by
  unfold downstreamIds
  rw [length_insertionSort, length_map]
  exact length_filter_le _ _

theorem ItemChange.plannedCount_lt {r' : WorkRow}
    (h : ItemChange s s' workItemId r r') (hplanned : r.state = .planned)
    (hleft : r'.state ≠ .planned) : s'.plannedCount < s.plannedCount := by
  have hid := workItemId_of_item? h.before
  have hrow' : s'.item? workItemId = some r' := by
    rw [h.after, if_pos rfl]
  refine KeyedTable.countP_lt s.items s'.items ?_ (KeyedTable.mem_of_find? h.before)
    (decide_eq_true hplanned) ?_
  · intro a ha hp
    rw [mem_items_iff, h.after] at ha
    by_cases haid : a.workItemId = workItemId
    · rw [if_pos haid] at ha
      cases ha
      exact absurd (of_decide_eq_true hp) hleft
    · rw [if_neg haid] at ha
      exact mem_items_iff.mpr ha
  · intro hmem
    rw [mem_items_iff, hid, hrow'] at hmem
    cases hmem
    exact hleft hplanned

/-- Every transition `_advance_planned_item` reports uses up a `PLANNED` row,
and the dependency graph is only read. -/
theorem Advance.plannedCount_lt
    {state : WorkItemState} (h : Advance now s workItemId (some state) s') :
    s'.plannedCount < s.plannedCount := by
  cases h with
  | release change _ planned _ _ =>
    exact change.plannedCount_lt planned (by simp [WorkRow.withReady])
  | fail change _ planned _ _ =>
    exact change.plannedCount_lt planned (by simp [WorkRow.withTerminal, TerminalFacts.ofReason])

theorem Advance.deps_eq
    {transition : Option WorkItemState} (h : Advance now s workItemId transition s') :
    s'.deps = s.deps := by
  cases h with
  | idle _ => rfl
  | release change _ _ _ _ | fail change _ _ _ _ => exact change.deps_eq

/-- The loop of `_refresh_planned_for_work_ids`. -/
def refreshPending (now : Int) (changed : Nat) (pending : List OpaqueUuid) (s : WorkLedger) :
    Except WorkError (Nat × WorkLedger) :=
  match pending with
  | [] => .ok (changed, s)
  | workItemId :: rest =>
    match h : s.advancePlannedItem workItemId now with
    | .error e => .error e
    | .ok (none, s') => refreshPending now changed rest s'
    | .ok (some state, s') =>
      if state.isTerminal then
        refreshPending now (changed + 1) (enqueue rest (s'.downstreamIds workItemId)) s'
      else
        refreshPending now (changed + 1) rest s'
termination_by s.plannedCount * (s.deps.rows.length + 1) + pending.length
decreasing_by
  all_goals have hadvance := advancePlannedItem_spec h
  · cases hadvance
    simp
  all_goals
    have hlt := hadvance.plannedCount_lt
    have hdeps := hadvance.deps_eq
    have hmul : (s'.plannedCount + 1) * (s.deps.rows.length + 1) ≤
        s.plannedCount * (s.deps.rows.length + 1) := Nat.mul_le_mul_right _ hlt
    rw [Nat.succ_mul] at hmul
    rw [hdeps, length_cons]
  · have hpending := length_enqueue_le rest (s'.downstreamIds workItemId)
    have hdown := s'.length_downstreamIds_le workItemId
    rw [hdeps] at hdown
    omega
  · omega

def refreshPlannedForWorkIds (s : WorkLedger) (now : Int) (workItemIds : List OpaqueUuid) :
    Except WorkError (Nat × WorkLedger) :=
  refreshPending now 0 workItemIds.eraseDups s

def refreshDownstreamForUpstreams (s : WorkLedger) (now : Int) (upstreamIds : List OpaqueUuid) :
    Except WorkError (Nat × WorkLedger) :=
  s.refreshPlannedForWorkIds now (upstreamIds.flatMap s.downstreamIds)

end WorkLedger
end Robata.Queue
