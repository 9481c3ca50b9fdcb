import Robata.Review.ReviewQueue

/-!
# What a queue transaction did

`QueueStep` lists the ways a transaction can leave the tables; each method has one lemma
that reads off its answer and its step.  The methods decode the rows they touch, so the
lemmas ask that every row holds a document it can be decoded to.
-/

namespace Robata.Review

open Contracts Lib List
open KeyedTable (insert?_eq_some key_of_find? mem_of_find?)

variable {codec : ReviewCodec} {registry : ReviewRegistry}

/-! ## Rows that decode -/

/-- The snapshot a task row decodes to. -/
def TaskRow.snapshot (r : TaskRow) (task : ReviewTask) : ReviewTaskSnapshot where
  task := task
  status := r.status
  leaseFence := r.leaseFence
  attemptCount := r.attemptCount
  leaseOwner := r.leaseOwner
  leaseExpiresAtNs := r.leaseExpiresAtNs
  completedAnnotationId := r.completedAnnotationId

variable (codec registry) in
/-- A task row that holds `task`, in a legal state. -/
structure TaskRow.Holds (r : TaskRow) (task : ReviewTask) : Prop where
  definition : ∃ payload payloadSha256,
    Storable codec.exactBytesSha256 codec.task registry.task task payload payloadSha256 ∧
      r.definition = (taskRow task payload payloadSha256).definition
  checked : r.check = true
  ranges : (r.snapshot task).fieldsValid = true

variable (codec registry) in
def AnnotationRow.Holds (a : AnnotationRow) (submitted : ReviewAnnotation) : Prop :=
  ∃ payload payloadSha256,
    Storable codec.exactBytesSha256 codec.annotation registry.annotation submitted payload
      payloadSha256 ∧ a = annotationRow submitted payload payloadSha256

variable (codec registry) in
/-- A command row that holds `command`. -/
def ReopenRow.Holds (c : ReopenRow) (command : ReviewReopenCommand) : Prop :=
  ∃ payload payloadSha256,
    Storable codec.exactBytesSha256 codec.command registry.command command payload
      payloadSha256 ∧ c = reopenRow command payload payloadSha256

theorem validateState_of_check {r : TaskRow} (h : r.check = true) (task : ReviewTask) :
    (r.snapshot task).validateState = .ok () := by
  obtain ⟨definition, status, leaseFence, attemptCount, leaseOwner, leaseExpiresAtNs,
    completedAnnotationId⟩ := r
  cases status <;> simp [TaskRow.check] at h <;>
    simp [ReviewTaskSnapshot.validateState, TaskRow.snapshot, h]
  -- a leased row has an owner and an expiry
  obtain ⟨-, ⟨⟨howner, hexpiry⟩, -⟩, hfence⟩ := h
  rw [if_neg (by simp [Option.isSome_iff_ne_none.mp howner, Option.isSome_iff_ne_none.mp hexpiry]),
    if_neg (by omega)]

variable {task : ReviewTask}

theorem snapshotFromRow_eq {r : TaskRow} (h : r.Holds codec registry task) :
    snapshotFromRow codec registry r = .ok (r.snapshot task) := by
  obtain ⟨payload, payloadSha256, hstored, hdefinition⟩ := h.definition
  have hstate := validateState_of_check h.checked task
  have hranges := h.ranges
  unfold snapshotFromRow
  rw [hdefinition]
  show (do let task ← decodeModel codec.exactBytesSha256 codec.task payload payloadSha256; _) = _
  rw [hstored.decodeModel_ok, ok_bind, hstored.validatePersisted_ok]
  simp only [TaskRow.snapshot] at hranges hstate ⊢
  simp [taskRow, refuse, hranges, hstate]

theorem annotationFromRow_eq {a : AnnotationRow} {submitted : ReviewAnnotation}
    (h : a.Holds codec registry submitted) :
    annotationFromRow codec registry a = .ok submitted := by
  obtain ⟨payload, payloadSha256, hstored, rfl⟩ := h
  show (do let submitted ← decodeModel codec.exactBytesSha256 codec.annotation payload
             payloadSha256; _) = _
  rw [hstored.decodeModel_ok, ok_bind, hstored.validatePersisted_ok]
  simp [annotationRow]

theorem reopenFromRow_eq {c : ReopenRow} {command : ReviewReopenCommand}
    (h : c.Holds codec registry command) : reopenFromRow codec registry c = .ok command := by
  obtain ⟨payload, payloadSha256, hstored, rfl⟩ := h
  show (do let command ← decodeModel codec.exactBytesSha256 codec.command payload
             payloadSha256; _) = _
  rw [hstored.decodeModel_ok, ok_bind, hstored.validatePersisted_ok]
  simp [reopenRow]

/-! ## Steps -/

section Definition

variable (r : TaskRow)

theorem definition_lease (fence : Nat) (worker : String) (expiresAt : Int) :
    (r.lease fence worker expiresAt).definition = r.definition := rfl

theorem definition_renew (expiresAt : Int) : (r.renew expiresAt).definition = r.definition := rfl

theorem definition_complete (annotationId : OpaqueUuid) :
    (r.complete annotationId).definition = r.definition := rfl

theorem definition_reopen : r.reopen.definition = r.definition := rfl

end Definition

theorem reviewTaskId_of_definition {set : TaskRow → TaskRow}
    (hset : ∀ r, (set r).definition = r.definition) :
    ∀ r, (set r).definition.reviewTaskId = r.definition.reviewTaskId :=
  fun r => congrArg TaskDefinition.reviewTaskId (hset r)

/-- Rewrite the row of one task. -/
def ReviewDb.setTask (db : ReviewDb) (reviewTaskId : OpaqueUuid) (set : TaskRow → TaskRow)
    (hset : ∀ r, (set r).definition = r.definition) : ReviewDb :=
  { db with
    tasks := db.tasks.updateWhere (·.definition.reviewTaskId == reviewTaskId) set
      (reviewTaskId_of_definition hset) }

/-- The lease of a row, under this owner and fence, at this instant. -/
structure TaskRow.Live (r : TaskRow) (owner : String) (fence : Nat) (nowNs : Int) : Prop where
  leased : r.status = .leased
  fence : r.leaseFence = fence
  owner : r.leaseOwner = some owner
  expiry : ∃ expiry, r.leaseExpiresAtNs = some expiry ∧ nowNs < expiry

/-- The ways a transaction leaves the tables. -/
inductive QueueStep (codec : ReviewCodec) (registry : ReviewRegistry) (db : ReviewDb) :
    ReviewDb → Prop
  | stays : QueueStep codec registry db db
  | enqueues {task : ReviewTask} {payload : List UInt8} {payloadSha256 : Sha256Digest}
      {tasks : KeyedTable TaskRow OpaqueUuid (·.definition.reviewTaskId)}
      (stored : Storable codec.exactBytesSha256 codec.task registry.task task payload payloadSha256)
      (checked : (taskRow task payload payloadSha256).check = true)
      (fresh : ∀ r ∈ db.tasks.rows, r.definition.requestId ≠ task.requestId)
      (inserted : db.tasks.insert? (taskRow task payload payloadSha256) = some tasks) :
      QueueStep codec registry db { db with tasks := tasks }
  | claims {row : TaskRow} {worker : String} {expiresAt : Int}
      (found : db.tasks.find? row.reviewTaskId = some row)
      (incomplete : row.status ≠ .completed)
      (actor : isActorId worker = true)
      (bounded : ((row.leaseFence + 1 : Nat) : Int) ≤ int64Max)
      (expiry : fitsInt64 expiresAt = true) :
      QueueStep codec registry db
        (db.setTask row.reviewTaskId (·.lease (row.leaseFence + 1) worker expiresAt)
          fun r => definition_lease r _ _ _)
  | renews {row : TaskRow} {expiresAt : Int}
      (found : db.tasks.find? row.reviewTaskId = some row)
      (leased : row.status = .leased)
      (expiry : fitsInt64 expiresAt = true) :
      QueueStep codec registry db
        (db.setTask row.reviewTaskId (·.renew expiresAt) fun r => definition_renew r _)
  | submits {submitted : ReviewAnnotation} {payload : List UInt8} {payloadSha256 : Sha256Digest}
      {row : TaskRow} {nowNs : Int}
      {annotations : KeyedTable AnnotationRow OpaqueUuid (·.annotationId)}
      (stored : Storable codec.exactBytesSha256 codec.annotation registry.annotation submitted
        payload payloadSha256)
      (found : db.tasks.find? submitted.reviewTaskId = some row)
      (live : row.Live submitted.leaseOwner submitted.leaseFence nowNs)
      (free : ∀ a ∈ db.annotations.rows,
        (a.reviewTaskId, a.leaseFence) ≠ (submitted.reviewTaskId, submitted.leaseFence))
      (inserted : db.annotations.insert? (annotationRow submitted payload payloadSha256) =
        some annotations) :
      QueueStep codec registry db
        (ReviewDb.setTask { db with annotations := annotations } submitted.reviewTaskId
          (·.complete submitted.annotationId) fun r => definition_complete r _)
  | reopens {command : ReviewReopenCommand} {payload : List UInt8}
      {payloadSha256 : Sha256Digest} {row : TaskRow}
      {reopens : KeyedTable ReopenRow OpaqueUuid (·.reopenId)}
      (stored : Storable codec.exactBytesSha256 codec.command registry.command command payload
        payloadSha256)
      (found : db.tasks.find? command.reviewTaskId = some row)
      (completed : row.status = .completed)
      (inserted : db.reopens.insert? (reopenRow command payload payloadSha256) = some reopens) :
      QueueStep codec registry db
        (ReviewDb.setTask { db with reopens := reopens } command.reviewTaskId
          (·.reopen) definition_reopen)

section Statements

variable {db db' : ReviewDb}

variable {row : TaskRow}

theorem insertTask_spec (h : db.insertTask row = .ok db') :
    row.check = true ∧ (∀ r ∈ db.tasks.rows, r.definition.requestId ≠ row.definition.requestId) ∧
      ∃ tasks, db.tasks.insert? row = some tasks ∧ db' = { db with tasks := tasks } := by
  unfold ReviewDb.insertTask at h
  simp only [refuse_bind_eq_ok] at h
  obtain ⟨hcheck, hrequest, -, h⟩ := h
  split at h
  · rename_i tasks hinsert
    cases h
    exact ⟨by simpa using hcheck, by simpa using hrequest, tasks, hinsert, rfl⟩
  · cases h

theorem insertAnnotation_spec {row : AnnotationRow} (h : db.insertAnnotation row = .ok db') :
    (∀ a ∈ db.annotations.rows,
        (a.reviewTaskId, a.leaseFence) ≠ (row.reviewTaskId, row.leaseFence)) ∧
      ∃ annotations, db.annotations.insert? row = some annotations ∧
        db' = { db with annotations := annotations } := by
  unfold ReviewDb.insertAnnotation at h
  simp only [refuse_bind_eq_ok] at h
  obtain ⟨-, -, hfree, -, h⟩ := h
  split at h
  · rename_i annotations hinsert
    cases h
    exact ⟨by simpa using hfree, annotations, hinsert, rfl⟩
  · cases h

theorem insertReopen_spec {row : ReopenRow} (h : db.insertReopen row = .ok db') :
    ∃ reopens, db.reopens.insert? row = some reopens ∧ db' = { db with reopens := reopens } := by
  unfold ReviewDb.insertReopen at h
  simp only [refuse_bind_eq_ok] at h
  obtain ⟨-, -, h⟩ := h
  split at h
  · rename_i reopens hinsert
    cases h
    exact ⟨reopens, hinsert, rfl⟩
  · cases h

/-- A statement that selects among the rows of one task, and selects the row found there,
rewrites the row of that task. -/
theorem updateTasks_spec {sel : TaskRow → Bool} {set : TaskRow → TaskRow}
    {hset : ∀ r, (set r).definition = r.definition} {reviewTaskId : OpaqueUuid}
    (h : db.updateTasks sel set hset = .ok db')
    (hsel : ∀ r, sel r = true → r.definition.reviewTaskId = reviewTaskId)
    (hfound : db.tasks.find? reviewTaskId = some row) (hrow : sel row = true) :
    db' = db.setTask reviewTaskId set hset := by
  unfold ReviewDb.updateTasks at h
  simp only [refuse_bind_eq_ok] at h
  cases h.2
  simp only [ReviewDb.setTask, ReviewDb.mk.injEq, and_true]
  apply KeyedTable.updateWhere_congr
  intro r hr
  by_cases hid : r.definition.reviewTaskId = reviewTaskId
  · have heq : r = row := db.tasks.eq_of_key_eq hr (mem_of_find? hfound)
      (hid.trans (key_of_find? hfound).symm)
    simp [heq, hrow, key_of_find? hfound]
  · have hnot : sel r = false := by
      by_contra hcon
      exact hid (hsel r (by simpa using hcon))
    simp [hnot, hid]

theorem mem_of_nextClaimable {nowNs : Int} (h : db.nextClaimable nowNs = some row) :
    row ∈ db.tasks.rows ∧ row.claimable nowNs = true := by
  have hmem := mem_of_mem_head? (Option.mem_def.mpr h)
  rw [mem_insertionSort, mem_filter] at hmem
  exact hmem

end Statements

/-! ## Methods -/

variable (codec registry) in
/-- Every row holds a document. -/
structure Decodes (db : ReviewDb) : Prop where
  tasks : ∀ r ∈ db.tasks.rows, ∃ task, r.Holds codec registry task
  annotations : ∀ a ∈ db.annotations.rows, ∃ submitted, a.Holds codec registry submitted
  reopens : ∀ c ∈ db.reopens.rows, ∃ command, c.Holds codec registry command

section Methods

variable {db db' : ReviewDb} (hdb : Decodes codec registry db)

include hdb

theorem requiredSnapshot_spec {reviewTaskId : OpaqueUuid} {snapshot : ReviewTaskSnapshot}
    (h : requiredSnapshot codec registry db reviewTaskId = .ok snapshot) :
    ∃ row task, db.tasks.find? reviewTaskId = some row ∧ row.Holds codec registry task ∧
      snapshot = row.snapshot task := by
  unfold requiredSnapshot at h
  split at h
  · cases h
  · rename_i row hfound
    obtain ⟨task, hholds⟩ := hdb.tasks row (mem_of_find? hfound)
    rw [snapshotFromRow_eq hholds] at h
    cases h
    exact ⟨row, task, hfound, hholds, rfl⟩

variable {nowNs : Int} {worker : String}

omit hdb in
theorem requireMatchingLease_spec {row : TaskRow} {fence : Int}
    (h : requireMatchingLease (row.snapshot task) worker fence nowNs = .ok ()) :
    (row.leaseFence : Int) = fence ∧ row.Live worker row.leaseFence nowNs := by
  unfold requireMatchingLease at h
  obtain ⟨hmatch, h⟩ := refuse_bind_eq_ok.mp h
  simp only [TaskRow.snapshot, Bool.or_eq_false_iff, bne_eq_false_iff_eq] at hmatch h
  obtain ⟨⟨hleased, hfence⟩, howner⟩ := hmatch
  split at h
  · cases h
  · rename_i expiry hexpiry
    have hlive : nowNs < expiry := by
      by_contra hcon
      simp [refuse, not_lt.mp hcon] at h
    exact ⟨hfence, hleased, rfl, howner, expiry, hexpiry, hlive⟩

theorem enqueue_spec {answer : EnqueuedReviewTask}
    (h : enqueue codec registry db task = .ok (answer, db')) :
    QueueStep codec registry db db' ∧ db'.annotations = db.annotations ∧
      ∃ r ∈ db'.tasks.rows, r.Holds codec registry task := by
  obtain ⟨payload, payloadSha256, hstored, h⟩ := storable_of_ok h
  split at h
  · obtain ⟨_, hinsert, h⟩ := bind_eq_ok.mp h
    cases h
    obtain ⟨hcheck, hfresh, tasks, htasks, rfl⟩ := insertTask_spec hinsert
    refine ⟨.enqueues hstored hcheck hfresh htasks, rfl, _, ?_, ⟨⟨_, _, hstored, rfl⟩, hcheck, rfl⟩⟩
    exact KeyedTable.mem_of_insert? htasks
  · rename_i row hrow
    have hmem : row ∈ db.tasks.rows := by
      have hfilter := mem_singleton_self row
      rw [← hrow] at hfilter
      exact (mem_filter.mp hfilter).1
    obtain ⟨stored, hholds⟩ := hdb.tasks row hmem
    rw [snapshotFromRow_eq hholds, ok_bind] at h
    split at h
    · rename_i heq
      cases h
      subst heq
      exact ⟨.stays, rfl, row, hmem, hholds⟩
    · cases h
  · cases h

/-- A claim: the row that was free, and the lease on it. -/
structure Claims (db : ReviewDb) (worker : String) (nowNs : Int) (row : TaskRow)
    (lease : ReviewLease) (db' : ReviewDb) : Prop where
  found : db.tasks.find? row.reviewTaskId = some row
  claimable : row.claimable nowNs = true
  taskId : lease.task.reviewTaskId = row.reviewTaskId
  fence : lease.leaseFence = row.leaseFence + 1
  actor : isActorId worker = true
  bounded : ((row.leaseFence + 1 : Nat) : Int) ≤ int64Max
  expiry : fitsInt64 lease.leaseExpiresAtNs = true
  written : db' = db.setTask row.reviewTaskId
    (·.lease (row.leaseFence + 1) worker lease.leaseExpiresAtNs) fun r => definition_lease r _ _ _

theorem claimNext_spec {duration : Int} {answer : Option ReviewLease}
    (h : claimNext codec registry db worker nowNs duration = .ok (answer, db')) :
    (answer = none ∧ db' = db) ∨
      ∃ row lease, answer = some lease ∧ Claims db worker nowNs row lease db' := by
  obtain ⟨_, -, h⟩ := bind_eq_ok.mp h
  obtain ⟨_, -, h⟩ := bind_eq_ok.mp h
  obtain ⟨_, -, h⟩ := bind_eq_ok.mp h
  obtain ⟨expiresAt, hexpires, h⟩ := bind_eq_ok.mp h
  obtain ⟨hfits, hexpires⟩ := refuse_bind_eq_ok.mp hexpires
  cases hexpires
  split at h
  · cases h
    exact .inl ⟨rfl, rfl⟩
  · rename_i row hnext
    obtain ⟨hmem, hclaimable⟩ := mem_of_nextClaimable hnext
    obtain ⟨task, hholds⟩ := hdb.tasks row hmem
    have hfound : db.tasks.find? row.reviewTaskId = some row := KeyedTable.mem_rows_iff.mp hmem
    have hid : task.reviewTaskId = row.reviewTaskId := by
      obtain ⟨payload, payloadSha256, -, hdefinition⟩ := hholds.definition
      rw [TaskRow.reviewTaskId, hdefinition]
      rfl
    rw [snapshotFromRow_eq hholds, ok_bind] at h
    simp only [TaskRow.snapshot, refuse_bind_eq_ok] at h
    obtain ⟨hbounded, h⟩ := h
    obtain ⟨claimed, hclaimed, h⟩ := bind_eq_ok.mp h
    rw [refuse_bind_eq_ok, bind_eq_ok] at h
    obtain ⟨-, lease, hlease, h⟩ := h
    obtain ⟨htask, -, hfence, hexpiry, hactor⟩ := makeLease_eq_ok hlease
    cases h
    have hwritten := updateTasks_spec hclaimed (by simp [hid]; exact fun _ hr _ => hr) hfound
      (by simp [hid, TaskRow.reviewTaskId])
    refine .inr ⟨row, lease, rfl, hfound, hclaimable, htask ▸ hid, hfence, hactor, ?_, ?_, ?_⟩
    · simpa using hbounded
    · rw [hexpiry]
      simpa using hfits
    · rw [hexpiry]
      exact hwritten

theorem renewLease_spec {reviewTaskId : String} {fence duration : Int} {lease : ReviewLease}
    (h : renewLease codec registry db reviewTaskId worker fence nowNs duration = .ok (lease, db')) :
    QueueStep codec registry db db' ∧ db'.annotations = db.annotations := by
  iterate 5 obtain ⟨_, -, h⟩ := bind_eq_ok.mp h
  obtain ⟨expiresAt, hexpires, h⟩ := bind_eq_ok.mp h
  obtain ⟨hfits, hexpires⟩ := refuse_bind_eq_ok.mp hexpires
  cases hexpires
  obtain ⟨snapshot, hsnapshot, h⟩ := bind_eq_ok.mp h
  obtain ⟨row, task, hfound, -, rfl⟩ := requiredSnapshot_spec hdb hsnapshot
  obtain ⟨_, hmatch, h⟩ := bind_eq_ok.mp h
  obtain ⟨-, hlive⟩ := requireMatchingLease_spec hmatch
  obtain ⟨renewed, hrenewed, h⟩ := bind_eq_ok.mp h
  obtain ⟨_, -, h⟩ := bind_eq_ok.mp h
  cases h
  have hkey : row.definition.reviewTaskId = reviewTaskId := (key_of_find? hfound :)
  rw [updateTasks_spec hrenewed (fun r hr => by simpa using hr) hfound (by simpa using hkey),
    ← hkey]
  have hfound' : db.tasks.find? row.reviewTaskId = some row := by
    rw [TaskRow.reviewTaskId, hkey]
    exact hfound
  exact ⟨.renews hfound' hlive.leased (by simpa using hfits), rfl⟩

variable (codec registry db) in
/-- A submission that inserted its annotation: the lease was live. -/
structure Submits (submitted : ReviewAnnotation) (nowNs : Int) (row : TaskRow) (db' : ReviewDb)
    : Prop where
  found : db.tasks.find? submitted.reviewTaskId = some row
  live : row.Live submitted.leaseOwner submitted.leaseFence nowNs
  free : ∀ a ∈ db.annotations.rows,
    (a.reviewTaskId, a.leaseFence) ≠ (submitted.reviewTaskId, submitted.leaseFence)
  written : ∃ payload payloadSha256 annotations,
    Storable codec.exactBytesSha256 codec.annotation registry.annotation submitted payload
      payloadSha256 ∧
    db.annotations.insert? (annotationRow submitted payload payloadSha256) = some annotations ∧
    db' = ReviewDb.setTask { db with annotations := annotations } submitted.reviewTaskId
      (·.complete submitted.annotationId) fun r => definition_complete r _

theorem submitAnnotation_spec {submitted : ReviewAnnotation} {answer : SubmittedReviewAnnotation}
    (h : submitAnnotation codec registry db submitted nowNs = .ok (answer, db')) :
    (answer = ⟨submitted, false⟩ ∧ db' = db ∧
        ∃ a ∈ db.annotations.rows, a.Holds codec registry submitted) ∨
      (answer = ⟨submitted, true⟩ ∧ ∃ row, Submits codec registry db submitted nowNs row db') := by
  obtain ⟨_, -, h⟩ := bind_eq_ok.mp h
  obtain ⟨payload, payloadSha256, hstored, h⟩ := storable_of_ok h
  split at h
  · right
    obtain ⟨snapshot, hsnapshot, h⟩ := bind_eq_ok.mp h
    obtain ⟨row, task, hfound, -, rfl⟩ := requiredSnapshot_spec hdb hsnapshot
    rw [refuse_bind_eq_ok, refuse_bind_eq_ok, bind_eq_ok] at h
    obtain ⟨-, -, _, hmatch, h⟩ := h
    obtain ⟨hfence, hlive⟩ := requireMatchingLease_spec hmatch
    obtain ⟨_, hinsert, h⟩ := bind_eq_ok.mp h
    obtain ⟨hfree, annotations, hannotations, rfl⟩ := insertAnnotation_spec hinsert
    obtain ⟨completed, hcompleted, h⟩ := bind_eq_ok.mp h
    rw [refuse_bind_eq_ok] at h
    cases h.2
    have hsame : row.leaseFence = submitted.leaseFence := by exact_mod_cast hfence
    have hkey : row.definition.reviewTaskId = submitted.reviewTaskId :=
      (key_of_find? hfound :)
    have hwritten := updateTasks_spec hcompleted (by simp; exact fun _ hr _ _ => hr) hfound
      (by simp [hkey, hlive.leased, hsame])
    exact ⟨rfl, row, hfound, hsame ▸ hlive, hfree, payload, payloadSha256, annotations, hstored,
      hannotations, hwritten⟩
  · rename_i row hrow
    left
    have hmem : row ∈ db.annotations.rows := by
      have hfilter := mem_singleton_self row
      rw [← hrow] at hfilter
      exact (mem_filter.mp hfilter).1
    obtain ⟨stored, hholds⟩ := hdb.annotations row hmem
    rw [annotationFromRow_eq hholds, ok_bind] at h
    split at h
    · rename_i heq
      cases h
      subst heq
      exact ⟨rfl, rfl, row, hmem, hholds⟩
    · cases h
  · cases h

theorem reopen_spec {command : ReviewReopenCommand} {answer : ReopenedReviewTask}
    (h : reopen codec registry db command = .ok (answer, db')) :
    QueueStep codec registry db db' ∧ db'.annotations = db.annotations ∧
      ∃ c ∈ db'.reopens.rows, c.Holds codec registry command := by
  obtain ⟨payload, payloadSha256, hstored, h⟩ := storable_of_ok h
  split at h
  · rename_i row hfound
    have hmem := mem_of_find? hfound
    obtain ⟨stored, hholds⟩ := hdb.reopens row hmem
    rw [reopenFromRow_eq hholds, ok_bind] at h
    split at h
    · rename_i heq
      obtain ⟨_, -, h⟩ := bind_eq_ok.mp h
      cases h
      subst heq
      exact ⟨.stays, rfl, row, hmem, hholds⟩
    · cases h
  · obtain ⟨snapshot, hsnapshot, h⟩ := bind_eq_ok.mp h
    obtain ⟨row, task, hfound, -, rfl⟩ := requiredSnapshot_spec hdb hsnapshot
    rw [refuse_bind_eq_ok, refuse_bind_eq_ok, bind_eq_ok] at h
    obtain ⟨hcompleted, -, _, hinsert, h⟩ := h
    obtain ⟨reopens, hreopens, rfl⟩ := insertReopen_spec hinsert
    obtain ⟨pending, hpending, h⟩ := bind_eq_ok.mp h
    obtain ⟨_, -, h⟩ := bind_eq_ok.mp h
    cases h
    have hkey : row.definition.reviewTaskId = command.reviewTaskId :=
      (key_of_find? hfound :)
    rw [updateTasks_spec hpending (fun r hr => by simpa using hr) hfound (by simpa using hkey)]
    refine ⟨.reopens hstored hfound (by simpa [TaskRow.snapshot] using hcompleted) hreopens, rfl, _,
      ?_, ⟨payload, payloadSha256, hstored, rfl⟩⟩
    show _ ∈ reopens.rows
    exact KeyedTable.mem_of_insert? hreopens

end Methods

end Robata.Review
