import Robata.Review.QueueSteps

/-!
# Runs of the review queue

Any number of workers call the five methods in any order, with any instants, fences,
annotations and commands.  Completion, reopening and lease recovery cycle a task row through
its three states, while annotations and commands accumulate.  One counting invariant ties the
three tables together: a task has one annotation more than it has reopen commands while it is
completed, and as many otherwise.
-/

namespace Robata.Review

open Contracts Lib List
open KeyedTable (insert?_eq_some key_of_find? mem_of_find?)
open ReviewTaskSnapshot (fieldsValid)

variable {codec : ReviewCodec} {registry : ReviewRegistry}

/-- The calls of the queue, with their arguments. -/
inductive ReviewOp
  | enqueue (task : ReviewTask)
  | claimNext (workerId : String) (nowNs leaseDurationNs : Int)
  | renewLease (reviewTaskId workerId : String) (leaseFence nowNs leaseDurationNs : Int)
  | submitAnnotation (submitted : ReviewAnnotation) (nowNs : Int)
  | reopen (command : ReviewReopenCommand)

section Runs

variable (codec : ReviewCodec) (registry : ReviewRegistry)

/-- The tables a call commits. -/
def runReview : ReviewOp → ReviewDb → Except ReviewFailure ReviewDb
  | .enqueue task, db => (enqueue codec registry db task).map Prod.snd
  | .claimNext workerId nowNs duration, db =>
    (claimNext codec registry db workerId nowNs duration).map Prod.snd
  | .renewLease reviewTaskId workerId fence nowNs duration, db =>
    (renewLease codec registry db reviewTaskId workerId fence nowNs duration).map Prod.snd
  | ReviewOp.submitAnnotation submitted nowNs, db =>
    ( submitAnnotation codec registry db submitted nowNs).map Prod.snd
  | .reopen command, db => (reopen codec registry db command).map Prod.snd

/-- The states after any calls, some of which may raise. -/
def Later : ReviewDb → ReviewDb → Prop :=
  Reach (runReview codec registry) fun _ _ => True

/-- The states of a queue that started empty. -/
def QueueReachable (db : ReviewDb) : Prop :=
  Later codec registry .empty db

end Runs

namespace ReviewDb

variable (db : ReviewDb)

def annotationCount (reviewTaskId : OpaqueUuid) : Nat :=
  db.annotations.rows.countP (·.reviewTaskId == reviewTaskId)

def reopenCount (reviewTaskId : OpaqueUuid) : Nat :=
  db.reopens.rows.countP (·.reviewTaskId == reviewTaskId)

end ReviewDb

def TaskRow.completions (r : TaskRow) : Nat :=
  if r.status = .completed then 1 else 0

/-- The annotation of the current fence completes the task. -/
def TaskRow.NamesAnnotation (r : TaskRow) (db : ReviewDb) : Prop :=
  ∃ a ∈ db.annotations.rows, r.completedAnnotationId = some a.annotationId ∧
    a.reviewTaskId = r.reviewTaskId ∧ a.leaseFence = r.leaseFence

/-! ## The invariant -/

variable (codec registry) in
structure QueueInv (db : ReviewDb) : Prop
    extends Decodes codec registry db where
  requests : (db.tasks.rows.map (·.definition.requestId)).Nodup
  annotationTasks : ∀ a ∈ db.annotations.rows, (db.tasks.find? a.reviewTaskId).isSome = true
  reopenTasks : ∀ c ∈ db.reopens.rows, (db.tasks.find? c.reviewTaskId).isSome = true
  attempts : ∀ a ∈ db.annotations.rows, ∀ b ∈ db.annotations.rows,
    (a.reviewTaskId, a.leaseFence) = (b.reviewTaskId, b.leaseFence) → a = b
  current : ∀ r ∈ db.tasks.rows, r.status = .completed → r.NamesAnnotation db
  counted : ∀ r ∈ db.tasks.rows,
    db.annotationCount r.reviewTaskId = db.reopenCount r.reviewTaskId + r.completions

theorem queueInv_empty : QueueInv codec registry .empty where
  tasks := forall_mem_nil _
  annotations := forall_mem_nil _
  reopens := forall_mem_nil _
  requests := nodup_nil
  annotationTasks := forall_mem_nil _
  reopenTasks := forall_mem_nil _
  attempts := forall_mem_nil _
  current := forall_mem_nil _
  counted := forall_mem_nil _

section SetTask

variable {db : ReviewDb} {reviewTaskId : OpaqueUuid} {set : TaskRow → TaskRow}
  {hset : ∀ r, (set r).definition = r.definition} {row : TaskRow}

theorem find?_setTask (j : OpaqueUuid) :
    (db.setTask reviewTaskId set hset).tasks.find? j =
      (db.tasks.find? j).map fun r =>
        if r.definition.reviewTaskId == reviewTaskId then set r else r :=
  KeyedTable.find?_updateWhere db.tasks _ set
    (fun r => congrArg TaskDefinition.reviewTaskId (hset r)) j

theorem isSome_find?_setTask (j : OpaqueUuid) :
    ((db.setTask reviewTaskId set hset).tasks.find? j).isSome = (db.tasks.find? j).isSome := by
  rw [find?_setTask, Option.isSome_map]

theorem mem_setTask {r : TaskRow} (hr : r ∈ (db.setTask reviewTaskId set hset).tasks.rows)
    (hfound : db.tasks.find? reviewTaskId = some row) :
    (r ∈ db.tasks.rows ∧ r.reviewTaskId ≠ reviewTaskId) ∨ r = set row := by
  obtain ⟨q, hq, rfl⟩ := (KeyedTable.mem_updateWhere db.tasks _ set
    fun r => congrArg TaskDefinition.reviewTaskId (hset r)).mp hr
  by_cases hid : q.definition.reviewTaskId = reviewTaskId
  · right
    have heq : q = row := db.tasks.eq_of_key_eq hq (mem_of_find? hfound)
      (hid.trans (key_of_find? hfound :).symm)
    rw [if_pos (beq_iff_eq.mpr hid), heq]
  · left
    rw [if_neg (fun hcon => hid (beq_iff_eq.mp hcon))]
    exact ⟨hq, hid⟩

theorem requestIds_setTask :
    ((db.setTask reviewTaskId set hset).tasks.rows.map (·.definition.requestId)) =
      db.tasks.rows.map fun r => r.definition.requestId := by
  show ((db.tasks.rows.map _).map _) = _
  rw [map_map]
  apply map_congr_left
  intro r _
  by_cases hid : r.definition.reviewTaskId = reviewTaskId <;> simp [hid, hset]

theorem Decodes.setTask (hdb : Decodes codec registry db)
    (hfound : db.tasks.find? reviewTaskId = some row)
    (hkeep : ∀ task, row.Holds codec registry task → (set row).Holds codec registry task) :
    Decodes codec registry (db.setTask reviewTaskId set hset) where
  tasks := by
    intro r hr
    rcases mem_setTask hr hfound with ⟨hmem, -⟩ | rfl
    · exact hdb.tasks r hmem
    · obtain ⟨task, htask⟩ := hdb.tasks row (mem_of_find? hfound)
      exact ⟨task, hkeep task htask⟩
  annotations := hdb.annotations
  reopens := hdb.reopens

end SetTask

/-! ## Each update keeps a row legal -/

namespace TaskRow

variable {r : TaskRow} {task : ReviewTask}

variable (h : r.Holds codec registry task)
include h

theorem Holds.attempts_eq : r.attemptCount = r.leaseFence := by
  have hcheck := h.checked
  simp [check] at hcheck
  exact hcheck.1.2

theorem Holds.due : r.definition.requestedAtNs < r.definition.dueAtNs := by
  have hcheck := h.checked
  simp [check] at hcheck
  exact hcheck.1.1

theorem Holds.fence_fits : fitsInt64 r.leaseFence = true := by
  have hranges := h.ranges
  simp [fieldsValid] at hranges
  exact hranges.1.1.1

theorem Holds.lease {worker : String} {expiresAt : Int}
    (hactor : isActorId worker = true) (hbounded : ((r.leaseFence + 1 : Nat) : Int) ≤ int64Max)
    (hexpiry : fitsInt64 expiresAt = true) :
    (r.lease (r.leaseFence + 1) worker expiresAt).Holds codec registry task where
  definition := h.definition
  checked := by simp [check, TaskRow.lease, h.due]
  ranges := by
    have hfence : fitsInt64 ((r.leaseFence + 1 : Nat) : Int) = true := by
      have hmin : int64Min ≤ ((r.leaseFence + 1 : Nat) : Int) := by
        unfold int64Min
        omega
      simp only [fitsInt64, hmin, hbounded, decide_true, Bool.and_self]
    simp only [fieldsValid, snapshot, TaskRow.lease, hfence, hactor, hexpiry,
      Option.all_some, Bool.and_self]

theorem Holds.renew {expiresAt : Int}
    (hleased : r.status = .leased) (hexpiry : fitsInt64 expiresAt = true) :
    (r.renew expiresAt).Holds codec registry task where
  definition := h.definition
  checked := by
    have hcheck := h.checked
    simp [check, hleased] at hcheck
    simp [check, TaskRow.renew, hleased, hcheck]
  ranges := by
    have hranges := h.ranges
    simp [fieldsValid, snapshot] at hranges
    simp only [fieldsValid, snapshot, TaskRow.renew, hranges, hexpiry,
      Option.all_some, Bool.and_self]

theorem Holds.complete (annotationId : OpaqueUuid) :
    (r.complete annotationId).Holds codec registry task where
  definition := h.definition
  checked := by simp [check, TaskRow.complete, h.due, h.attempts_eq]
  ranges := by
    simp only [fieldsValid, snapshot, TaskRow.complete, h.attempts_eq,
      h.fence_fits, Option.all_none, Bool.and_self]

theorem Holds.reopen (hcompleted : r.status = .completed) : r.reopen.Holds codec registry task where
  definition := h.definition
  checked := by
    have hcheck := h.checked
    simp [check, hcompleted] at hcheck
    simp [check, TaskRow.reopen, hcheck]
  ranges := h.ranges

end TaskRow

/-! ## Each step keeps the invariant -/

section Steps

variable {db db' : ReviewDb}

theorem reviewTaskId_of_set {set : TaskRow → TaskRow}
    (hset : ∀ r, (set r).definition = r.definition) (r : TaskRow) :
    (set r).reviewTaskId = r.reviewTaskId :=
  congrArg TaskDefinition.reviewTaskId (hset r)

theorem QueueInv.setTask (h : QueueInv codec registry db) {reviewTaskId : OpaqueUuid}
    {set : TaskRow → TaskRow} {hset : ∀ r, (set r).definition = r.definition} {row : TaskRow}
    (hfound : db.tasks.find? reviewTaskId = some row)
    (hkeep : ∀ task, row.Holds codec registry task → (set row).Holds codec registry task)
    (hopen : (set row).status ≠ .completed) (hcompletions : row.status ≠ .completed) :
    QueueInv codec registry (db.setTask reviewTaskId set hset) where
  toDecodes := h.toDecodes.setTask hfound hkeep
  requests := by
    rw [requestIds_setTask]
    exact h.requests
  annotationTasks := by
    intro a ha
    rw [isSome_find?_setTask]
    exact h.annotationTasks a ha
  reopenTasks := by
    intro c hc
    rw [isSome_find?_setTask]
    exact h.reopenTasks c hc
  attempts := h.attempts
  current := by
    intro r hr hstatus
    rcases mem_setTask hr hfound with ⟨hmem, -⟩ | rfl
    · exact h.current r hmem hstatus
    · exact absurd hstatus hopen
  counted := by
    intro r hr
    rcases mem_setTask hr hfound with ⟨hmem, -⟩ | rfl
    · exact h.counted r hmem
    · have hcount := h.counted row (mem_of_find? hfound)
      rw [TaskRow.completions, if_neg hcompletions] at hcount
      rw [reviewTaskId_of_set hset, TaskRow.completions, if_neg hopen]
      exact hcount

variable {payload : List UInt8} {payloadSha256 : Sha256Digest}

variable (h : QueueInv codec registry db)
include h

theorem QueueInv.enqueues {task : ReviewTask}
    {tasks : KeyedTable TaskRow OpaqueUuid (·.definition.reviewTaskId)}
    (hstored : Storable codec.exactBytesSha256 codec.task registry.task task payload
      payloadSha256) (hchecked : (taskRow task payload payloadSha256).check = true)
    (hfresh : ∀ r ∈ db.tasks.rows, r.definition.requestId ≠ task.requestId)
    (hinsert : db.tasks.insert? (taskRow task payload payloadSha256) = some tasks) :
    QueueInv codec registry { db with tasks := tasks } := by
  obtain ⟨hfree, hrows⟩ := insert?_eq_some hinsert
  have hkept : ∀ j, (db.tasks.find? j).isSome = true → (tasks.find? j).isSome = true := by
    intro j hj
    rw [KeyedTable.find?_of_insert? hinsert]
    split
    · rfl
    · exact hj
  have hnone : ∀ j, (db.tasks.find? j).isSome = true → j ≠ task.reviewTaskId := by
    rintro j hj rfl
    have hfree' : db.tasks.find? task.reviewTaskId = none := hfree
    rw [hfree'] at hj
    cases hj
  have hmem : ∀ r ∈ tasks.rows, r ∈ db.tasks.rows ∨ r = taskRow task payload payloadSha256 := by
    simpa [hrows] using hr
  refine
    { tasks := ?_
      annotations := h.annotations
      reopens := h.reopens
      requests := ?_
      annotationTasks := fun a ha => hkept _ (h.annotationTasks a ha)
      reopenTasks := fun c hc => hkept _ (h.reopenTasks c hc)
      attempts := h.attempts
      current := ?_
      counted := ?_ }
  · intro r hr
    rcases hmem r hr with hold | rfl
    · exact h.tasks r hold
    · exact ⟨task, ⟨_, _, hstored, rfl⟩, hchecked, rfl⟩
  · rw [hrows, map_append, nodup_append]
    refine ⟨h.requests, nodup_singleton _, ?_⟩
    intro a ha b hb
    obtain ⟨r, hr, rfl⟩ := mem_map.mp ha
    rw [mem_singleton.mp hb]
    exact hfresh r hr
  · intro r hr hstatus
    rcases hmem r hr with hold | rfl
    · exact h.current r hold hstatus
    · cases hstatus
  · intro r hr
    rcases hmem r hr with hold | rfl
    · exact h.counted r hold
    · -- every annotation and every command belongs to a task that was there before
      have hannotations : db.annotationCount task.reviewTaskId = 0 := by
        rw [ReviewDb.annotationCount, countP_eq_zero]
        intro a ha
        simpa using hnone _ (h.annotationTasks a ha)
      have hreopens : db.reopenCount task.reviewTaskId = 0 := by
        rw [ReviewDb.reopenCount, countP_eq_zero]
        intro c hc
        simpa using hnone _ (h.reopenTasks c hc)
      show db.annotationCount task.reviewTaskId = db.reopenCount task.reviewTaskId + 0
      rw [hannotations, hreopens]

theorem QueueInv.submits {submitted : ReviewAnnotation} {row : TaskRow} {nowNs : Int}
    {annotations : KeyedTable AnnotationRow OpaqueUuid (·.annotationId)}
    (hstored : Storable codec.exactBytesSha256 codec.annotation registry.annotation submitted
      payload payloadSha256) (hfound : db.tasks.find? submitted.reviewTaskId = some row)
    (hlive : row.Live submitted.leaseOwner submitted.leaseFence nowNs)
    (hfree : ∀ a ∈ db.annotations.rows,
      (a.reviewTaskId, a.leaseFence) ≠ (submitted.reviewTaskId, submitted.leaseFence))
    (hinsert : db.annotations.insert? (annotationRow submitted payload payloadSha256) =
      some annotations) :
    QueueInv codec registry
      (ReviewDb.setTask { db with annotations := annotations } submitted.reviewTaskId
        (·.complete submitted.annotationId) fun r => definition_complete r _) := by
  obtain ⟨-, hrows⟩ := insert?_eq_some hinsert
  have hid : row.reviewTaskId = submitted.reviewTaskId := (key_of_find? hfound :)
  have hmem : ∀ a ∈ annotations.rows,
      a ∈ db.annotations.rows ∨ a = annotationRow submitted payload payloadSha256 := by
    simpa [hrows] using ha
  have hcount : ∀ j, (annotations.rows.countP (·.reviewTaskId == j)) =
      db.annotationCount j + if submitted.reviewTaskId = j then 1 else 0 := by
    intro j
    rw [hrows, ReviewDb.annotationCount]
    simp [annotationRow]
  have hdecodes : Decodes codec registry { db with annotations := annotations } :=
    { tasks := h.tasks
      annotations := by
        intro a ha
        rcases hmem a ha with hold | rfl
        · exact h.annotations a hold
        · exact ⟨submitted, payload, payloadSha256, hstored, rfl⟩
      reopens := h.reopens }
  refine
    { toDecodes := hdecodes.setTask hfound fun task htask => htask.complete _
      requests := ?_
      annotationTasks := ?_
      reopenTasks := ?_
      attempts := ?_
      current := ?_
      counted := ?_ }
  · rw [requestIds_setTask]
    exact h.requests
  · intro a ha
    rw [isSome_find?_setTask]
    rcases hmem a ha with hold | rfl
    · exact h.annotationTasks a hold
    · show (db.tasks.find? submitted.reviewTaskId).isSome = true
      rw [hfound]
      rfl
  · intro c hc
    rw [isSome_find?_setTask]
    exact h.reopenTasks c hc
  · intro a ha b hb heq
    rcases hmem a ha with holda | rfl <;> rcases hmem b hb with holdb | rfl
    · exact h.attempts a holda b holdb heq
    · exact absurd heq (hfree a holda)
    · exact absurd heq.symm (hfree b holdb)
    · rfl
  · intro r hr hstatus
    rcases mem_setTask hr hfound with ⟨hold, -⟩ | rfl
    · obtain ⟨a, ha, hnames⟩ := h.current r hold hstatus
      exact ⟨a, KeyedTable.subset_of_insert? hinsert ha, hnames⟩
    · refine ⟨annotationRow submitted payload payloadSha256, ?_, rfl, hid.symm, hlive.fence.symm⟩
      exact KeyedTable.mem_of_insert? hinsert
  · intro r hr
    show (annotations.rows.countP (·.reviewTaskId == r.reviewTaskId)) =
      db.reopenCount r.reviewTaskId + r.completions
    rw [hcount]
    rcases mem_setTask hr hfound with ⟨hold, hother⟩ | rfl
    · rw [if_neg (Ne.symm hother), h.counted r hold, Nat.add_zero]
    · -- the lease was on a task with as many commands as annotations
      have hbefore := h.counted row (mem_of_find? hfound)
      have hleased : row.completions = 0 := by simp [TaskRow.completions, hlive.leased]
      show db.annotationCount row.reviewTaskId + ite (submitted.reviewTaskId = row.reviewTaskId) _ _
        = db.reopenCount row.reviewTaskId + 1
      rw [hbefore, hleased, if_pos hid.symm]

theorem QueueInv.reopened {command : ReviewReopenCommand}
    {row : TaskRow} {reopens : KeyedTable ReopenRow OpaqueUuid (·.reopenId)}
    (hstored : Storable codec.exactBytesSha256 codec.command registry.command command payload
      payloadSha256) (hfound : db.tasks.find? command.reviewTaskId = some row)
    (hcompleted : row.status = .completed)
    (hinsert : db.reopens.insert? (reopenRow command payload payloadSha256) = some reopens) :
    QueueInv codec registry
      (ReviewDb.setTask { db with reopens := reopens } command.reviewTaskId
        (·.reopen) definition_reopen) := by
  obtain ⟨-, hrows⟩ := insert?_eq_some hinsert
  have hid : row.reviewTaskId = command.reviewTaskId := (key_of_find? hfound :)
  have hmem : ∀ c ∈ reopens.rows,
      c ∈ db.reopens.rows ∨ c = reopenRow command payload payloadSha256 := by
    simpa [hrows] using hc
  have hcount : ∀ j, (reopens.rows.countP (·.reviewTaskId == j)) =
      db.reopenCount j + if command.reviewTaskId = j then 1 else 0 := by
    intro j
    rw [hrows, ReviewDb.reopenCount]
    simp [reopenRow]
  have hdecodes : Decodes codec registry { db with reopens := reopens } :=
    { tasks := h.tasks
      annotations := h.annotations
      reopens := by
        intro c hc
        rcases hmem c hc with hold | rfl
        · exact h.toDecodes.reopens c hold
        · exact ⟨command, payload, payloadSha256, hstored, rfl⟩ }
  refine
    { toDecodes := hdecodes.setTask hfound fun task htask => htask.reopen hcompleted
      requests := ?_
      annotationTasks := ?_
      reopenTasks := ?_
      attempts := h.attempts
      current := ?_
      counted := ?_ }
  · rw [requestIds_setTask]
    exact h.requests
  · intro a ha
    rw [isSome_find?_setTask]
    exact h.annotationTasks a ha
  · intro c hc
    rw [isSome_find?_setTask]
    rcases hmem c hc with hold | rfl
    · exact h.reopenTasks c hold
    · show (db.tasks.find? command.reviewTaskId).isSome = true
      rw [hfound]
      rfl
  · intro r hr hstatus
    rcases mem_setTask hr hfound with ⟨hold, -⟩ | rfl
    · exact h.current r hold hstatus
    · cases hstatus
  · intro r hr
    show db.annotationCount r.reviewTaskId =
      (reopens.rows.countP (·.reviewTaskId == r.reviewTaskId)) + r.completions
    rw [hcount]
    rcases mem_setTask hr hfound with ⟨hold, hother⟩ | rfl
    · rw [if_neg (Ne.symm hother), h.counted r hold, Nat.add_zero]
    · have hbefore := h.counted row (mem_of_find? hfound)
      have hdone : row.completions = 1 := by simp [TaskRow.completions, hcompleted]
      show db.annotationCount row.reviewTaskId = db.reopenCount row.reviewTaskId +
        ite (command.reviewTaskId = row.reviewTaskId) _ _ + 0
      rw [hbefore, hdone, if_pos hid.symm]

theorem QueueInv.step (hstep : QueueStep codec registry db db') : QueueInv codec registry db' := by
  cases hstep with
  | stays => exact h
  | enqueues hstored hchecked hfresh hinsert => exact h.enqueues hstored hchecked hfresh hinsert
  | claims hfound hincomplete hactor hbounded hexpiry =>
    exact h.setTask hfound (fun task htask => htask.lease hactor hbounded hexpiry)
      (fun hcon => by cases hcon) hincomplete
  | @renews row _ hfound hleased hexpiry =>
    have hopen : row.status ≠ .completed := by
      rw [hleased]
      decide
    exact h.setTask hfound (fun task htask => htask.renew hleased hexpiry) hopen hopen
  | submits hstored hfound hlive hfree hinsert =>
    exact h.submits hstored hfound hlive hfree hinsert
  | reopens hstored hfound hcompleted hinsert =>
    exact h.reopened hstored hfound hcompleted hinsert

end Steps

end Robata.Review
