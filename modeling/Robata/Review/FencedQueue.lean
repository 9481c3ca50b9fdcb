import Robata.Review.QueueRuns

/-!
# The fenced review queue

What the invariant gives for whole runs: fences only grow, history is only appended to, an
annotation is inserted under a live lease, and an accepted call that is repeated later is
answered from the rows it has left.
-/

namespace Robata.Review

open Contracts Lib List
open KeyedTable (insert?_eq_some mem_of_find? mem_rows_iff)

variable {codec : ReviewCodec} {registry : ReviewRegistry} {db db' : ReviewDb}

/-! ## History -/

/-- Definitions stay, fences do not decrease, and the two histories are appended to. -/
structure Grows (db db' : ReviewDb) : Prop where
  tasks : ∀ id r, db.tasks.find? id = some r → ∃ r', db'.tasks.find? id = some r' ∧
    r'.definition = r.definition ∧ r.leaseFence ≤ r'.leaseFence
  annotations : db.annotations.rows <+: db'.annotations.rows
  reopens : db.reopens.rows <+: db'.reopens.rows

namespace Grows

theorem refl (db : ReviewDb) : Grows db db where
  tasks := fun _ r hr => ⟨r, hr, rfl, le_rfl⟩
  annotations := prefix_rfl
  reopens := prefix_rfl

theorem trans {db₁ db₂ db₃ : ReviewDb} (h : Grows db₁ db₂) (h' : Grows db₂ db₃) :
    Grows db₁ db₃ where
  tasks := by
    intro id r hr
    obtain ⟨r₂, hr₂, hdefinition, hfence⟩ := h.tasks id r hr
    obtain ⟨r₃, hr₃, hdefinition', hfence'⟩ := h'.tasks id r₂ hr₂
    exact ⟨r₃, hr₃, hdefinition'.trans hdefinition, hfence.trans hfence'⟩
  annotations := h.annotations.trans h'.annotations
  reopens := h.reopens.trans h'.reopens

theorem setTask {reviewTaskId : OpaqueUuid} {set : TaskRow → TaskRow}
    {hset : ∀ r, (set r).definition = r.definition} {row : TaskRow}
    (hfound : db.tasks.find? reviewTaskId = some row)
    (hfence : row.leaseFence ≤ (set row).leaseFence) :
    Grows db (db.setTask reviewTaskId set hset) where
  tasks := by
    intro id r hr
    rw [find?_setTask, hr, Option.map_some]
    have hkey : r.definition.reviewTaskId = id := (KeyedTable.key_of_find? hr :)
    by_cases hid : id = reviewTaskId
    · rw [hid, hfound, Option.some.injEq] at hr
      subst hr
      rw [if_pos (beq_iff_eq.mpr (hkey.trans hid))]
      exact ⟨_, rfl, hset row, hfence⟩
    · rw [if_neg fun hcon => hid (hkey.symm.trans (beq_iff_eq.mp hcon))]
      exact ⟨r, rfl, rfl, le_rfl⟩
  annotations := prefix_rfl
  reopens := prefix_rfl

end Grows

theorem QueueStep.grows (h : QueueStep codec registry db db') : Grows db db' := by
  cases h with
  | stays => exact .refl db
  | enqueues _ _ _ hinsert =>
    refine ⟨?_, prefix_rfl, prefix_rfl⟩
    intro id r hr
    refine ⟨r, ?_, rfl, le_rfl⟩
    rw [KeyedTable.find?_of_insert? hinsert, if_neg, hr]
    -- the identifier of the new task was free
    rintro rfl
    rw [(insert?_eq_some hinsert).1] at hr
    cases hr
  | claims hfound => exact .setTask hfound (Nat.le_succ _)
  | renews hfound => exact .setTask hfound le_rfl
  | @submits _ _ _ row _ annotations _ hfound _ _ hinsert =>
    have happend : Grows db { db with annotations := annotations } :=
      ⟨fun _ r hr => ⟨r, hr, rfl, le_rfl⟩, ⟨_, (insert?_eq_some hinsert).2.symm⟩, prefix_rfl⟩
    exact happend.trans (.setTask hfound (le_refl row.leaseFence))
  | @reopens _ _ _ row reopens _ hfound _ hinsert =>
    have happend : Grows db { db with reopens := reopens } :=
      ⟨fun _ r hr => ⟨r, hr, rfl, le_rfl⟩, prefix_rfl, ⟨_, (insert?_eq_some hinsert).2.symm⟩⟩
    exact happend.trans (.setTask hfound (le_refl row.leaseFence))

/-! ## Every call is a step -/

variable {row : TaskRow} {nowNs : Int}

theorem Claims.step {worker : String} {lease : ReviewLease}
    (h : Claims db worker nowNs row lease db') : QueueStep codec registry db db' := by
  have hincomplete : row.status ≠ .completed := by
    intro hcon
    have hclaimable := h.claimable
    simp [TaskRow.claimable, hcon] at hclaimable
  rw [h.written]
  exact .claims h.found hincomplete h.actor h.bounded h.expiry

theorem Submits.step {submitted : ReviewAnnotation}
    (h : Submits codec registry db submitted nowNs row db') :
    QueueStep codec registry db db' := by
  obtain ⟨payload, payloadSha256, annotations, hstored, hinsert, rfl⟩ := h.written
  exact .submits hstored h.found h.live h.free hinsert

theorem runReview_step (hdb : Decodes codec registry db) {op : ReviewOp}
    (h : runReview codec registry op db = .ok db') : QueueStep codec registry db db' := by
  cases op with
  | enqueue task =>
    obtain ⟨answer, h⟩ := map_snd_eq_ok.mp h
    exact (enqueue_spec hdb h).1
  | claimNext workerId nowNs duration =>
    obtain ⟨answer, h⟩ := map_snd_eq_ok.mp h
    rcases claimNext_spec hdb h with ⟨-, rfl⟩ | ⟨row, lease, -, hclaims⟩
    · exact .stays
    · exact hclaims.step
  | renewLease reviewTaskId workerId fence nowNs duration =>
    obtain ⟨answer, h⟩ := map_snd_eq_ok.mp h
    exact (renewLease_spec hdb h).1
  | submitAnnotation submitted nowNs =>
    obtain ⟨answer, h⟩ := map_snd_eq_ok.mp h
    rcases submitAnnotation_spec hdb h with ⟨-, rfl, -⟩ | ⟨-, row, hsubmits⟩
    · exact .stays
    · exact hsubmits.step
  | reopen command =>
    obtain ⟨answer, h⟩ := map_snd_eq_ok.mp h
    exact (reopen_spec hdb h).1

theorem QueueInv.later (hdb : QueueInv codec registry db) (h : Later codec registry db db') :
    QueueInv codec registry db' ∧ Grows db db' := by
  refine Reach.invariant (fun s => QueueInv codec registry s ∧ Grows db s) ⟨hdb, .refl db⟩ ?_ h
  rintro op s s' ⟨hinv, hgrows⟩ - hrun
  have hstep := runReview_step hinv.toDecodes hrun
  exact ⟨hinv.step hstep, hgrows.trans hstep.grows⟩

/-! ## Stored documents -/

section Stored

variable {r r' : TaskRow} {task task' : ReviewTask}

variable (h : r.Holds codec registry task)
include h

theorem TaskRow.Holds.unique (h' : r'.Holds codec registry task')
    (heq : r'.definition = r.definition) : task' = task := by
  obtain ⟨payload, payloadSha256, hstored, hdefinition⟩ := h.definition
  obtain ⟨payload', payloadSha256', hstored', hdefinition'⟩ := h'.definition
  rw [hdefinition, hdefinition'] at heq
  have hpayload : payload' = payload := congrArg TaskDefinition.taskJson heq
  have hread := codec.task.roundTrip task payload hstored.encoded
  have hread' := codec.task.roundTrip task' payload' hstored'.encoded
  rw [hpayload, hread] at hread'
  exact (Except.ok.inj hread').symm

theorem TaskRow.Holds.reviewTaskId_eq : r.definition.reviewTaskId = task.reviewTaskId := by
  obtain ⟨_, _, -, hdefinition⟩ := h.definition
  rw [hdefinition]
  rfl

theorem TaskRow.Holds.requestId_eq : r.definition.requestId = task.requestId := by
  obtain ⟨_, _, -, hdefinition⟩ := h.definition
  rw [hdefinition]
  rfl

end Stored

/-! ## Replays -/

section

variable (hdb : QueueInv codec registry db)
include hdb

theorem enqueue_replay {r : TaskRow} {task : ReviewTask}
    (hr : r ∈ db.tasks.rows) (hholds : r.Holds codec registry task) :
    enqueue codec registry db task = .ok (⟨task, false⟩, db) := by
  obtain ⟨payload, payloadSha256, hstored, -⟩ := hholds.definition
  have hsel : db.tasks.rows.filter (fun q => q.definition.reviewTaskId == task.reviewTaskId ||
      q.definition.requestId == task.requestId) = [r] := by
    apply db.tasks.filter_eq_singleton hr
    · simp [hholds.reviewTaskId_eq]
    · intro q hq hqsel
      rw [Bool.or_eq_true, beq_iff_eq, beq_iff_eq] at hqsel
      rcases hqsel with hid | hrequest
      · exact db.tasks.eq_of_key_eq hq hr (hid.trans hholds.reviewTaskId_eq.symm)
      · exact inj_on_of_nodup_map hdb.requests hq hr
          (hrequest.trans hholds.requestId_eq.symm)
  unfold enqueue
  rw [hstored.validateForWrite_ok, hstored.encodeModel_ok, hsel]
  simp only [snapshotFromRow_eq hholds]
  exact if_pos rfl

theorem submitAnnotation_replay {a : AnnotationRow}
    {submitted : ReviewAnnotation} (hnow : fitsInt64 nowNs = true) (ha : a ∈ db.annotations.rows)
    (hholds : a.Holds codec registry submitted) :
    submitAnnotation codec registry db submitted nowNs = .ok (⟨submitted, false⟩, db) := by
  obtain ⟨payload, payloadSha256, hstored, heq⟩ := id hholds
  have hsel : db.annotations.rows.filter (fun b => b.annotationId == submitted.annotationId ||
      (b.reviewTaskId == submitted.reviewTaskId && b.leaseFence == submitted.leaseFence)) =
        [a] := by
    apply db.annotations.filter_eq_singleton ha
    · simp [heq, annotationRow]
    · intro b hb hbsel
      rw [Bool.or_eq_true, Bool.and_eq_true, beq_iff_eq, beq_iff_eq, beq_iff_eq] at hbsel
      rcases hbsel with hid | ⟨htask, hfence⟩
      · exact db.annotations.eq_of_key_eq hb ha (by rw [hid, heq]; rfl)
      · exact hdb.attempts b hb a ha (by rw [htask, hfence, heq]; rfl)
  unfold submitAnnotation
  simp only [nanoseconds, hnow, Bool.not_true, refuse, Bool.false_eq_true, if_false]
  rw [hstored.validateForWrite_ok, hstored.encodeModel_ok, hsel]
  simp only [annotationFromRow_eq hholds, ok_bind]
  exact if_pos trivial

theorem reopen_replay {c : ReopenRow} {command : ReviewReopenCommand} (hc : c ∈ db.reopens.rows)
    (hholds : c.Holds codec registry command) :
    ∃ snapshot, reopen codec registry db command = .ok (⟨command, snapshot, false⟩, db) := by
  obtain ⟨payload, payloadSha256, hstored, heq⟩ := id hholds
  have hfound : db.reopens.find? command.reopenId = some c :=
    KeyedTable.find?_eq_some_iff.mpr ⟨hc, by rw [heq]; rfl⟩
  have htask := hdb.reopenTasks c hc
  rw [heq] at htask
  obtain ⟨r, hr⟩ := Option.isSome_iff_exists.mp htask
  obtain ⟨task, hrtask⟩ := hdb.tasks r (mem_of_find? hr)
  have hsnapshot : requiredSnapshot codec registry db command.reviewTaskId =
      .ok (r.snapshot task) := by
    have hr' : db.tasks.find? command.reviewTaskId = some r := hr
    simp only [requiredSnapshot, hr', snapshotFromRow_eq hrtask]
  refine ⟨r.snapshot task, ?_⟩
  unfold reopen
  rw [hstored.validateForWrite_ok, hstored.encodeModel_ok, hfound]
  simp only [reopenFromRow_eq hholds, ok_bind, hsnapshot]
  exact if_pos trivial

end

/-! ## Whole runs -/

/-- What holds of the three tables together. -/
structure Consistent (db : ReviewDb) : Prop where
  oneAnnotation : ∀ a ∈ db.annotations.rows, ∀ b ∈ db.annotations.rows,
    a.reviewTaskId = b.reviewTaskId → a.leaseFence = b.leaseFence → a = b
  completion : ∀ r ∈ db.tasks.rows, r.status = .completed →
    ∃ a ∈ db.annotations.rows, r.completedAnnotationId = some a.annotationId ∧
      a.reviewTaskId = r.reviewTaskId ∧ a.leaseFence = r.leaseFence
  balance : ∀ r ∈ db.tasks.rows, db.annotationCount r.reviewTaskId =
    db.reopenCount r.reviewTaskId + if r.status = .completed then 1 else 0

section Claim

variable (codec : ReviewCodec) (registry : ReviewRegistry) (db : ReviewDb)

/-- Of two claims of one task the later has the larger fence, and from then on nothing is
submitted under the earlier. -/
def FencesAdvance : Prop :=
  ∀ worker nowNs duration lease db₁,
    claimNext codec registry db worker nowNs duration = .ok (some lease, db₁) →
  ∀ db₂, Later codec registry db₁ db₂ → ∀ worker' nowNs' duration' lease' db₃,
    claimNext codec registry db₂ worker' nowNs' duration' = .ok (some lease', db₃) →
    lease'.task.reviewTaskId = lease.task.reviewTaskId →
  lease.leaseFence < lease'.leaseFence ∧
    ∀ db₄, Later codec registry db₃ db₄ → ∀ submitted nowNs'' answer db₅,
      submitted.reviewTaskId = lease.task.reviewTaskId →
      submitted.leaseFence = lease.leaseFence →
      submitAnnotation codec registry db₄ submitted nowNs'' = .ok (answer, db₅) →
      answer.inserted = false ∧ db₅ = db₄

/-- An annotation appears only by a submission under a live lease. -/
def InsertsAreLive : Prop :=
  ∀ op db', runReview codec registry op db = .ok db' →
    ∀ a ∈ db'.annotations.rows, a ∉ db.annotations.rows →
      ∃ submitted nowNs row, op = ReviewOp.submitAnnotation submitted nowNs ∧
        a.Holds codec registry submitted ∧
        db.tasks.find? submitted.reviewTaskId = some row ∧
        row.Live submitted.leaseOwner submitted.leaseFence nowNs

/-- An accepted call that is repeated later is accepted and changes nothing. -/
structure ReplaysAreIdle : Prop where
  enqueue : ∀ task answer db₁, enqueue codec registry db task = .ok (answer, db₁) →
    ∀ db₂, Later codec registry db₁ db₂ →
      Review.enqueue codec registry db₂ task = .ok (⟨task, false⟩, db₂)
  submit : ∀ submitted nowNs answer db₁,
    submitAnnotation codec registry db submitted nowNs = .ok (answer, db₁) →
    ∀ db₂, Later codec registry db₁ db₂ → ∀ nowNs', fitsInt64 nowNs' = true →
      submitAnnotation codec registry db₂ submitted nowNs' = .ok (⟨submitted, false⟩, db₂)
  reopen : ∀ command answer db₁, reopen codec registry db command = .ok (answer, db₁) →
    ∀ db₂, Later codec registry db₁ db₂ → ∃ snapshot,
      Review.reopen codec registry db₂ command = .ok (⟨command, snapshot, false⟩, db₂)

end Claim

theorem QueueInv.consistent (h : QueueInv codec registry db) : Consistent db where
  oneAnnotation := fun a ha b hb htask hfence => h.attempts a ha b hb (Prod.ext htask hfence)
  completion := h.current
  balance := h.counted

theorem Claims.find? {worker : String} {lease : ReviewLease}
    (h : Claims db worker nowNs row lease db') :
    ∃ r, db'.tasks.find? lease.task.reviewTaskId = some r ∧ r.leaseFence = lease.leaseFence := by
  have hkey : row.definition.reviewTaskId = row.reviewTaskId := rfl
  rw [h.written, find?_setTask, h.taskId, h.found, Option.map_some, if_pos (beq_iff_eq.mpr hkey)]
  exact ⟨_, rfl, h.fence.symm⟩

section

variable (h : QueueInv codec registry db)
include h

theorem QueueInv.fencesAdvance : FencesAdvance codec registry db := by
  intro worker nowNs duration lease db₁ hclaim db₂ hlater worker' nowNs' duration' lease' db₃
    hclaim' hsame
  obtain hnone | ⟨row, _, hsome, hclaims⟩ := claimNext_spec h.toDecodes hclaim
  · cases hnone.1
  cases hsome
  have hinv₁ := h.step hclaims.step
  obtain ⟨r₁, hr₁, hfence₁⟩ := hclaims.find?
  obtain ⟨hinv₂, hgrows₂⟩ := hinv₁.later hlater
  obtain ⟨r₂, hr₂, -, hle₂⟩ := hgrows₂.tasks _ _ hr₁
  obtain hnone | ⟨row', _, hsome, hclaims'⟩ := claimNext_spec hinv₂.toDecodes hclaim'
  · cases hnone.1
  cases hsome
  have hrow' : r₂ = row' := by
    have hfound := hclaims'.found
    rw [← hclaims'.taskId, hsame, hr₂] at hfound
    exact Option.some.inj hfound
  have hlt : lease.leaseFence < lease'.leaseFence := by
    rw [hclaims'.fence, ← hrow']
    omega
  refine ⟨hlt, ?_⟩
  intro db₄ hlater' submitted nowNs'' answer db₅ htask hfence hsubmit
  have hinv₃ := hinv₂.step hclaims'.step
  obtain ⟨r₃, hr₃, hfence₃⟩ := hclaims'.find?
  obtain ⟨hinv₄, hgrows₄⟩ := hinv₃.later hlater'
  obtain ⟨r₄, hr₄, -, hle₄⟩ := hgrows₄.tasks _ _ hr₃
  rcases submitAnnotation_spec hinv₄.toDecodes hsubmit with ⟨rfl, rfl, -⟩ | ⟨-, row₄, hsubmits⟩
  · exact ⟨rfl, rfl⟩
  · -- the fence of the row has passed the fence of the annotation
    have hfound := hsubmits.found
    rw [htask, ← hsame, hr₄, Option.some.injEq] at hfound
    have hcurrent := hsubmits.live.fence
    rw [← hfound] at hcurrent
    omega

theorem QueueInv.insertsAreLive : InsertsAreLive codec registry db := by
  intro op db' hrun a ha hnew
  have hsame : db'.annotations = db.annotations → False := by
    intro heq
    rw [heq] at ha
    exact hnew ha
  cases op with
  | submitAnnotation submitted nowNs =>
    obtain ⟨answer, hsubmit⟩ := map_snd_eq_ok.mp hrun
    rcases submitAnnotation_spec h.toDecodes hsubmit with ⟨-, rfl, -⟩ | ⟨-, row, hsubmits⟩
    · exact absurd ha hnew
    · obtain ⟨payload, payloadSha256, annotations, hstored, hinsert, rfl⟩ := hsubmits.written
      have hrow : a = annotationRow submitted payload payloadSha256 := by
        have ha' : a ∈ annotations.rows := ha
        rw [(insert?_eq_some hinsert).2, mem_append, mem_singleton] at ha'
        exact ha'.resolve_left hnew
      exact ⟨submitted, nowNs, row, rfl, ⟨payload, payloadSha256, hstored, hrow⟩,
        hsubmits.found, hsubmits.live⟩
  | enqueue task =>
    exfalso
    obtain ⟨answer, henqueue⟩ := map_snd_eq_ok.mp hrun
    exact hsame (enqueue_spec h.toDecodes henqueue).2.1
  | claimNext workerId nowNs duration =>
    exfalso
    obtain ⟨answer, hclaim⟩ := map_snd_eq_ok.mp hrun
    rcases claimNext_spec h.toDecodes hclaim with ⟨-, rfl⟩ | ⟨row, lease, -, hclaims⟩
    · exact hnew ha
    · exact hsame (by rw [hclaims.written]; rfl)
  | renewLease reviewTaskId workerId fence nowNs duration =>
    exfalso
    obtain ⟨answer, hrenew⟩ := map_snd_eq_ok.mp hrun
    exact hsame (renewLease_spec h.toDecodes hrenew).2
  | reopen command =>
    exfalso
    obtain ⟨answer, hreopen⟩ := map_snd_eq_ok.mp hrun
    exact hsame (reopen_spec h.toDecodes hreopen).2.1

theorem QueueInv.replaysAreIdle : ReplaysAreIdle codec registry db where
  enqueue := by
    intro task answer db₁ henqueue db₂ hlater
    obtain ⟨hstep, -, r, hr, hholds⟩ := enqueue_spec h.toDecodes henqueue
    obtain ⟨hinv, hgrows⟩ := (h.step hstep).later hlater
    obtain ⟨r', hr', hdefinition, -⟩ := hgrows.tasks _ r (mem_rows_iff.mp hr)
    have hmem := mem_of_find? hr'
    obtain ⟨task', hholds'⟩ := hinv.tasks r' hmem
    rw [hholds.unique hholds' hdefinition] at hholds'
    exact enqueue_replay hinv hmem hholds'
  submit := by
    intro submitted nowNs answer db₁ hsubmit db₂ hlater nowNs' hnow
    rcases submitAnnotation_spec h.toDecodes hsubmit with
      ⟨-, rfl, a, ha, hholds⟩ | ⟨-, row, hsubmits⟩
    · obtain ⟨hinv, hgrows⟩ := h.later hlater
      exact submitAnnotation_replay hinv hnow (hgrows.annotations.subset ha) hholds
    · obtain ⟨hinv, hgrows⟩ := (h.step hsubmits.step).later hlater
      obtain ⟨payload, payloadSha256, annotations, hstored, hinsert, rfl⟩ := hsubmits.written
      have ha : annotationRow submitted payload payloadSha256 ∈ annotations.rows := by
        exact KeyedTable.mem_of_insert? hinsert
      exact submitAnnotation_replay hinv hnow (hgrows.annotations.subset ha)
        ⟨payload, payloadSha256, hstored, rfl⟩
  reopen := by
    intro command answer db₁ hreopen db₂ hlater
    obtain ⟨hstep, -, c, hc, hholds⟩ := reopen_spec h.toDecodes hreopen
    obtain ⟨hinv, hgrows⟩ := (h.step hstep).later hlater
    exact reopen_replay hinv (hgrows.reopens.subset hc) hholds

end

/-- In every run of a queue: the tables agree, fences advance, annotations are inserted under
live leases, history is kept, and accepted calls can be repeated. -/
theorem review_queue_is_fenced (h : QueueReachable codec registry db) :
    Consistent db ∧ FencesAdvance codec registry db ∧ InsertsAreLive codec registry db ∧
      (∀ db', Later codec registry db db' → Grows db db') ∧ ReplaysAreIdle codec registry db := by
  have hinv := (queueInv_empty.later h).1
  exact ⟨hinv.consistent, hinv.fencesAdvance, hinv.insertsAreLive,
    fun db' hlater => (hinv.later hlater).2, hinv.replaysAreIdle⟩

namespace SampleQueue

/-- A format given by the documents it can write. -/
def tableFormat {α : Type} [DecidableEq α]
    (documents : KeyedTable (List UInt8 × α) (List UInt8) Prod.fst) : WireFormat α where
  canonicalJsonBytes model :=
    match documents.rows.find? fun d => decide (d.2 = model) with
    | some d => .ok d.1
    | none => .error "not representable"
  modelValidateJson payload :=
    match documents.find? payload with
    | some d => .ok d.2
    | none => .error "not a document"
  roundTrip := by
    intro model payload h
    split at h
    · rename_i d hd
      cases h
      have hmodel : d.2 = model := by simpa using find?_some hd
      have hfound := mem_rows_iff.mp (mem_of_find?_eq_some hd)
      simp only [hfound, hmodel]
    · cases h

def subject : ReviewSubject := ⟨"EVENT", "event:1", "recording", none⟩

theorem due_after_request : (0 : Int) < 100 := by decide

def task : ReviewTask where
  reviewTaskId := "task"
  semanticSha256 := "task digest"
  requestId := "request"
  subject := subject
  priority := 1
  requestedAtNs := 0
  dueAtNs := 100
  otherFields := "LOW_CONFIDENCE"
  due := due_after_request

def submitted (annotationId : OpaqueUuid) (leaseFence : Nat) (leaseOwner : String)
    (h : 0 < leaseFence) : ReviewAnnotation where
  annotationId := annotationId
  semanticSha256 := annotationId ++ " digest"
  reviewTaskId := "task"
  reviewTaskSemanticSha256 := "task digest"
  subject := subject
  leaseFence := leaseFence
  leaseOwner := leaseOwner
  otherFields := "APPROVED"
  fenced := h

/-- The annotation of the second claim. -/
def first : ReviewAnnotation := submitted "first" 2 "worker b" Nat.two_pos

theorem third_fenced : 0 < 3 := by decide

/-- The annotation of the claim after the task was reopened. -/
def second : ReviewAnnotation := submitted "second" 3 "worker a" third_fenced

def command : ReviewReopenCommand := ⟨"reopen", "command digest", "task", "first", "RECHECK"⟩

def documents : ReviewCodec where
  exactBytesSha256 payload := if payload = [1] then "sha one" else "sha two"
  task := tableFormat ⟨[([1], task)], by decide⟩
  annotation := tableFormat ⟨[([1], first), ([2], second)], by decide⟩
  command := tableFormat ⟨[([1], command)], by decide⟩

def validators : ReviewRegistry := ⟨fun _ => .ok (), fun _ => .ok (), fun _ => .ok ()⟩

/-- A lease that expires and is claimed anew, a completion, a reopening, and a replay of the
reopening after the task was completed again. -/
def calls : List ReviewOp :=
  [.enqueue task, .claimNext "worker a" 0 10, .claimNext "worker b" 10 10,
    ReviewOp.submitAnnotation first 15, .reopen command, .claimNext "worker a" 30 10,
    ReviewOp.submitAnnotation second 35, .reopen command]

def final : ReviewDb := replay (runReview documents validators) calls .empty

end SampleQueue

theorem review_queue_is_fenced_sample :
    (SampleQueue.final.tasks.rows.map fun r => (r.status, r.leaseFence)) = [(.completed, 3)] ∧
      SampleQueue.final.annotations.rows.length = 2 ∧ SampleQueue.final.reopens.rows.length = 1 ∧
      Consistent SampleQueue.final ∧
      FencesAdvance SampleQueue.documents SampleQueue.validators SampleQueue.final ∧
      InsertsAreLive SampleQueue.documents SampleQueue.validators SampleQueue.final ∧
      (∀ db', Later SampleQueue.documents SampleQueue.validators SampleQueue.final db' →
        Grows SampleQueue.final db') ∧
      ReplaysAreIdle SampleQueue.documents SampleQueue.validators SampleQueue.final :=
  ⟨by decide +kernel, by decide +kernel, by decide +kernel,
    review_queue_is_fenced (reach_replay SampleQueue.calls .start)⟩

end Robata.Review
