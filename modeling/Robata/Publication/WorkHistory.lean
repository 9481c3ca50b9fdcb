import Robata.Publication.DurableWork
import Robata.Queue.WorkEvolution
import Robata.Queue.Readable

/-!
# The history of a publication work item

What the transactions of the scheduler make of the one work item of a publication: its row keeps its
plan, is leased by the coordinators of the command only, and has succeeded only with the result of
the committed completion.
-/

namespace Robata.Publication

open Lib Queue Queue.WorkLedger List

variable {Facts : Type} (H : PublishHashing Facts) (command : PrimaryCompletionCommand)

abbrev workId : OpaqueUuid := (actionPublishPlan H command).workItemId

/-- The instant that the work item is created at. -/
abbrev createdAt : Int := parseTimestamp command.startedAt

/-- The states that a publication can be in. -/
def isPublicationState : WorkItemState → Bool
  | .planned | .ready | .leased | .running | .succeeded | .failedPermanent => true
  | _ => false

/-- The row of the work item, at a reading of the clock and with the completion of the run. -/
structure RowInv (clock : Int) (completion : Option (CommittedPrimaryCompletion Facts))
    (r : WorkRow) : Prop where
  plan : r.toWorkItemPlan = (actionPublishPlan H command).toRow.toWorkItemPlan
  state : isPublicationState r.state = true
  ordered : r.ClockOrdered
  worker : r.state.isActive = true →
    r.leasedBy.map (·.val) = some (workerId H (actionPublishPlan H command))
  begun : r.state.isActive = true → createdAt command ≤ clock
  expiry : r.state.isActive = true →
    ∃ e, r.leaseExpiresAt = some e ∧ createdAt command ≤ parseTimestamp e
  result : r.state = .succeeded → ∃ c, completion = some c ∧
    r.resultReference.map (·.val) = some (committedResultBinding H c).1 ∧
    r.resultSha256 = some (committedResultBinding H c).2

variable {H command} {clock now : Int} {completion : Option (CommittedPrimaryCompletion Facts)}
  {s s' : WorkLedger} {r : WorkRow}

namespace RowInv

theorem createdAt_eq (h : RowInv H command clock completion r) :
    parseTimestamp r.createdAt = createdAt command := by
  have hcreated := congrArg WorkItemPlan.createdAt h.plan
  rw [hcreated]
  exact parseTimestamp_normalizeTimestamp _

theorem executionExpiryAt_eq (h : RowInv H command clock completion r) :
    r.executionExpiryAt = none := by
  have hexpiry := congrArg WorkItemPlan.executionExpiryAt h.plan
  rw [hexpiry]
  rfl

section

variable (hplan : r.toWorkItemPlan = (actionPublishPlan H command).toRow.toWorkItemPlan)
include hplan

theorem of_idle (hstate : isPublicationState r.state = true) (hordered : r.ClockOrdered)
    (hidle : r.state.isActive = false) (hopen : r.state ≠ .succeeded) :
    RowInv H command clock completion r where
  plan := hplan
  state := hstate
  ordered := hordered
  worker := by simp [hidle]
  begun := by simp [hidle]
  expiry := by simp [hidle]
  result := fun hsucceeded => absurd hsucceeded hopen

theorem of_active (hactive : r.state.isActive = true) (hordered : r.ClockOrdered)
    (hworker : r.leasedBy.map (·.val) = some (workerId H (actionPublishPlan H command)))
    (hbegun : createdAt command ≤ clock) {e : Rfc3339Timestamp} (hexpiry : r.leaseExpiresAt = some e)
    (hlater : createdAt command ≤ parseTimestamp e) :
    RowInv H command clock completion r where
  plan := hplan
  state := by
    cases hstate : r.state <;> rw [hstate] at hactive <;> first | rfl | cases hactive
  ordered := hordered
  worker := fun _ => hworker
  begun := fun _ => hbegun
  expiry := fun _ => ⟨e, hexpiry, hlater⟩
  result := by
    intro hsucceeded
    rw [hsucceeded] at hactive
    cases hactive

theorem of_succeeded (hstate : r.state = .succeeded) (hordered : r.ClockOrdered)
    {c : CommittedPrimaryCompletion Facts} (hcompletion : completion = some c)
    (hreference : r.resultReference.map (·.val) = some (committedResultBinding H c).1)
    (hsha256 : r.resultSha256 = some (committedResultBinding H c).2) :
    RowInv H command clock completion r where
  plan := hplan
  state := by rw [hstate]; rfl
  ordered := hordered
  worker := by simp [hstate, WorkItemState.isActive]
  begun := by simp [hstate, WorkItemState.isActive]
  expiry := by simp [hstate, WorkItemState.isActive]
  result := fun _ => ⟨c, hcompletion, hreference, hsha256⟩

end

variable (h : RowInv H command clock completion r)
include h

theorem later {clock' : Int}
    {completion' : Option (CommittedPrimaryCompletion Facts)} (hclock : clock ≤ clock')
    (hcompletion : ∀ c, completion = some c → completion' = some c) :
    RowInv H command clock' completion' r where
  plan := h.plan
  state := h.state
  ordered := h.ordered
  worker := h.worker
  begun := fun hactive => (h.begun hactive).trans hclock
  expiry := h.expiry
  result := by
    intro hsucceeded
    obtain ⟨c, hc, hresult⟩ := h.result hsucceeded
    exact ⟨c, hcompletion c hc, hresult⟩

theorem hardDue_eq : r.hardDue now = false := by
  unfold WorkRow.hardDue
  rw [h.executionExpiryAt_eq]
  simp

theorem retryDue_eq : r.retryDue now = false := by
  have hstate : r.state ≠ .retryWait := by
    intro hwait
    have hpublication := h.state
    rw [hwait] at hpublication
    cases hpublication
  unfold WorkRow.retryDue
  simp [hstate]

theorem created_of_leaseDue
    (hdue : r.leaseDue now = true) : r.state.isActive = true ∧ createdAt command ≤ now := by
  unfold WorkRow.leaseDue at hdue
  rw [Bool.and_eq_true] at hdue
  obtain ⟨e, he, hcreated⟩ := h.expiry hdue.1
  have hexpired := hdue.2
  rw [he] at hexpired
  have hle : parseTimestamp e ≤ now := by simpa using hexpired
  exact ⟨hdue.1, hcreated.trans hle⟩

theorem ordered_at (hnow : createdAt command ≤ now)
    {r' : WorkRow} (hcreated : r'.createdAt = r.createdAt)
    (hupdated : r'.updatedAt = formatTimestamp now) : r'.ClockOrdered := by
  unfold WorkRow.ClockOrdered
  rw [hcreated, hupdated, h.createdAt_eq, parseTimestamp_formatTimestamp]
  exact hnow

theorem rowStep {ended failure : Prop} {r' : WorkRow} (hstep : RowStep now False ended failure r r')
    (hplanned : r.state = .planned → createdAt command ≤ now) (hfailure : ¬failure) :
    RowInv H command clock completion r' := by
  cases hstep with
  | release planned _ _ =>
    exact .of_idle h.plan rfl (h.ordered_at (hplanned planned) rfl rfl) rfl (fun h => by cases h)
  | failDependency _ _ failed => exact absurd failed hfailure
  | expire due =>
    rw [h.hardDue_eq] at due
    cases due
  | recover due _ | exhaust due _ =>
    have hcreated := (h.created_of_leaseDue due).2
    exact .of_idle h.plan rfl (h.ordered_at hcreated rfl rfl) rfl (fun h => by cases h)
  | retry due =>
    rw [h.retryDue_eq] at due
    cases due
  | claim hcalled | start hcalled | renew hcalled | succeed hcalled | fail hcalled | wait hcalled
  | direct hcalled => exact hcalled.elim

end RowInv

theorem val_of_checkResult {text : String} {sha256 : Sha256Digest}
    {reference : Option NonEmptyString}
    (h : checkResult (some text) (some sha256) = .ok reference) :
    reference.map (·.val) = some text := by
  unfold checkResult at h
  rw [reject_bind_eq_ok_iff] at h
  have hchecked := h.2
  unfold nonemptyOption at hchecked
  cases hvalue : nonempty text "result_reference" with
  | error e =>
    simp only [hvalue] at hchecked
    cases hchecked
  | ok value =>
    simp only [hvalue] at hchecked
    cases hchecked
    exact congrArg some (val_of_nonempty hvalue)

theorem not_requiredFailure (hdeps : s.deps.rows = []) (i : OpaqueUuid) : ¬s.RequiredFailure i := by
  rintro ⟨v, hv, -⟩
  obtain ⟨d, hd, -⟩ := mem_dependencyStates.mp hv
  rw [hdeps] at hd
  cases hd

theorem RowInv.steps (hsteps : Steps now nobody s s') (hdeps : s.deps.rows = [])
    (hplanned : ∀ r, s.item? (workId H command) = some r → r.state = .planned →
      createdAt command ≤ now)
    (h : ∀ r, s.item? (workId H command) = some r → RowInv H command clock completion r) :
    ∀ r, s'.item? (workId H command) = some r → RowInv H command clock completion r := by
  have hboth : (∀ r, s'.item? (workId H command) = some r → RowInv H command clock completion r) ∧
      ∀ r, s'.item? (workId H command) = some r → r.state = .planned → createdAt command ≤ now := by
    induction hsteps with
    | refl => exact ⟨h, hplanned⟩
    | @tail t t' hbefore hstep ih =>
      have hdeps' : t.deps.rows = [] := by rw [Steps.deps_eq hbefore, hdeps]
      rcases hstep.items (workId H command) with ⟨hsame, -⟩ | ⟨q, q', hitem⟩
      · rw [hsame]
        exact ih
      · have hq := ih.1 q hitem.before
        have hnext := hq.rowStep hitem.row (ih.2 q hitem.before) (not_requiredFailure hdeps' _)
        constructor
        · intro r hr
          rw [hitem.after, Option.some.injEq] at hr
          exact hr ▸ hnext
        · intro r hr hstate
          rw [hitem.after, Option.some.injEq] at hr
          exact absurd hstate (hr ▸ hitem.row.state_ne_planned)
  exact hboth.1

variable (H command) in
variable (clock completion s) in
/-- The ledger of the publication, at a reading of the clock and with the completion of the run. -/
structure WorkInv : Prop where
  sound : s.Sound
  deps : s.deps.rows = []
  only : ∀ j r, s.item? j = some r → j = workId H command
  row : ∀ r, s.item? (workId H command) = some r → RowInv H command clock completion r

theorem deps_of_evolvesBy {plans : List (WorkItemPlan × List WorkDependency)}
    (hplans : ∀ p ∈ plans, p.2 = []) (h : EvolvesBy plans s s') : s'.deps.rows = s.deps.rows := by
  induction h with
  | refl => rfl
  | tail _ hlast ih =>
    rcases hlast with ⟨_, _, hstep⟩ | ⟨p, hp, hinsert⟩
    · rw [hstep.deps_eq, ih]
    · rw [hinsert.deps_eq, hplans p hp, append_nil, ih]

namespace WorkInv

variable (h : WorkInv H command clock completion s)
include h

theorem not_planned (hr : s.item? (workId H command) = some r) : r.state ≠ .planned := by
  intro hplanned
  apply h.sound.2 (workId H command)
  refine ⟨r, hr, hplanned, upstreamEnded_def.mpr ?_⟩
  intro d hd
  rw [h.deps] at hd
  cases hd

theorem later {clock' : Int} {completion' : Option (CommittedPrimaryCompletion Facts)}
    (hclock : clock ≤ clock') (hcompletion : ∀ c, completion = some c → completion' = some c) :
    WorkInv H command clock' completion' s :=
  ⟨h.sound, h.deps, h.only, fun r hr => (h.row r hr).later hclock hcompletion⟩

theorem of_run {op : SchedulerOp} (hrun : op.run s = .ok s')
    (hplans : ∀ p ∈ op.plans, p = (actionPublishPlan H command, []))
    (hrow : ∀ r, s'.item? (workId H command) = some r → RowInv H command clock completion r) :
    WorkInv H command clock completion s' where
  sound := run_sound hrun h.sound
  deps := by
    rw [deps_of_evolvesBy (fun p hp => by rw [hplans p hp]) (run_evolvesBy hrun), h.deps]
  only := by
    intro j r hr
    rcases (run_evolvesBy hrun).item_origin hr with ⟨q, hq, -⟩ | ⟨-, p, hp, rfl, -⟩
    · exact h.only j q hq
    · rw [hplans p hp]
  row := hrow

theorem row_steps (hsteps : Steps now nobody s s') :
    ∀ r, s'.item? (workId H command) = some r → RowInv H command clock completion r :=
  RowInv.steps hsteps h.deps (fun _ hr hplanned => absurd hplanned (h.not_planned hr)) h.row

variable {item : WorkItem}

theorem plan (hplan : s.plan (actionPublishPlan H command) [] = .ok (item, s')) :
    WorkInv H command clock completion s' := by
  have hrun : (SchedulerOp.plan (actionPublishPlan H command) []).run s = .ok s' :=
    map_snd_eq_ok.mpr ⟨item, hplan⟩
  apply h.of_run hrun (fun p hp => by simpa [SchedulerOp.plans] using hp)
  rcases plan_cases hplan with rfl | ⟨s₁, n, hinsert, hrefresh⟩
  · exact h.row
  · -- the new row is released at once, at the instant that it was created at
    have hdeps : s₁.deps.rows = [] := by rw [hinsert.deps_eq, h.deps]; rfl
    have hnew : ∀ r, s₁.item? (workId H command) = some r →
        r = (actionPublishPlan H command).toRow := by
      intro r hr
      rw [hinsert.item?_eq, if_pos rfl, Option.some.injEq] at hr
      exact hr.symm
    refine RowInv.steps (refreshPlannedForWorkIds_cascade hrefresh).steps hdeps
      (fun _ _ _ => le_refl _) ?_
    intro r hr
    rw [hnew r hr]
    exact .of_idle rfl rfl (le_refl _) rfl (fun hstate => by cases hstate)

theorem maintain {n : Nat} (hmaintain : s.maintain now true = .ok (n, s')) :
    WorkInv H command clock completion s' := by
  have hrun : (SchedulerOp.reconcile now).run s = .ok s' := map_snd_eq_ok.mpr ⟨n, hmaintain⟩
  exact h.of_run hrun (forall_mem_nil _) (h.row_steps (maintain_evolves hmaintain))

theorem claim {duration : Int} {fencingToken : NonEmptyString} {out : Option WorkLeaseClaim}
    (hclaim : s.claim (workerId H (actionPublishPlan H command)) duration
      (some (workId H command)) now false fencingToken = .ok (out, s')) (hnow : now ≤ clock) :
    WorkInv H command clock completion s' ∧
      (out.isSome = true → ∃ r, s'.item? (workId H command) = some r ∧ r.state = .leased) := by
  have hrun : (SchedulerOp.claim (workerId H (actionPublishPlan H command)) duration
      (some (workId H command)) now false fencingToken).run s = .ok s' :=
    map_snd_eq_ok.mpr ⟨out, hclaim⟩
  obtain ⟨n, s₁, hmaintain, hcases⟩ := claim_spec hclaim
  have hswept := h.row_steps (maintain_evolves hmaintain)
  rcases hcases with ⟨rfl, rfl⟩ | ⟨row, next, worker, expires, hnext, -, hchange, hstep, hordered,
    hstate, hworker, hlater⟩
  · refine ⟨h.of_run hrun (forall_mem_nil _) hswept, ?_⟩
    intro hsome
    cases hsome
  · have hid : row.workItemId = workId H command := by
      have hevolves : EvolvesBy [] s s₁ := (maintain_evolves hmaintain).evolvesBy
      rcases hevolves.item_origin hchange.before with
        ⟨q, hq, -⟩ | ⟨-, p, hp, -⟩
      · exact h.only _ q hq
      · cases hp
    rw [hid] at hchange
    have hbefore := hswept row hchange.before
    have hcreated : createdAt command ≤ now := by
      have hle := hordered
      rw [← hbefore.createdAt_eq]
      exact hle.trans_eq (parseTimestamp_formatTimestamp now)
    constructor
    · apply h.of_run hrun (forall_mem_nil _)
      intro r hr
      rw [hchange.after_self, Option.some.injEq] at hr
      subst hr
      apply RowInv.of_active (r := row.withClaim next fencingToken worker expires now)
        hbefore.plan hnext hordered (congrArg some hworker) (hcreated.trans hnow) rfl
      rw [parseTimestamp_formatTimestamp]
      omega
    · intro _
      exact ⟨_, hchange.after_self, hstate⟩

variable {lease : WorkLease}

theorem held (hr : s.item? lease.workItemId = some r) :
    lease.workItemId = workId H command := h.only _ r hr

theorem start (hstart : s.start lease now = .ok (item, s')) :
    WorkInv H command clock completion s' := by
  have hrun : (SchedulerOp.start lease now).run s = .ok s' := map_snd_eq_ok.mpr ⟨item, hstart⟩
  apply h.of_run hrun (forall_mem_nil _)
  obtain ⟨r, hr, hholds, hcases⟩ := start_spec hstart
  rcases hcases with rfl | ⟨-, hchange, -, hordered⟩
  · exact h.row
  · have hid := h.held hr
    rw [hid] at hr hchange
    have hbefore := h.row r hr
    have hactive := isActive_of_holdsLease hholds
    intro r' hr'
    rw [hchange.after_self, Option.some.injEq] at hr'
    subst hr'
    obtain ⟨e, he, hlater⟩ := hbefore.expiry hactive
    exact .of_active hbefore.plan rfl hordered (hbefore.worker hactive) (hbefore.begun hactive) he
      hlater

/-- The renewed row is not read back: the clock must have passed its creation. -/
theorem heartbeat {renewed : WorkLease} {duration : Int}
    (hheartbeat : s.heartbeat lease duration now = .ok (renewed, s'))
    (hnow : createdAt command ≤ now) : WorkInv H command clock completion s' := by
  have hrun : (SchedulerOp.heartbeat lease duration now).run s = .ok s' :=
    map_snd_eq_ok.mpr ⟨renewed, hheartbeat⟩
  apply h.of_run hrun (forall_mem_nil _)
  obtain ⟨r, expires, hr, hholds, ⟨hlater, -⟩, hchange, -⟩ := heartbeat_spec hheartbeat
  have hid := h.held hr
  rw [hid] at hr hchange
  have hbefore := h.row r hr
  have hactive := isActive_of_holdsLease hholds
  intro r' hr'
  rw [hchange.after_self, Option.some.injEq] at hr'
  subst hr'
  apply RowInv.of_active (r := r.withRenewal expires now) hbefore.plan hactive
    (hbefore.ordered_at hnow rfl rfl) (hbefore.worker hactive) (hbefore.begun hactive) rfl
  rw [parseTimestamp_formatTimestamp]
  omega

theorem succeed {c : CommittedPrimaryCompletion Facts} (hcompletion : completion = some c)
    (hsucceed : s.succeed lease (some (committedResultBinding H c).1)
      (some (committedResultBinding H c).2) now = .ok (item, s')) :
    WorkInv H command clock completion s' := by
  have hrun : (SchedulerOp.succeed lease (some (committedResultBinding H c).1)
      (some (committedResultBinding H c).2) now).run s = .ok s' :=
    map_snd_eq_ok.mpr ⟨item, hsucceed⟩
  apply h.of_run hrun (forall_mem_nil _)
  obtain ⟨r, reference, hr, hholds, -, hresult, hsettlement⟩ := succeed_spec hsucceed
  have hid := h.held hr
  rw [hid] at hr hsettlement
  have hbefore := h.row r hr
  have hcreated : createdAt command ≤ now := by
    rw [← hbefore.createdAt_eq]
    exact hsettlement.createdBy h.sound.2
  obtain ⟨s₁, n, q, hends, hmaintain, -, -⟩ := hsettlement
  have hended := hends.row_self (fun hplanned => by cases hplanned)
  have hdeps : s₁.deps.rows = [] := by rw [Steps.deps_eq hends.steps, h.deps]
  refine RowInv.steps (maintain_evolves hmaintain) hdeps ?_ ?_
  · intro r' hr' hplanned
    rw [hended, Option.some.injEq] at hr'
    subst hr'
    cases hplanned
  · intro r' hr'
    rw [hended, Option.some.injEq] at hr'
    subst hr'
    exact .of_succeeded hbefore.plan rfl (hbefore.ordered_at hcreated rfl rfl) hcompletion
      (val_of_checkResult hresult) rfl

theorem reconcileExact {i : OpaqueUuid} {n : Nat}
    (hexact : s.reconcileExactDueState i now = .ok (n, s')) :
    WorkInv H command clock completion s' := by
  have hrun : (SchedulerOp.reconcileExactDueState i now).run s = .ok s' :=
    map_snd_eq_ok.mpr ⟨n, hexact⟩
  apply h.of_run hrun (forall_mem_nil _)
  obtain ⟨_, s₁, _, s₂, hexpire, hrecover, hcascade, -⟩ := reconcileExactDueState_spec hexact
  exact h.row_steps (((expireHardDeadlines_steps hexpire).trans
    (recoverExpiredLeases_steps hrecover)).trans hcascade.steps)

end WorkInv

end Robata.Publication
