import Robata.Publication.PublicationRuns
import Robata.Queue.LeaseProgress

/-!
# Reconciliation of a committed publication

A coordinator that runs alone brings a committed publication to its end only if it meets the lease
of an earlier process, and that lease outlives its own readings of the clock.  Work whose lease has
run out is claimed again, but it is not started again, and so it does not succeed.
-/

namespace Robata.Publication

open Lib Queue Queue.WorkLedger
open Prog (execute execute_bind_eq_ok)

variable {Facts : Type} {H : PublishHashing Facts} {command : PrimaryCompletionCommand}
  {clock now : Int} {completion : Option (CommittedPrimaryCompletion Facts)}
  {s s' : WorkLedger} {r : WorkRow}

/-! ## The ledger of one item -/

theorem leased_or_running {state : WorkItemState} (h : state.isActive = true) :
    state = .leased ∨ state = .running := by
  cases state <;> first | exact .inl rfl | exact .inr rfl | cases h

namespace WorkInv

variable (h : WorkInv H command clock completion s)
include h

theorem inOrder (hnow : createdAt command ≤ now) : InOrder now anyItem s where
  inv := h.sound.1
  closed := fun _ _ _ => trivial
  ordered := by
    intro j r _ hr
    have hj := h.only j r hr
    subst hj
    exact (h.row r hr).ordered
  created := by
    intro j r hr
    have hj := h.only j r hr
    subst hj
    unfold WorkRow.CreatedBy
    rw [(h.row r hr).createdAt_eq]
    exact hnow

theorem plan_replays (hr : s.item? (workId H command) = some r) :
    ∃ item, s.plan (actionPublishPlan H command) [] = .ok (item, s) := by
  have hpolicy : SamePolicy r (actionPublishPlan H command) :=
    (samePolicy_toRow _).of_plan_eq (h.row r hr).plan
  have hplanned : Planned s (actionPublishPlan H command) [] := by
    refine ⟨⟨r, hr, hpolicy⟩, ?_⟩
    unfold dependencies
    rw [h.deps]
    rfl
  obtain ⟨item, -, hreplay⟩ := hplanned.replay h.sound true hr (h.row r hr).ordered
  exact ⟨item, hreplay⟩

theorem quiet (hlive : ∀ r, s.item? (workId H command) = some r → r.state.isActive = true →
    ∀ e, r.leaseExpiresAt = some e → now < parseTimestamp e) :
    ∀ r ∈ s.items.rows, r.Quiet now := by
  intro r hr
  have hitem := mem_items_iff.mp hr
  have hid := h.only _ r hitem
  rw [hid] at hitem
  have hrow := h.row r hitem
  refine ⟨hrow.hardDue_eq, ?_, hrow.retryDue_eq⟩
  cases hactive : r.state.isActive with
  | false => simp [WorkRow.leaseDue, hactive]
  | true =>
    obtain ⟨e, he, -⟩ := hrow.expiry hactive
    have hlater := hlive r hitem hactive e he
    simp [WorkRow.leaseDue, he, hlater]

end WorkInv

/-! ## Programs that run alone -/

/-- The program runs to its end with nobody else running. -/
abbrev runAlone {α : Type} (p : PublicationProg Facts α) :
    Method (PublicationStore Facts) PublicationError α :=
  execute PublicationCommand.run p

variable {store store' : PublicationStore Facts} {call : PublicationCall Facts}
  {c : CommittedPrimaryCompletion Facts}

theorem transact_inLedger_eq_ok {α : Type} {write : WorkLedger → Except WorkError (α × WorkLedger)}
    {a : α} : Method.transact (inLedger write) store = (.ok a, store') ↔
      ∃ ledger, write store.ledger = .ok (a, ledger) ∧ store' = { store with ledger := ledger } := by
  unfold Method.transact inLedger
  cases write store.ledger with
  | error e => simp
  | ok out =>
    simp only [Prod.mk.injEq, Except.ok.injEq]
    constructor
    · rintro ⟨rfl, rfl⟩
      exact ⟨out.2, rfl, rfl⟩
    · rintro ⟨ledger, rfl, rfl⟩
      exact ⟨rfl, rfl⟩

theorem map_pair_eq_ok {ε α β : Type} {x : Except ε α} {a : α} {b b' : β} :
    (x.map fun a => (a, b)) = .ok (a, b') ↔ x = .ok a ∧ b' = b := by
  cases x with
  | error e => simp [Except.map]
  | ok a' =>
    simp only [Except.map, Except.ok.injEq, Prod.mk.injEq]
    rw [eq_comm (a := b)]

theorem fenced_eq_ok {command : PublicationCommand Facts} {i : OpaqueUuid}
    {a : PublicationAnswer command} :
    runAlone (fenced command i now) store = (.ok a, store') ↔
      PublicationCommand.run command store = (.ok a, store') := by
  unfold fenced runAlone
  rw [Prog.execute_call]
  cases hrun : PublicationCommand.run command store with
  | mk answer after =>
    cases answer with
    | ok b => rfl
    | error e =>
      have hraised : ∀ (next : Except PublicationError Nat →
          PublicationProg Facts (PublicationAnswer command)),
          (∀ answer, ∃ e, next answer = .done (.error e)) → ∀ s,
          execute PublicationCommand.run (.call (.reconcileExactDueState i now) next) s ≠
            (.ok a, store') := by
        intro next hnext s
        obtain ⟨e, he⟩ :=
          hnext (PublicationCommand.run (.reconcileExactDueState i now) s).1
        rw [Prog.execute_call, he]
        simp
      cases e with
      | work error =>
        cases error with
        | fence message =>
          constructor
          · intro hok
            refine absurd hok (hraised _ ?_ _)
            rintro (e | n)
            · exact ⟨e, rfl⟩
            · exact ⟨_, rfl⟩
          · intro hok
            cases hok
        | _ => simp
      | _ => simp

variable {lease : WorkLease}

theorem live_of_holdsLease (h : r.holdsLease lease now = true) :
    ∃ e, r.leaseExpiresAt = some e ∧ now < parseTimestamp e := by
  simp only [WorkRow.holdsLease, Bool.and_eq_true, Option.any_eq_true, decide_eq_true_eq] at h
  obtain ⟨e, he, -, hlater⟩ := h.1.2
  exact ⟨e, by simpa using he, hlater⟩

/-- The lease of the work item outlives the readings of the clock that renew it and that end it. -/
structure LiveLease (call : PublicationCall Facts) (r : WorkRow) : Prop where
  active : r.state.isActive = true
  live : ∃ e, r.leaseExpiresAt = some e ∧ call.startedAt < parseTimestamp e
  renewed : ∃ e, addSeconds call.startedAt call.leaseDurationSeconds = .ok e ∧ call.succeededAt < e

/-! ## What has returned was in time -/

theorem live_of_heartbeat (h : WorkInv H command clock completion s) {renewed : WorkLease}
    {duration : Nat} (hheartbeat : s.heartbeat lease duration now = .ok (renewed, s')) :
    ∃ r e, s.item? (workId H command) = some r ∧ r.holdsLease lease now = true ∧
      addSeconds now duration = .ok e ∧ s'.item? (workId H command) = some (r.withRenewal e now) := by
  obtain ⟨r, e, hr, hholds, ⟨-, hexpires⟩, hchange, -⟩ := heartbeat_spec hheartbeat
  have hid := h.held hr
  rw [hid] at hr hchange
  exact ⟨r, e, hr, hholds, hexpires, hchange.after_self⟩

theorem live_of_start (h : WorkInv H command clock completion s)
    {item : WorkItem} (hstart : s.start lease now = .ok (item, s')) :
    ∃ r, s.item? (workId H command) = some r ∧ r.holdsLease lease now = true := by
  obtain ⟨r, hr, hholds, -⟩ := start_spec hstart
  have hid := h.held hr
  rw [hid] at hr
  exact ⟨r, hr, hholds⟩

theorem live_of_renewed {starts : Prop} [Decidable starts] {item : WorkItem}
    (h : WorkInv H command clock completion store.ledger)
    (hnow : createdAt command ≤ call.startedAt)
    (hrun : runAlone (renewLease call starts lease >>= fun renewed => succeedWork H call renewed c)
      store = (.ok item, store')) :
    ∃ r, store.ledger.item? (workId H command) = some r ∧ LiveLease call r ∧
      (starts ∨ r.state = .running) := by
  obtain ⟨renewed, s₂, hrenew, hsucceed⟩ := execute_bind_eq_ok.mp hrun
  obtain ⟨t, s₀, htick, hrenew⟩ := execute_bind_eq_ok.mp hrenew
  cases htick
  -- what `heartbeat` and `succeed` say of the ledger that the lease is renewed in
  have hends : ∀ s₁ : PublicationStore Facts, WorkInv H command clock completion s₁.ledger →
      runAlone (fenced (.heartbeat lease call.leaseDurationSeconds call.startedAt)
        lease.workItemId call.startedAt) s₁ = (.ok renewed, s₂) →
      ∃ r e, s₁.ledger.item? (workId H command) = some r ∧
        r.holdsLease lease call.startedAt = true ∧
        addSeconds call.startedAt call.leaseDurationSeconds = .ok e ∧ call.succeededAt < e ∧
        r.state = .running := by
    intro s₁ h₁ hbeat
    obtain ⟨ledger₂, hbeaten, rfl⟩ := transact_inLedger_eq_ok.mp (fenced_eq_ok.mp hbeat)
    have h₂ := h₁.heartbeat hbeaten hnow
    obtain ⟨r, e, hr, hholds, hexpires, hafter⟩ := live_of_heartbeat h₁ hbeaten
    obtain ⟨t, s₃, htick, hsucceed⟩ := execute_bind_eq_ok.mp hsucceed
    cases htick
    obtain ⟨ledger₄, hsucceeded, rfl⟩ := transact_inLedger_eq_ok.mp (fenced_eq_ok.mp hsucceed)
    obtain ⟨q, reference, hq, hheld, hrunning, -⟩ := succeed_spec hsucceeded
    have hq : ledger₂.item? renewed.workItemId = some q := hq
    have hid := h₂.held hq
    rw [hid, hafter, Option.some.injEq] at hq
    subst hq
    obtain ⟨e', he', hlater⟩ := live_of_holdsLease hheld
    cases he'
    rw [parseTimestamp_formatTimestamp] at hlater
    exact ⟨r, e, hr, hholds, hexpires, hlater, hrunning⟩
  have hlive : ∀ r e, r.holdsLease lease call.startedAt = true →
      addSeconds call.startedAt call.leaseDurationSeconds = .ok e → call.succeededAt < e →
      LiveLease call r := by
    intro r e hholds hexpires hlater
    exact ⟨isActive_of_holdsLease hholds, live_of_holdsLease hholds, e, hexpires, hlater⟩
  by_cases hstarts : starts
  · rw [if_pos hstarts] at hrenew
    obtain ⟨started, s₁, hstart, hbeat⟩ := execute_bind_eq_ok.mp hrenew
    obtain ⟨ledger₁, hstarted, rfl⟩ := transact_inLedger_eq_ok.mp (fenced_eq_ok.mp hstart)
    have hstarted : store.ledger.start lease call.startedAt = .ok (started, ledger₁) := hstarted
    obtain ⟨r, hr, hholds⟩ := live_of_start h hstarted
    obtain ⟨_, e, -, -, hexpires, hlater, -⟩ := hends _ (h.start hstarted) hbeat
    exact ⟨r, hr, hlive r e hholds hexpires hlater, .inl hstarts⟩
  · rw [if_neg hstarts] at hrenew
    obtain ⟨r, e, hr, hholds, hexpires, hlater, hrunning⟩ :=
      hends { store with clock := call.startedAt } h hrenew
    exact ⟨r, hr, hlive r e hholds hexpires hlater, .inr hrunning⟩

/-- A claim that has returned a lease leaves work that is leased, and not started. -/
theorem claimReady_alone
    (h : WorkInv H command store.clock completion store.ledger) (hclock : store.clock ≤ call.claimedAt)
    (hrun : runAlone (claimReady H call (actionPublishPlan H command)) store =
      (.ok lease, store')) :
    ∃ r, WorkInv H command call.claimedAt completion store'.ledger ∧
      store'.ledger.item? (workId H command) = some r ∧ r.state = .leased := by
  obtain ⟨t, s₀, htick, hrun⟩ := execute_bind_eq_ok.mp hrun
  cases htick
  obtain ⟨n, s₁, hmaintain, hrun⟩ := execute_bind_eq_ok.mp hrun
  obtain ⟨ledger₁, hmaintained, rfl⟩ := transact_inLedger_eq_ok.mp hmaintain
  have h₁ := (h.later hclock fun _ hc => hc).maintain hmaintained
  obtain ⟨claim, s₂, hclaim, hrun⟩ := execute_bind_eq_ok.mp hrun
  obtain ⟨ledger₂, hclaimed, rfl⟩ := transact_inLedger_eq_ok.mp hclaim
  obtain ⟨h₂, hleased⟩ := h₁.claim hclaimed (le_refl _)
  cases claim with
  | none =>
    obtain ⟨item, s₃, -, hrun⟩ := execute_bind_eq_ok.mp hrun
    cases hrun
  | some claim =>
    obtain ⟨r, hr, hstate⟩ := hleased rfl
    dsimp only at hrun
    split at hrun
    · cases hrun
    · cases hrun
      exact ⟨r, h₂, hr, hstate⟩

/-- What `reconcile` has done with the item that it read was done under a live lease. -/
theorem live_of_reconcileItem {item result : WorkItem}
    (h : WorkInv H command store.clock completion store.ledger)
    (hc : c.toPrimaryCompletionCommand = command)
    (hr : store.ledger.item? (workId H command) = some item.row)
    (hclaimed : store.clock ≤ call.claimedAt) (hstarted : call.claimedAt ≤ call.startedAt)
    (hrun : runAlone (reconcileItem H call c item) store = (.ok result, store')) :
    item.row.state = .succeeded ∨ LiveLease call item.row := by
  unfold reconcileItem at hrun
  rw [hc] at hrun
  by_cases hsucceeded : item.row.state = .succeeded
  · exact .inl hsucceeded
  right
  rw [if_neg hsucceeded] at hrun
  obtain ⟨lease, s₁, hlease, hrun⟩ := execute_bind_eq_ok.mp hrun
  unfold reconcileLease at hlease
  by_cases hactive : item.row.state = .leased ∨ item.row.state = .running
  · -- the lease of the item that was read, in the same ledger
    rw [if_pos hactive] at hlease
    have hbegun : createdAt command ≤ call.startedAt := by
      have hcreated := (h.row _ hr).begun (by rcases hactive with h | h <;> rw [h] <;> rfl)
      exact hcreated.trans (hclaimed.trans hstarted)
    obtain ⟨held, s₂, hheld, hlease⟩ := execute_bind_eq_ok.mp hlease
    rw [Prod.mk.injEq] at hheld
    obtain ⟨-, rfl⟩ := hheld
    split at hlease
    · cases hlease
    · cases hlease
      obtain ⟨r, hr', hlive, -⟩ := live_of_renewed h hbegun hrun
      rw [hr, Option.some.injEq] at hr'
      exact hr' ▸ hlive
  · rw [if_neg hactive] at hlease
    split at hlease
    · -- the claimed work is leased, and `start` is left out
      exfalso
      obtain ⟨r, h₁, hr₁, hstate⟩ := claimReady_alone h hclaimed hlease
      have hcreated : createdAt command ≤ call.claimedAt :=
        (h₁.row r hr₁).begun (by rw [hstate]; rfl)
      obtain ⟨q, hq, -, hstarts | hrunning⟩ :=
        live_of_renewed h₁ (hcreated.trans hstarted) hrun
      · exact hactive (.inl hstarts)
      · rw [hr₁, Option.some.injEq] at hq
        rw [← hq, hstate] at hrunning
        cases hrunning
    · cases hlease

variable (call) in
/-- The readings of the clock of a call from a store on. -/
structure ForwardCall (store : PublicationStore Facts) : Prop where
  maintained : store.clock ≤ call.maintainedAt
  claimed : call.maintainedAt ≤ call.claimedAt
  started : call.claimedAt ≤ call.startedAt
  succeeded : call.startedAt ≤ call.succeededAt

/-- A reconciliation that returns has met work that had succeeded, or a live lease. -/
theorem live_of_reconcileWork {result : WorkItem} (h : StoreInv H command store)
    (hc : store.completion = some c) (hforward : ForwardCall call store)
    (hrun : runAlone (reconcileWork H call c) store = (.ok result, store')) :
    ∃ r, store.ledger.item? (workId H command) = some r ∧
      (r.state = .succeeded ∨ LiveLease call r) := by
  have hcommand := h.ofCommand c hc
  obtain ⟨r, hr⟩ := Option.isSome_iff_exists.mp (h.planned (by rw [hc]; rfl))
  refine ⟨r, hr, ?_⟩
  unfold reconcileWork at hrun
  rw [hcommand] at hrun
  obtain ⟨planned, s₁, hplan, hrun⟩ := execute_bind_eq_ok.mp hrun
  obtain ⟨ledger₁, hreplayed, rfl⟩ := transact_inLedger_eq_ok.mp hplan
  obtain ⟨item, hreplay⟩ := h.work.plan_replays hr
  rw [hreplay] at hreplayed
  obtain ⟨-, rfl⟩ := hreplayed
  obtain ⟨t, s₂, htick, hrun⟩ := execute_bind_eq_ok.mp hrun
  cases htick
  obtain ⟨n, s₃, hmaintain, hrun⟩ := execute_bind_eq_ok.mp hrun
  obtain ⟨ledger₃, hmaintained, rfl⟩ := transact_inLedger_eq_ok.mp hmaintain
  have hmaintained : store.ledger.maintain call.maintainedAt true = .ok (n, ledger₃) := hmaintained
  have h₃ := (h.work.later hforward.maintained fun _ hc => hc).maintain hmaintained
  obtain ⟨read, s₄, hread, hrun⟩ := execute_bind_eq_ok.mp hrun
  obtain ⟨ledger₄, hloaded, rfl⟩ := transact_inLedger_eq_ok.mp hread
  obtain ⟨hloaded, rfl⟩ := map_pair_eq_ok.mp hloaded
  have hread := loadItem_eq_ok_iff.mp hloaded
  have hlive : read.row.state = .succeeded ∨ LiveLease call read.row :=
    live_of_reconcileItem h₃ hcommand hread hforward.claimed hforward.started hrun
  -- the maintenance has not touched a row that is leased or has succeeded
  have hsame := row_before_sweep (maintain_evolves hmaintained) hread
    (hlive.elim .inr fun hlive => .inl hlive.active)
  rw [hr, Option.some.injEq] at hsame
  exact hsame ▸ hlive

/-! ## A live lease is enough -/

/-- The row holds this lease. -/
structure HeldBy (r : WorkRow) (lease : WorkLease) : Prop where
  active : r.state.isActive = true
  epoch : r.leaseEpoch = lease.leaseEpoch
  token : r.fencingToken = some lease.fencingToken
  worker : r.leasedBy = some lease.workerId
  expires : r.leaseExpiresAt = some lease.leaseExpiresAt
  unlimited : r.executionExpiryAt = none

namespace HeldBy

variable {lease : WorkLease}

theorem holdsLease (h : HeldBy r lease) (hlive : now < parseTimestamp lease.leaseExpiresAt) :
    r.holdsLease lease now = true := by
  unfold WorkRow.holdsLease
  simp [h.active, h.epoch, h.token, h.worker, h.expires, h.unlimited, hlive]

theorem withRunning (h : HeldBy r lease) (now : Int) : HeldBy (r.withRunning now) lease :=
  ⟨rfl, h.epoch, h.token, h.worker, h.expires, h.unlimited⟩

theorem withRenewal (h : HeldBy r lease) (e now : Int) :
    HeldBy (r.withRenewal e now) { lease with leaseExpiresAt := formatTimestamp e } :=
  ⟨h.active, h.epoch, h.token, h.worker, rfl, h.unlimited⟩

end HeldBy

theorem activeLease_completes {item : WorkItem} (hshape : item.row.Shape)
    (hactive : item.row.state.isActive = true) (hunlimited : item.row.executionExpiryAt = none) :
    ∃ lease, activeLease item = .ok lease ∧ lease.workItemId = item.row.workItemId ∧
      HeldBy item.row lease := by
  obtain ⟨htoken, hworker, hexpires⟩ := hshape.lease_complete hactive
  obtain ⟨token, htoken⟩ := Option.isSome_iff_exists.mp htoken
  obtain ⟨worker, hworker⟩ := Option.isSome_iff_exists.mp hworker
  obtain ⟨expires, hexpires⟩ := Option.isSome_iff_exists.mp hexpires
  have hpositive := (hshape.lease_positive hactive).1
  refine ⟨⟨item.row.workItemId, worker, item.row.leaseEpoch, token, expires, hpositive⟩, ?_, rfl,
    hactive, rfl, htoken, hworker, hexpires, hunlimited⟩
  unfold activeLease
  rw [htoken, hworker, hexpires]
  simp only [hactive, hpositive, and_self, dite_true]

variable (c) in
theorem checkResult_binding : ∃ reference, checkResult (some (committedResultBinding H c).1)
      (some (committedResultBinding H c).2) = .ok (some reference) := by
  have hnonempty : ∃ value, nonempty (committedResultBinding H c).1 "result_reference" =
      .ok value := by
    unfold nonempty committedResultBinding
    rw [dif_pos]
    · exact ⟨_, rfl⟩
    · simp [isPythonSpace]
  obtain ⟨value, hvalue⟩ := hnonempty
  refine ⟨value, ?_⟩
  unfold checkResult
  rw [reject_bind_eq_ok_iff]
  refine ⟨rfl, ?_⟩
  unfold nonemptyOption
  simp only [hvalue]
  rfl

variable (H command) in
variable (c) in
/-- The work item has succeeded with the result of the completion. -/
def SucceededWith (s : WorkLedger) : Prop :=
  ∃ r, s.item? (workId H command) = some r ∧ r.state = .succeeded ∧
    r.resultReference.map (·.val) = some (committedResultBinding H c).1 ∧
    r.resultSha256 = some (committedResultBinding H c).2

theorem WorkInv.succeed_completes (h : WorkInv H command clock completion s)
    (hnow : createdAt command ≤ now) {lease : WorkLease} (hheld : HeldBy r lease)
    (hid : lease.workItemId = workId H command) (hr : s.item? (workId H command) = some r)
    (hlive : now < parseTimestamp lease.leaseExpiresAt)
    (hrunning : r.state = .running) (c : CommittedPrimaryCompletion Facts) :
    ∃ item s', s.succeed lease (some (committedResultBinding H c).1)
        (some (committedResultBinding H c).2) now = .ok (item, s') ∧ SucceededWith H command c s' := by
  obtain ⟨reference, hresult⟩ := checkResult_binding c
  have hmaintain : ∀ s₁, EndsItem now (WorkLedger.only lease.workItemId) s s₁ lease.workItemId r
      (r.withTerminal (successFacts (some reference) (some (committedResultBinding H c).2)) now) →
      s₁.maintain now false = .ok (0, s₁) := by
    -- the only row has ended
    intro s₁ hends
    apply maintain_idle
    intro q hq
    have hitem := mem_items_iff.mp hq
    have hq' : q.workItemId = lease.workItemId := by
      have hevolves : EvolvesBy [] s s₁ := hends.steps.evolvesBy
      rcases hevolves.item_origin hitem with ⟨p, hp, -⟩ | ⟨-, p, hp, -⟩
      · rw [h.only _ p hp, hid]
      · cases hp
    rw [hq', hends.row_self (fun hplanned => by cases hplanned), Option.some.injEq] at hitem
    apply WorkRow.quiet_of_terminal
    · exact ((Steps.inv hends.steps h.sound.1).items _ q (mem_items_iff.mp hq)).shape
    · rw [← hitem]
      rfl
  obtain ⟨item, s', hsucceed, hended⟩ := (h.inOrder hnow).succeed_completes (hid ▸ hr)
    (hheld.holdsLease hlive) hrunning hresult hmaintain
  exact ⟨item, s', hsucceed, _, hid ▸ hended, rfl, val_of_checkResult hresult, rfl⟩

theorem running_completes (h : WorkInv H command store.clock store.completion s)
    (hnow : createdAt command ≤ call.startedAt) (hforward : call.startedAt ≤ call.succeededAt)
    {lease : WorkLease} (hid : lease.workItemId = workId H command)
    (hr : s.item? (workId H command) = some r) (hheld : HeldBy r lease)
    (hstarted : call.startedAt < parseTimestamp lease.leaseExpiresAt) {e : Int}
    (hexpires : addSeconds call.startedAt call.leaseDurationSeconds = .ok e)
    (hrenewed : call.succeededAt < e) (hrunning : r.state = .running) :
    ∃ item store', runAlone (fenced (.heartbeat lease call.leaseDurationSeconds call.startedAt)
        lease.workItemId call.startedAt >>= fun renewed => succeedWork H call renewed c)
        ⟨s, store.completion, call.startedAt⟩ = (.ok item, store') ∧
      SucceededWith H command c store'.ledger := by
  obtain ⟨s₂, hbeat, hchange⟩ := (h.inOrder hnow).heartbeat_completes (hid ▸ hr)
    (hheld.holdsLease hstarted) call.positive hexpires
  have hr₂ := hchange.after_self
  rw [hid] at hr₂
  have hlater : call.succeededAt < parseTimestamp (formatTimestamp e) := by
    rw [parseTimestamp_formatTimestamp]
    exact hrenewed
  obtain ⟨item, s₃, hsucceed, hdone⟩ : ∃ item s₃,
      s₂.succeed { lease with leaseExpiresAt := formatTimestamp e }
        (some (committedResultBinding H c).1) (some (committedResultBinding H c).2)
        call.succeededAt = .ok (item, s₃) ∧ SucceededWith H command c s₃ :=
    (h.heartbeat hbeat hnow).succeed_completes (hnow.trans hforward)
      (hheld.withRenewal e call.startedAt) hid hr₂ hlater hrunning c
  refine ⟨item, ⟨s₃, store.completion, call.succeededAt⟩, ?_, hdone⟩
  refine execute_bind_eq_ok.mpr ⟨_, ⟨s₂, store.completion, call.startedAt⟩,
    fenced_eq_ok.mpr (transact_inLedger_eq_ok.mpr ⟨s₂, hbeat, rfl⟩), ?_⟩
  refine execute_bind_eq_ok.mpr ⟨call.succeededAt, ⟨s₂, store.completion, call.succeededAt⟩,
    rfl, ?_⟩
  exact fenced_eq_ok.mpr (transact_inLedger_eq_ok.mpr ⟨s₃, hsucceed, rfl⟩)

section

variable (h : WorkInv H command store.clock store.completion store.ledger)
include h

theorem renewed_completes
    (hnow : createdAt command ≤ call.startedAt) (hforward : call.startedAt ≤ call.succeededAt)
    {lease : WorkLease} (hid : lease.workItemId = workId H command)
    (hr : store.ledger.item? (workId H command) = some r) (hheld : HeldBy r lease)
    (hlive : LiveLease call r) :
    ∃ item store', runAlone (renewLease call (r.state = .leased) lease >>= fun renewed =>
        succeedWork H call renewed c) store = (.ok item, store') ∧
      SucceededWith H command c store'.ledger := by
  obtain ⟨e, hexpires, hrenewed⟩ := hlive.renewed
  have hstarted : call.startedAt < parseTimestamp lease.leaseExpiresAt := by
    obtain ⟨e₀, he₀, hlater⟩ := hlive.live
    rw [hheld.expires, Option.some.injEq] at he₀
    exact he₀ ▸ hlater
  by_cases hleased : r.state = .leased
  · obtain ⟨started, s₁, hstart, hchange⟩ := (h.inOrder hnow).start_completes (hid ▸ hr)
      (hheld.holdsLease hstarted) hleased
    have hr₁ := hchange.after_self
    rw [hid] at hr₁
    obtain ⟨item, store', hrun, hdone⟩ := running_completes (h.start hstart) hnow hforward hid
      hr₁ (hheld.withRunning call.startedAt) hstarted hexpires hrenewed rfl
    obtain ⟨renewed, s₂, hbeat, hsucceed⟩ := execute_bind_eq_ok.mp hrun
    refine ⟨item, store', execute_bind_eq_ok.mpr ⟨renewed, s₂, ?_, hsucceed⟩, hdone⟩
    refine execute_bind_eq_ok.mpr ⟨call.startedAt, { store with clock := call.startedAt }, rfl, ?_⟩
    rw [if_pos hleased]
    exact execute_bind_eq_ok.mpr ⟨started, ⟨s₁, store.completion, call.startedAt⟩,
      fenced_eq_ok.mpr (transact_inLedger_eq_ok.mpr ⟨s₁, hstart, rfl⟩), hbeat⟩
  · have hrunning : r.state = .running :=
      (leased_or_running hlive.active).resolve_left hleased
    obtain ⟨item, store', hrun, hdone⟩ := running_completes h hnow hforward hid hr hheld
      hstarted hexpires hrenewed hrunning
    obtain ⟨renewed, s₂, hbeat, hsucceed⟩ := execute_bind_eq_ok.mp hrun
    refine ⟨item, store', execute_bind_eq_ok.mpr ⟨renewed, s₂, ?_, hsucceed⟩, hdone⟩
    refine execute_bind_eq_ok.mpr ⟨call.startedAt, { store with clock := call.startedAt }, rfl, ?_⟩
    rw [if_neg hleased]
    exact hbeat

/-- Work that has succeeded is read, and work under a live lease is brought to its end. -/
theorem reconcileItem_completes {item : WorkItem}
    (hc : store.completion = some c) (hcommand : c.toPrimaryCompletionCommand = command)
    (hr : store.ledger.item? (workId H command) = some item.row)
    (hclock : store.clock ≤ call.startedAt) (hforward : call.startedAt ≤ call.succeededAt)
    (hlive : item.row.state = .succeeded ∨ LiveLease call item.row) :
    ∃ result store', runAlone (reconcileItem H call c item) store = (.ok result, store') ∧
      SucceededWith H command c store'.ledger := by
  have hrow := h.row item.row hr
  unfold reconcileItem
  rw [hcommand]
  by_cases hsucceeded : item.row.state = .succeeded
  · obtain ⟨c', hc', hreference, hsha256⟩ := hrow.result hsucceeded
    rw [hc, Option.some.injEq] at hc'
    subst hc'
    rw [if_pos hsucceeded, if_neg (by simp [hreference, hsha256])]
    exact ⟨item, store, rfl, item.row, hr, hsucceeded, hreference, hsha256⟩
  · have hlive := hlive.resolve_left hsucceeded
    rw [if_neg hsucceeded]
    obtain ⟨lease, hlease, hid, hheld⟩ := activeLease_completes (h.sound.1.items _ _ hr).shape
      hlive.active hrow.executionExpiryAt_eq
    rw [workItemId_of_item? hr] at hid
    obtain ⟨result, store', hrun, hdone⟩ := renewed_completes h
      ((hrow.begun hlive.active).trans hclock) hforward hid hr hheld hlive
    refine ⟨result, store', execute_bind_eq_ok.mpr ⟨lease, store, ?_, hrun⟩, hdone⟩
    have hworker : lease.workerId.val = workerId H (actionPublishPlan H command) := by
      have hmine := hrow.worker hlive.active
      rw [hheld.worker] at hmine
      exact Option.some.inj hmine
    unfold reconcileLease
    rw [if_pos (leased_or_running hlive.active)]
    refine execute_bind_eq_ok.mpr ⟨lease, store, ?_, ?_⟩
    · rw [Prog.execute_ofExcept, hlease]
    · rw [if_neg (by simp [hworker])]
      rfl

end

theorem reconcileWork_completes (h : StoreInv H command store) (hc : store.completion = some c)
    (hforward : ForwardCall call store) (hr : store.ledger.item? (workId H command) = some r)
    (hlive : r.state = .succeeded ∨ LiveLease call r) :
    ∃ result store', runAlone (reconcileWork H call c) store = (.ok result, store') ∧
      SucceededWith H command c store'.ledger := by
  have hcommand := h.ofCommand c hc
  have hclock : call.maintainedAt ≤ call.startedAt := hforward.claimed.trans hforward.started
  obtain ⟨planned, hplan⟩ := h.work.plan_replays hr
  have hwork : WorkInv H command call.maintainedAt store.completion store.ledger :=
    h.work.later hforward.maintained fun _ hc => hc
  have hquiet : ∀ q ∈ store.ledger.items.rows, q.Quiet call.maintainedAt := by
    apply hwork.quiet
    intro q hq hactive e he
    rw [hr, Option.some.injEq] at hq
    subst hq
    rcases hlive with hsucceeded | hlive
    · rw [hsucceeded] at hactive
      cases hactive
    · obtain ⟨e', he', hlater⟩ := hlive.live
      rw [he, Option.some.injEq] at he'
      subst he'
      omega
  obtain ⟨item, hload, rfl⟩ := (hwork.inOrder (le_refl _)).loads hr
  obtain ⟨result, store', hrun, hdone⟩ : ∃ result store', runAlone (reconcileItem H call c item)
      ⟨store.ledger, store.completion, call.maintainedAt⟩ = (.ok result, store') ∧
        SucceededWith H command c store'.ledger :=
    reconcileItem_completes hwork hc hcommand hr hclock hforward.succeeded hlive
  refine ⟨result, store', ?_, hdone⟩
  unfold reconcileWork
  rw [hcommand]
  refine execute_bind_eq_ok.mpr ⟨planned, store,
    transact_inLedger_eq_ok.mpr ⟨store.ledger, hplan, rfl⟩, ?_⟩
  refine execute_bind_eq_ok.mpr ⟨call.maintainedAt, { store with clock := call.maintainedAt },
    rfl, ?_⟩
  refine execute_bind_eq_ok.mpr ⟨0, { store with clock := call.maintainedAt },
    transact_inLedger_eq_ok.mpr ⟨store.ledger, hwork.sound.maintain_idle hquiet true, rfl⟩, ?_⟩
  refine execute_bind_eq_ok.mpr ⟨item, { store with clock := call.maintainedAt },
    transact_inLedger_eq_ok.mpr ⟨store.ledger, map_pair_eq_ok.mpr ⟨hload, rfl⟩, rfl⟩, ?_⟩
  exact hrun

end Robata.Publication
