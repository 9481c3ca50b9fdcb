import Robata.Queue.WorkCalls

/-!
# Invariants of the work ledger

`ItemInv` ties a row to the history of its attempts; `LedgerInv` adds what the
dependency graph guarantees.  Both are preserved by every `LedgerStep` and by
every insertion of a plan, hence they hold in every reachable ledger, together
with `Settled`: no `PLANNED` item is left behind.
-/

namespace Robata.Queue

open Lib Relation List
open Function (update update_apply)
open TerminalFacts (ofReason)
open WorkItemState (isActive isDirect isReleased isTerminal)

namespace WorkRow

theorem Shape.withTerminal {r : WorkRow} {facts : TerminalFacts} {now : Int}
    (hterminal : facts.state.isTerminal = true)
    (hreason : facts.state ≠ .succeeded → facts.reasonCode.isSome = true)
    (hdetail : facts.reasonDetail.isSome = true → facts.reasonCode.isSome = true)
    (hpaired : facts.resultReference.isSome = facts.resultSha256.isSome)
    (hresult : facts.state ≠ .succeeded → facts.resultReference = none) :
    (r.withTerminal facts now).Shape := by
  have hinactive : facts.state.isActive = false := by
    cases hstate : facts.state <;> rw [hstate] at hterminal <;> first | rfl | cases hterminal
  have hretry : facts.state ≠ .retryWait := by
    intro hstate
    rw [hstate] at hterminal
    cases hterminal
  refine ⟨?_, ?_, ?_, ?_, ?_, ?_, ?_, hdetail, hpaired, hresult⟩
  · exact fun hactive => Bool.noConfusion (hinactive.symm.trans hactive)
  · exact fun _ => ⟨rfl, rfl, rfl⟩
  · exact fun hactive => Bool.noConfusion (hinactive.symm.trans hactive)
  · exact ⟨fun hstate => absurd hstate hretry, fun hsome => by cases hsome⟩
  · exact ⟨fun _ => rfl, fun _ => hterminal⟩
  · exact fun _ hstate => hreason hstate
  · exact fun hopen => Bool.noConfusion (hterminal.symm.trans hopen)

end WorkRow

namespace RowStep

variable {now : Int} {called ended failure : Prop} {r r' : WorkRow}

theorem shape (h : RowStep now called ended failure r r') (hs : r.Shape) : r'.Shape := by
  have hopen := h.isTerminal_eq_false hs
  have hsucceeded : r.state ≠ .succeeded := by
    intro hstate
    rw [hstate] at hopen
    cases hopen
  obtain ⟨hl1, hl2, hl3, hretry, _, _, _, hdetail, hpaired, _⟩ := hs
  cases h with
  | release planned _ _ =>
    constructor <;> simp_all [WorkRow.withReady, isActive, isTerminal]
  | failDependency | expire | exhaust | fail =>
    exact .withTerminal rfl (fun _ => rfl) (fun _ => rfl) rfl (fun _ => rfl)
  | recover due left =>
    constructor <;>
      simp_all [WorkRow.withRecovered, WorkRow.leaseDue, isActive, isTerminal]
    -- an active row is not waiting for a retry
    cases hwait : r.retryNotBeforeAt with
    | none => rfl
    | some e =>
      rw [hretry.mpr (by rw [hwait]; rfl)] at due
      exact absurd due.1 (by simp)
  | retry due =>
    constructor <;>
      simp_all [WorkRow.withRetryReady, WorkRow.retryDue, isActive, isTerminal]
  | @claim _ ready next hnext _ _ _ _ =>
    cases next with
    | leased | running =>
      constructor <;>
        simp_all [WorkRow.withClaim, isActive, isTerminal]
    | _ => cases hnext
  | start _ leased =>
    constructor <;> simp_all [WorkRow.withRunning, isActive, isTerminal]
  | renew _ active _ =>
    constructor <;> simp_all [WorkRow.withRenewal, isActive, isTerminal]
  | succeed _ _ paired =>
    exact .withTerminal rfl (fun hne => absurd rfl hne) (fun hsome => by cases hsome) paired
      (fun hne => absurd rfl hne)
  | wait _ active _ _ =>
    constructor <;> simp_all [WorkRow.withRetryWait, isActive, isTerminal]
  | @direct _ _ state hstate _ _ _ =>
    have hterminal : state.isTerminal = true := by
      cases state <;> first | rfl | cases hstate
    exact .withTerminal hterminal (fun _ => rfl) (fun _ => rfl) rfl (fun _ => rfl)

theorem claimed (h : RowStep now called ended failure r r') (hr : r.state.isActive = false)
    (hr' : r'.state.isActive = true) :
    r.state = .ready ∧ r'.attempt = r.attempt + 1 ∧ r'.leaseEpoch = r.leaseEpoch + 1 := by
  cases h with
  | claim _ ready _ _ _ _ => exact ⟨ready, rfl, rfl⟩
  | start _ leased =>
    rw [leased] at hr
    cases hr
  | renew _ active _ =>
    rw [active] at hr
    cases hr
  | direct _ _ hstate _ _ _ =>
    simp only [WorkRow.withTerminal, ofReason] at hr'
    revert hstate hr'
    cases ‹WorkItemState› <;> simp [isDirect, isActive]
  | _ => cases hr'

/-- Every other transition keeps the counters, and keeps the lease as long as
there is one. -/
theorem unclaimed (h : RowStep now called ended failure r r')
    (hnot : r.state.isActive = true ∨ r'.state.isActive = false) :
    r'.attempt = r.attempt ∧ r'.leaseEpoch = r.leaseEpoch ∧
      (r'.state.isActive = true → r'.fencingToken = r.fencingToken ∧ r'.leasedBy = r.leasedBy) := by
  have hinactive : ∀ {state : WorkItemState}, state.isDirect = true → state.isActive = false := by
    intro state hstate
    cases state <;> first | rfl | cases hstate
  cases h with
  | claim _ ready hnext _ _ _ =>
    rcases hnot with hactive | hnot
    · rw [ready] at hactive
      cases hactive
    · simp only [WorkRow.withClaim] at hnot
      rw [hnext] at hnot
      cases hnot
  | start | renew => exact ⟨rfl, rfl, fun _ => ⟨rfl, rfl⟩⟩
  | direct _ _ hstate _ _ _ =>
    refine ⟨rfl, rfl, ?_⟩
    intro hactive
    simp only [WorkRow.withTerminal, ofReason] at hactive
    rw [hinactive hstate] at hactive
    cases hactive
  | _ => exact ⟨rfl, rfl, fun hactive => by cases hactive⟩

end RowStep

/-- The states in which an item waits for its next attempt. -/
def WorkItemState.isQueued : WorkItemState → Bool
  | .planned | .ready | .retryWait => true
  | _ => false

theorem RowStep.attempts_left {now : Int} {called ended failure : Prop} {r r' : WorkRow}
    (h : RowStep now called ended failure r r')
    (hleft : r.state.isQueued = true → r.attempt < r.maxAttempts)
    (hqueued : r'.state.isQueued = true) : r'.attempt < r'.maxAttempts := by
  cases h with
  | release planned _ _ => exact hleft (by rw [planned]; rfl)
  | recover _ left | wait _ _ left _ => exact left
  | retry due =>
    rw [WorkRow.retryDue, Bool.and_eq_true, beq_iff_eq] at due
    exact hleft (by rw [due.1]; rfl)
  | claim _ _ hnext _ _ _ =>
    simp only [WorkRow.withClaim] at hqueued
    revert hnext hqueued
    cases ‹WorkItemState› <;> simp [WorkItemState.isQueued, isActive]
  | renew _ active _ =>
    exact hleft hqueued
  | direct _ _ hstate _ _ _ =>
    simp only [WorkRow.withTerminal, ofReason] at hqueued
    revert hstate hqueued
    cases ‹WorkItemState› <;> simp [WorkItemState.isQueued, isDirect]
  | _ => cases hqueued

/-! ## One item -/

/-- A row agrees with the history of its attempts. -/
structure ItemInv (r : WorkRow) (attempts : Nat → Option WorkAttempt) : Prop where
  shape : r.Shape
  epoch_eq : r.leaseEpoch = r.attempt
  bound : r.attempt ≤ r.maxAttempts
  left : r.state.isQueued = true → r.attempt < r.maxAttempts
  numbered : ∀ n, (attempts n).isSome = true ↔ 1 ≤ n ∧ n ≤ r.attempt
  epochs : ∀ n a, attempts n = some a → a.leaseEpoch = n
  active_iff : ∀ n a, attempts n = some a →
    (a.outcome = .active ↔ r.state.isActive = true ∧ n = r.attempt)
  lease : r.state.isActive = true → ∀ a, attempts r.attempt = some a →
    some a.fencingToken = r.fencingToken ∧ some a.workerId = r.leasedBy
  planned_clock : r.state = .planned → parseTimestamp r.updatedAt = parseTimestamp r.createdAt

namespace ItemInv

variable {now : Int} {called ended failure : Prop} {r r' : WorkRow}
  {before after : Nat → Option WorkAttempt}

/-- A step that closes or touches the current attempt, or leaves the history
alone, keeps the row and the history in agreement. -/
theorem step_unclaimed (h : ItemInv r before) (hrow : RowStep now called ended failure r r')
    (hnot : r.state.isActive = true ∨ r'.state.isActive = false)
    (hdomain : ∀ n, (after n).isSome = (before n).isSome)
    (hlease : ∀ n a', after n = some a' → ∃ a, before n = some a ∧ a.SameLease a')
    (hactive : ∀ n a', after n = some a' →
      (a'.outcome = .active ↔ r'.state.isActive = true ∧ n = r.attempt)) : ItemInv r' after := by
  obtain ⟨hattempt, hepoch, htoken⟩ := hrow.unclaimed hnot
  have hmax : r'.maxAttempts = r.maxAttempts := congrArg WorkItemPlan.maxAttempts hrow.plan_eq
  refine ⟨hrow.shape h.shape, ?_, ?_, hrow.attempts_left h.left, ?_, ?_, ?_, ?_, ?_⟩
  · rw [hepoch, hattempt]
    exact h.epoch_eq
  · rw [hattempt, hmax]
    exact h.bound
  · intro n
    rw [hdomain, hattempt]
    exact h.numbered n
  · intro n a' ha'
    obtain ⟨a, ha, hsame⟩ := hlease n a' ha'
    rw [hsame.leaseEpoch]
    exact h.epochs n a ha
  · intro n a' ha'
    rw [hattempt]
    exact hactive n a' ha'
  · intro hr' a' ha'
    rw [hattempt] at ha'
    obtain ⟨a, ha, hsame⟩ := hlease r.attempt a' ha'
    have hr : r.state.isActive = true := by
      rcases hnot with hr | hr
      · exact hr
      · rw [hr'] at hr
        cases hr
    obtain ⟨htok, hwork⟩ := h.lease hr a ha
    rw [hsame.fencingToken, hsame.workerId, (htoken hr').1, (htoken hr').2]
    exact ⟨htok, hwork⟩
  · intro hplanned
    exact absurd hplanned hrow.state_ne_planned

theorem step_claimed (h : ItemInv r before) (hrow : RowStep now called ended failure r r')
    {a' : WorkAttempt} (hr : r.state.isActive = false) (hr' : r'.state.isActive = true)
    (hepoch : a'.leaseEpoch = r'.leaseEpoch) (htoken : some a'.fencingToken = r'.fencingToken)
    (hworker : some a'.workerId = r'.leasedBy) (houtcome : a'.outcome = .active) :
    ItemInv r' (update before r'.attempt (some a')) := by
  obtain ⟨hready, hattempt, hepoch'⟩ := hrow.claimed hr hr'
  have hleft := h.left (by rw [hready]; rfl)
  have hmax : r'.maxAttempts = r.maxAttempts := congrArg WorkItemPlan.maxAttempts hrow.plan_eq
  refine ⟨hrow.shape h.shape, ?_, ?_, hrow.attempts_left h.left, ?_, ?_, ?_, ?_, ?_⟩
  · rw [hepoch', hattempt, h.epoch_eq]
  · omega
  · intro n
    rw [update_apply]
    by_cases hn : n = r'.attempt
    · rw [if_pos hn]
      simp only [Option.isSome_some, true_iff]
      omega
    · rw [if_neg hn, h.numbered]
      omega
  · intro n a ha
    rw [update_apply] at ha
    by_cases hn : n = r'.attempt
    · rw [if_pos hn] at ha
      cases ha
      rw [hepoch, hepoch', h.epoch_eq, hn, hattempt]
    · rw [if_neg hn] at ha
      exact h.epochs n a ha
  · intro n a ha
    rw [update_apply] at ha
    by_cases hn : n = r'.attempt
    · rw [if_pos hn] at ha
      cases ha
      exact ⟨fun _ => ⟨hr', hn⟩, fun _ => houtcome⟩
    · rw [if_neg hn] at ha
      rw [h.active_iff n a ha, hr]
      exact ⟨fun hcon => Bool.noConfusion hcon.1, fun hcon => absurd hcon.2 hn⟩
  · intro _ a ha
    rw [Function.update_self] at ha
    cases ha
    exact ⟨htoken, hworker⟩
  · intro hplanned
    exact absurd hplanned hrow.state_ne_planned

/-- The open attempt of an active row is written, and stays open as long as the row is active. -/
theorem step_written (h : ItemInv r before) (hrow : RowStep now called ended failure r r')
    {a a' : WorkAttempt} (hr : r.state.isActive = true) (found : before r.attempt = some a)
    (lease : a.SameLease a') (outcome : a'.outcome = .active ↔ r'.state.isActive = true) :
    ItemInv r' (update before r.attempt (some a')) := by
  refine h.step_unclaimed hrow (.inl hr) ?_ ?_ ?_
  · intro n
    rw [update_apply]
    split
    · rename_i hn
      rw [hn, found]
      rfl
    · rfl
  · intro n b hb
    rw [update_apply] at hb
    split at hb
    · rename_i hn
      cases hb
      exact ⟨a, by rw [hn, found], lease⟩
    · exact ⟨b, hb, rfl, rfl, rfl⟩
  · intro n b hb
    rw [update_apply] at hb
    split at hb
    · rename_i hn
      cases hb
      rw [outcome, and_iff_left hn]
    · rename_i hn
      rw [h.active_iff n b hb]
      exact ⟨fun hcon => absurd hcon.2 hn, fun hcon => absurd hcon.2 hn⟩

theorem step (h : ItemInv r before) (hrow : RowStep now called ended failure r r')
    (hattempts : AttemptStep before after r r') : ItemInv r' after := by
  cases hattempts with
  | kept same hsame =>
    subst hsame
    refine h.step_unclaimed hrow ?_ (fun _ => rfl) (fun n a ha => ⟨a, ha, rfl, rfl, rfl⟩) ?_
    · cases hr : r.state.isActive
      · exact .inr (same.trans hr)
      · exact .inl rfl
    · intro n a ha
      rw [same]
      exact h.active_iff n a ha
  | @touched a a' active active' found lease outcome hafter =>
    subst hafter
    refine h.step_written hrow active found lease ?_
    rw [outcome, h.active_iff r.attempt a found, and_iff_left rfl, active, active']
  | @closed a a' active inactive' found lease outcome hafter =>
    subst hafter
    refine h.step_written hrow active found lease ?_
    rw [inactive', iff_false_intro outcome, iff_false_intro Bool.false_ne_true]
  | opened inactive active' epoch token worker outcome hafter =>
    subst hafter
    exact h.step_claimed hrow inactive active' epoch token worker outcome

theorem of_plan (plan : WorkItemPlan) : ItemInv plan.toRow fun _ => none := by
  refine ⟨?_, rfl, Nat.zero_le _, fun _ => plan.maxAttempts_pos, ?_, ?_, ?_, ?_, fun _ => rfl⟩
  · constructor <;> simp [WorkItemPlan.toRow, isActive, isTerminal]
  · have hzero : plan.toRow.attempt = 0 := rfl
    simp only [Option.isSome_none, Bool.false_eq_true, false_iff]
    omega
  · intro n a ha
    cases ha
  · intro n a ha
    cases ha
  · intro _ a ha
    cases ha

end ItemInv

/-! ## The ledger -/

/-- All upstream work of an item has ended, and its required upstream work has
ended well. -/
def WorkLedger.Supported (s : WorkLedger) (j : OpaqueUuid) : Prop :=
  s.UpstreamEnded j ∧ ¬ s.RequiredFailure j

/-- What holds between the three tables. -/
structure LedgerInv (s : WorkLedger) : Prop where
  items : ∀ j r, s.item? j = some r → ItemInv r (s.attemptsOf j)
  attempts_owned : ∀ j n, s.item? j = none → s.attemptsOf j n = none
  deps_closed : ∀ d ∈ s.deps.rows, (s.item? d.downstreamWorkItemId).isSome = true ∧
    (s.item? d.upstreamWorkItemId).isSome = true
  released : ∀ j r, s.item? j = some r → r.state.isReleased = true → s.Supported j
  keys_unique : ∀ i j r q, s.item? i = some r → s.item? j = some q →
    r.workLogicalKey = q.workLogicalKey → i = j

/-- A transition into a released state either is the release itself, or starts
from a released state. -/
theorem RowStep.released_cases {now : Int} {called ended failure : Prop} {r r' : WorkRow}
    (h : RowStep now called ended failure r r') (hr' : r'.state.isReleased = true) :
    (ended ∧ ¬ failure) ∨ r.state.isReleased = true := by
  have hactive : r.state.isActive = true → r.state.isReleased = true := by
    intro hactive
    revert hactive
    cases r.state <;> simp [isActive, isReleased]
  cases h with
  | release _ hended hsound => exact .inl ⟨hended, hsound⟩
  | recover due _ =>
    rw [WorkRow.leaseDue, Bool.and_eq_true] at due
    exact .inr (hactive due.1)
  | retry due =>
    rw [WorkRow.retryDue, Bool.and_eq_true, beq_iff_eq] at due
    exact .inr (by rw [due.1]; rfl)
  | claim _ ready _ _ _ _ => exact .inr (by rw [ready]; rfl)
  | start _ leased => exact .inr (by rw [leased]; rfl)
  | renew _ active _ | wait _ active _ _ => exact .inr (hactive active)
  | succeed _ running _ => exact .inr (by rw [running]; rfl)
  | direct _ _ hstate _ _ _ =>
    simp only [WorkRow.withTerminal, ofReason] at hr'
    revert hstate hr'
    cases ‹WorkItemState› <;> simp [isDirect, isReleased]
  | _ => cases hr'

namespace WorkLedger

variable {now : Int} {called : OpaqueUuid → Prop} {s s' : WorkLedger}

variable {j : OpaqueUuid}

section

variable (h : LedgerStep now called s s')
include h

theorem LedgerStep.terminal_frozen (hinv : LedgerInv s)
    {r : WorkRow} (hr : s.item? j = some r) (hterminal : r.state.isTerminal = true) :
    s'.item? j = some r := by
  rcases h.items j with hsame | ⟨q, q', hstep⟩
  · rw [hsame.1, hr]
  · have hq : q = r := Option.some.inj (hstep.before.symm.trans hr)
    subst hq
    rw [hstep.row.isTerminal_eq_false (hinv.items j q hr).shape] at hterminal
    cases hterminal

theorem LedgerStep.supported (hinv : LedgerInv s) (hs : s.Supported j) : s'.Supported j := by
  have hup : ∀ d ∈ s.deps.rows, d.downstreamWorkItemId = j →
      s'.item? d.upstreamWorkItemId = s.item? d.upstreamWorkItemId := by
    intro d hd hdown
    obtain ⟨u, hu⟩ := Option.isSome_iff_exists.mp (hinv.deps_closed d hd).2
    rw [hu]
    exact h.terminal_frozen hinv hu (upstreamEnded_def.mp hs.1 d hd hdown u hu)
  obtain ⟨hended, hfailure⟩ := upstream_congr (fun d _ => by rw [h.deps_eq]) hup
  exact ⟨hended.mpr hs.1, fun hfailed => hs.2 (hfailure.mp hfailed)⟩

theorem LedgerStep.inv (hinv : LedgerInv s) : LedgerInv s' := by
  refine ⟨?_, ?_, ?_, ?_, ?_⟩
  · intro j r' hr'
    rcases h.items j with hsame | ⟨q, q', hstep⟩
    · rw [hsame.2]
      exact hinv.items j r' (hsame.1 ▸ hr')
    · have hq : q' = r' := Option.some.inj (hstep.after.symm.trans hr')
      subst hq
      exact (hinv.items j q hstep.before).step hstep.row hstep.attempts
  · intro j n hnone
    rcases h.items j with hsame | ⟨q, q', hstep⟩
    · rw [hsame.2]
      exact hinv.attempts_owned j n (hsame.1 ▸ hnone)
    · rw [hstep.after] at hnone
      cases hnone
  · rw [h.deps_eq]
    intro d hd
    rw [h.item?_isSome, h.item?_isSome]
    exact hinv.deps_closed d hd
  · intro j r' hr' hreleased
    rcases h.row_before hr' with hsame | ⟨r, hstep⟩
    · exact h.supported hinv (hinv.released j r' hsame hreleased)
    · rcases hstep.row.released_cases hreleased with hnow | hbefore
      · exact h.supported hinv hnow
      · exact h.supported hinv (hinv.released j r hstep.before hbefore)
  · have hkey : ∀ j r', s'.item? j = some r' →
        ∃ r, s.item? j = some r ∧ r'.workLogicalKey = r.workLogicalKey := by
      intro j r' hr'
      rcases h.row_before hr' with hsame | ⟨r, hstep⟩
      · exact ⟨r', hsame, rfl⟩
      · exact ⟨r, hstep.before, congrArg WorkItemPlan.workLogicalKey hstep.row.plan_eq⟩
    intro i j r q hr hq hsame
    obtain ⟨r₀, hr₀, hkeyr⟩ := hkey i r hr
    obtain ⟨q₀, hq₀, hkeyq⟩ := hkey j q hq
    exact hinv.keys_unique i j r₀ q₀ hr₀ hq₀ (by rw [← hkeyr, ← hkeyq, hsame])

end

theorem Steps.inv (h : Steps now called s s') (hinv : LedgerInv s) : LedgerInv s' := by
  induction h with
  | refl => exact hinv
  | tail _ hlast ih => exact hlast.inv ih

/-! ## Insertions -/

namespace PlanInsert

variable {plan : WorkItemPlan} {dependencies : List WorkDependency}

variable (h : PlanInsert plan dependencies s s')
include h

theorem item?_of_ne (hj : j ≠ plan.workItemId) : s'.item? j = s.item? j := by
  rw [h.item?_eq, if_neg hj]

theorem item?_mono {r : WorkRow} (hr : s.item? j = some r) : s'.item? j = some r := by
  rw [h.item?_of_ne, hr]
  rintro rfl
  rw [h.fresh] at hr
  cases hr

theorem mem_deps_iff {d : WorkDependency}
    (hd : d.downstreamWorkItemId ≠ plan.workItemId) : d ∈ s'.deps.rows ↔ d ∈ s.deps.rows := by
  rw [h.deps_eq, mem_append]
  refine ⟨?_, .inl⟩
  rintro (hold | hnew)
  · exact hold
  · exact absurd (h.downstream d hnew) hd

theorem upstream_states (hinv : LedgerInv s) (hj : j ≠ plan.workItemId) :
    (s'.UpstreamEnded j ↔ s.UpstreamEnded j) ∧ (s'.RequiredFailure j ↔ s.RequiredFailure j) := by
  refine upstream_congr (fun d hd => h.mem_deps_iff (hd ▸ hj)) fun d hd _ => ?_
  obtain ⟨u, hu⟩ := Option.isSome_iff_exists.mp (hinv.deps_closed d hd).2
  rw [hu]
  exact h.item?_mono hu

theorem inv (hinv : LedgerInv s) : LedgerInv s' := by
  have hattempts := attemptsOf_congr h.attempts_eq
  have hsome : ∀ j, (s.item? j).isSome = true → (s'.item? j).isSome = true := by
    intro j hj
    obtain ⟨r, hr⟩ := Option.isSome_iff_exists.mp hj
    rw [h.item?_mono hr]
    rfl
  refine ⟨?_, ?_, ?_, ?_, ?_⟩
  · intro j r hr
    rw [hattempts]
    by_cases hj : j = plan.workItemId
    · subst hj
      rw [h.item?_eq, if_pos rfl] at hr
      cases hr
      have hnone : s.attemptsOf plan.workItemId = fun _ => none := by
        funext n
        exact hinv.attempts_owned _ n h.fresh
      rw [hnone]
      exact .of_plan plan
    · rw [h.item?_of_ne hj] at hr
      exact hinv.items j r hr
  · intro j n hnone
    rw [hattempts]
    apply hinv.attempts_owned
    by_contra hsomeOld
    have hnew := hsome j (Option.isSome_iff_ne_none.mpr hsomeOld)
    rw [hnone] at hnew
    cases hnew
  · intro d hd
    rw [h.deps_eq, mem_append] at hd
    rcases hd with hold | hnew
    · exact ⟨hsome _ (hinv.deps_closed d hold).1, hsome _ (hinv.deps_closed d hold).2⟩
    · refine ⟨?_, hsome _ (h.upstream d hnew)⟩
      rw [h.downstream d hnew, h.item?_eq, if_pos rfl]
      rfl
  · intro j r hr hreleased
    by_cases hj : j = plan.workItemId
    · subst hj
      rw [h.item?_eq, if_pos rfl] at hr
      cases hr
      cases hreleased
    · rw [h.item?_of_ne hj] at hr
      obtain ⟨hended, hsound⟩ := hinv.released j r hr hreleased
      obtain ⟨hiffEnded, hiffFailed⟩ := h.upstream_states hinv hj
      exact ⟨hiffEnded.mpr hended, fun hcon => hsound (hiffFailed.mp hcon)⟩
  · intro i j r q hr hq hsame
    rw [h.item?_eq] at hr hq
    split at hr
    · rename_i hi
      split at hq
      · rename_i hj
        rw [hi, hj]
      · cases hr
        exact absurd hsame.symm (h.freshKey j q hq)
    · split at hq
      · cases hq
        exact absurd hsame (h.freshKey i r hr)
      · exact hinv.keys_unique i j r q hr hq hsame

theorem stuck_cases (hinv : LedgerInv s) {k : OpaqueUuid}
    (hk : s'.Stuck k) : s.Stuck k ∨ k = plan.workItemId := by
  by_cases heq : k = plan.workItemId
  · exact .inr heq
  · left
    obtain ⟨r, hr, hplanned, hended⟩ := hk
    rw [h.item?_of_ne heq] at hr
    exact ⟨r, hr, hplanned, (h.upstream_states hinv heq).1.mp hended⟩

end PlanInsert

/-! ## Batches -/

/-- A batch is inserted member by member; replayed members insert nothing. -/
def Inserts (plans : List (WorkItemPlan × List WorkDependency)) : WorkLedger → WorkLedger → Prop :=
  ReflTransGen fun s s' => ∃ p ∈ plans, PlanInsert p.1 p.2 s s'

namespace Inserts

variable {plans : List (WorkItemPlan × List WorkDependency)}

variable (h : Inserts plans s s')
include h

theorem inv (hinv : LedgerInv s) : LedgerInv s' := by
  induction h with
  | refl => exact hinv
  | tail _ hlast ih =>
    obtain ⟨p, _, hinsert⟩ := hlast
    exact hinsert.inv ih

theorem item?_mono {r : WorkRow} (hr : s.item? j = some r) : s'.item? j = some r := by
  induction h with
  | refl => exact hr
  | tail _ hlast ih =>
    obtain ⟨p, _, hinsert⟩ := hlast
    exact hinsert.item?_mono ih

theorem row_cases {r : WorkRow} (hr : s'.item? j = some r) : s.item? j = some r ∨
      (s.item? j = none ∧ ∃ p ∈ plans, j = p.1.workItemId ∧ r = p.1.toRow) := by
  induction h with
  | refl => exact .inl hr
  | @tail s₁ s₂ hfirst hlast ih =>
    obtain ⟨p, hp, hinsert⟩ := hlast
    by_cases hj : j = p.1.workItemId
    · right
      have hfresh := hinsert.fresh
      rw [← hj] at hfresh
      rw [hinsert.item?_eq, if_pos hj] at hr
      refine ⟨?_, p, hp, hj, (Option.some.inj hr).symm⟩
      cases hold : s.item? j with
      | none => rfl
      | some q =>
        rw [item?_mono hfirst hold] at hfresh
        cases hfresh
    · rw [hinsert.item?_of_ne hj] at hr
      exact ih hr

theorem stuck_cases (hinv : LedgerInv s) {k : OpaqueUuid}
    (hk : s'.Stuck k) : s.Stuck k ∨ k ∈ plans.map fun p => p.1.workItemId := by
  induction h with
  | refl => exact .inl hk
  | @tail s₁ s₂ hfirst hlast ih =>
    obtain ⟨p, hp, hinsert⟩ := hlast
    rcases hinsert.stuck_cases (inv hfirst hinv) hk with hold | rfl
    · exact ih hold
    · exact .inr (mem_map_of_mem hp)

end Inserts

theorem planBatch_inserts {plans batch : List (WorkItemPlan × List WorkDependency)}
    (hsub : ∀ p ∈ batch, p ∈ plans)
    (hvalid : ∀ p ∈ batch, validatePlanDependencies p.1 p.2 = .ok ())
    (h : batch.foldlM (fun s p => (s.planInTransaction p.1 p.2 false).map Prod.snd) s = .ok s') :
    Inserts plans s s' := by
  induction batch generalizing s with
  | nil =>
    cases h
    exact .refl
  | cons p rest ih =>
    rw [foldlM_cons, bind_eq_ok] at h
    obtain ⟨s₁, hfirst, hrest⟩ := h
    have htail := ih (fun q hq => hsub q (mem_cons_of_mem _ hq))
      (fun q hq => hvalid q (mem_cons_of_mem _ hq)) hrest
    obtain ⟨item, hplan⟩ := map_snd_eq_ok.mp hfirst
    rcases planInTransaction_spec (hvalid p mem_cons_self) hplan with
      ⟨hsame, _⟩ | ⟨s₂, hinsert, hready, _⟩
    · exact hsame ▸ htail
    · cases hready
      exact ReflTransGen.head ⟨p, hsub p mem_cons_self, hinsert⟩ htail

theorem plan_cases {plan : WorkItemPlan} {dependencies : List WorkDependency} {item : WorkItem}
    (h : s.plan plan dependencies = .ok (item, s')) :
    s' = s ∨ ∃ s₁ n, PlanInsert plan dependencies s s₁ ∧
      s₁.refreshPlannedForWorkIds (parseTimestamp plan.createdAt) [plan.workItemId] =
        .ok (n, s') := by
  obtain ⟨_, hvalid, h⟩ := bind_eq_ok.mp h
  rcases planInTransaction_spec hvalid h with ⟨hsame, _⟩ | ⟨s₁, hinsert, hready, _⟩
  · exact .inl hsame
  · obtain ⟨n, hrefresh⟩ := map_snd_eq_ok.mp hready
    exact .inr ⟨s₁, n, hinsert, hrefresh⟩

theorem planMany_cases {first : WorkItemPlan × List WorkDependency}
    {rest : List (WorkItemPlan × List WorkDependency)} {items : List WorkItem}
    (h : s.planMany (first :: rest) = .ok (items, s')) :
    ∃ s₁ n, Inserts (first :: rest) s s₁ ∧
      s₁.refreshPlannedForWorkIds (latestCreation first.1 rest)
        ((first :: rest).map fun p => p.1.workItemId) = .ok (n, s') := by
  obtain ⟨_, hvalid, h⟩ := bind_eq_ok.mp h
  obtain ⟨s₁, hbatch, h⟩ := bind_eq_ok.mp h
  obtain ⟨out, hrefresh, h⟩ := bind_eq_ok.mp h
  obtain ⟨loaded, _, h⟩ := bind_eq_ok.mp h
  cases h
  exact ⟨s₁, out.1, planBatch_inserts (fun _ hp => hp) (forM_eq_ok_iff.mp hvalid) hbatch, hrefresh⟩

/-! ## Runs -/

/-- The ledger changes by steps and insertions only. -/
def Evolves : WorkLedger → WorkLedger → Prop :=
  ReflTransGen fun s s' => (∃ now called, LedgerStep now called s s') ∨
    ∃ plan dependencies, PlanInsert plan dependencies s s'

theorem Steps.evolves (h : Steps now called s s') : Evolves s s' := by
  have hle : LedgerStep now called ≤ fun s s' => (∃ now called, LedgerStep now called s s') ∨
      ∃ plan dependencies, PlanInsert plan dependencies s s' :=
    fun _ _ hstep => .inl ⟨now, called, hstep⟩
  exact ReflTransGen.mono hle _ _ h

theorem Evolves.inv (h : Evolves s s') (hinv : LedgerInv s) : LedgerInv s' := by
  induction h with
  | refl => exact hinv
  | tail _ hlast ih =>
    rcases hlast with ⟨_, _, hstep⟩ | ⟨_, _, hinsert⟩
    · exact hstep.inv ih
    · exact hinsert.inv ih

/-- What was planned stays as it was planned: no item disappears, and neither
its policy nor its upstream edges change. -/
structure Persists (s s' : WorkLedger) : Prop where
  rows : ∀ j r, s.item? j = some r →
    ∃ r', s'.item? j = some r' ∧ r'.toWorkItemPlan = r.toWorkItemPlan
  deps : ∀ j, (s.item? j).isSome = true → s'.dependencies j = s.dependencies j

theorem LedgerStep.persists (h : LedgerStep now called s s') : Persists s s' := by
  refine ⟨?_, ?_⟩
  · intro j r hr
    rcases h.items j with hsame | ⟨q, q', hitem⟩
    · exact ⟨r, hsame.1.trans hr, rfl⟩
    · have hq : q = r := Option.some.inj (hitem.before.symm.trans hr)
      exact ⟨q', hitem.after, hq ▸ hitem.row.plan_eq⟩
  · intro j _
    unfold dependencies
    rw [h.deps_eq]

theorem PlanInsert.persists {plan : WorkItemPlan} {dependencies : List WorkDependency}
    (h : PlanInsert plan dependencies s s') : Persists s s' := by
  refine ⟨fun j r hr => ⟨r, h.item?_mono hr, rfl⟩, ?_⟩
  intro j hj
  have hnew : (dependencies.filter (·.downstreamWorkItemId = j)) = [] := by
    rw [filter_eq_nil_iff]
    intro d hd
    rw [h.downstream d hd, decide_eq_true_eq]
    rintro rfl
    rw [h.fresh] at hj
    cases hj
  unfold WorkLedger.dependencies
  rw [h.deps_eq, filter_append, hnew, append_nil]

theorem Evolves.persists (h : Evolves s s') : Persists s s' := by
  induction h with
  | refl => exact ⟨fun j r hr => ⟨r, hr, rfl⟩, fun _ _ => rfl⟩
  | @tail s₁ s₂ _ hlast ih =>
    have hnext : Persists s₁ s₂ := by
      rcases hlast with ⟨_, _, hstep⟩ | ⟨_, _, hinsert⟩
      · exact hstep.persists
      · exact hinsert.persists
    refine ⟨?_, ?_⟩
    · intro j r hr
      obtain ⟨r₁, hr₁, hplan₁⟩ := ih.rows j r hr
      obtain ⟨r₂, hr₂, hplan₂⟩ := hnext.rows j r₁ hr₁
      exact ⟨r₂, hr₂, hplan₂.trans hplan₁⟩
    · intro j hj
      obtain ⟨r, hr⟩ := Option.isSome_iff_exists.mp hj
      obtain ⟨r₁, hr₁, _⟩ := ih.rows j r hr
      rw [hnext.deps j (by rw [hr₁]; rfl), ih.deps j hj]

/-- The invariant of a run. -/
def Sound (s : WorkLedger) : Prop := LedgerInv s ∧ s.Settled

/-- What one transaction does to a sound ledger. -/
structure Moves (s s' : WorkLedger) : Prop where
  evolves : Evolves s s'
  settled : s'.Settled

theorem Moves.sound (h : Moves s s') (hs : s.Sound) : s'.Sound :=
  ⟨h.evolves.inv hs.1, h.settled⟩

theorem Moves.of_steps (h : Steps now called s s' ∧ s'.Settled) : Moves s s' :=
  ⟨Steps.evolves h.1, h.2⟩

theorem Moves.trans {s₁ : WorkLedger} (h₁ : Moves s s₁) (h₂ : Moves s₁ s') : Moves s s' :=
  ⟨ReflTransGen.trans h₁.evolves h₂.evolves, h₂.settled⟩

variable {n : Nat} {target : Option OpaqueUuid}

theorem expireHardDeadlines_moves (h : s.expireHardDeadlines now target = .ok (n, s'))
    (hs : s.Sound) : Moves s s' :=
  .of_steps ⟨expireHardDeadlines_steps h, expireHardDeadlines_settled h hs.2⟩

theorem recoverExpiredLeases_moves (h : s.recoverExpiredLeases now target = .ok (n, s'))
    (hs : s.Sound) : Moves s s' :=
  .of_steps ⟨recoverExpiredLeases_steps h, recoverExpiredLeases_settled h hs.2⟩

theorem maintain_moves {refreshAll : Bool} (h : s.maintain now refreshAll = .ok (n, s'))
    (hs : s.Sound) : Moves s s' :=
  .of_steps (maintain_steps hs.2 h)

/-- The two sweeps `_direct_terminal` and `_reconcile_exact_due_state` begin with. -/
theorem sweeps_moves {m : Nat} {s₁ : WorkLedger}
    (hexpire : s.expireHardDeadlines now target = .ok (n, s₁))
    (hrecover : s₁.recoverExpiredLeases now target = .ok (m, s')) (hs : s.Sound) : Moves s s' := by
  have hfirst := expireHardDeadlines_moves hexpire hs
  exact hfirst.trans (recoverExpiredLeases_moves hrecover (hfirst.sound hs))

theorem empty_sound : WorkLedger.empty.Sound := by
  refine ⟨⟨?_, ?_, ?_, ?_, ?_⟩, ?_⟩
  · intro j r hr
    cases hr
  · intro j n _
    rfl
  · intro d hd
    cases hd
  · intro j r hr
    cases hr
  · intro i j r q hr
    cases hr
  · rintro k ⟨r, hr, _⟩
    cases hr

end WorkLedger
end Robata.Queue
