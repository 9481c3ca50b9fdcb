import Robata.Queue.WorkOperations

/-!
# What the scheduler can do to one work item

`RowStep` lists every transition of a single row, with its guard.  `ItemStep`
adds what happens to the attempts of the item, and `LedgerStep` says that each
item of a ledger makes such a step or none.  The lemmas at the end show that
every operation is a sequence of these steps, so that an invariant has to be
checked once for each transition and never again for each operation.
-/

namespace Robata.Queue

open Lib Relation

/-- The outcomes `cancel`, `skip` and `invalidate` write. -/
def WorkItemState.isDirect : WorkItemState → Bool
  | .cancelled | .skippedPolicy | .skippedNotNeeded | .invalidated => true
  | _ => false

/-- The transitions of one row at `now`.  `called` says that the item is the
one the operation was called for; `ended` and `failure` describe its upstream
work. -/
inductive RowStep (now : Int) (called ended failure : Prop) : WorkRow → WorkRow → Prop
  | release {r : WorkRow} (planned : r.state = .planned) (hended : ended) (hsound : ¬ failure) :
      RowStep now called ended failure r (r.withReady now)
  | failDependency {r : WorkRow} (planned : r.state = .planned) (hended : ended)
      (hfailure : failure) :
      RowStep now called ended failure r
        (r.withTerminal (.ofReason .failedPermanent requiredDependencyFailed none) now)
  | expire {r : WorkRow} (due : r.hardDue now = true) :
      RowStep now called ended failure r
        (r.withTerminal (.ofReason .expired executionExpired none) now)
  | recover {r : WorkRow} (due : r.leaseDue now = true) (left : r.attempt < r.maxAttempts) :
      RowStep now called ended failure r (r.withRecovered now)
  | exhaust {r : WorkRow} (due : r.leaseDue now = true) (spent : ¬ r.attempt < r.maxAttempts) :
      RowStep now called ended failure r
        (r.withTerminal (.ofReason .failedPermanent leaseAttemptsExhausted none) now)
  | retry {r : WorkRow} (due : r.retryDue now = true) :
      RowStep now called ended failure r (r.withRetryReady now)
  | claim {r : WorkRow} (hcalled : called) (ready : r.state = .ready) {next : WorkItemState}
      (hnext : next.isActive = true) (fencingToken workerId : NonEmptyString)
      {leaseExpiresAt : Int} (later : now < leaseExpiresAt) :
      RowStep now called ended failure r (r.withClaim next fencingToken workerId leaseExpiresAt now)
  | start {r : WorkRow} (hcalled : called) (leased : r.state = .leased) :
      RowStep now called ended failure r (r.withRunning now)
  | renew {r : WorkRow} (hcalled : called) (active : r.state.isActive = true)
      {leaseExpiresAt : Int} (later : now < leaseExpiresAt) :
      RowStep now called ended failure r (r.withRenewal leaseExpiresAt now)
  | succeed {r : WorkRow} (hcalled : called) (running : r.state = .running)
      {resultReference : Option NonEmptyString} {resultSha256 : Option Sha256Digest}
      (paired : resultReference.isSome = resultSha256.isSome) :
      RowStep now called ended failure r
        (r.withTerminal (WorkLedger.successFacts resultReference resultSha256) now)
  | fail {r : WorkRow} (hcalled : called) (active : r.state.isActive = true)
      (code : NonEmptyString) (detail : Option NonEmptyString) :
      RowStep now called ended failure r
        (r.withTerminal (.ofReason .failedPermanent code detail) now)
  | wait {r : WorkRow} (hcalled : called) (active : r.state.isActive = true)
      (left : r.attempt < r.maxAttempts) {retryAt : Int} (later : now ≤ retryAt) :
      RowStep now called ended failure r (r.withRetryWait retryAt now)
  | direct {r : WorkRow} (hcalled : called) (isOpen : r.state.isTerminal = false)
      {state : WorkItemState} (hstate : state.isDirect = true) (code : NonEmptyString)
      (detail : Option NonEmptyString) (cancelRequested : Bool) :
      RowStep now called ended failure r
        (r.withTerminal
          { TerminalFacts.ofReason state code detail with cancelRequested := cancelRequested } now)

/-- Two records of one attempt that differ in its progress only. -/
structure WorkAttempt.SameLease (a a' : WorkAttempt) : Prop where
  leaseEpoch : a'.leaseEpoch = a.leaseEpoch
  fencingToken : a'.fencingToken = a.fencingToken
  workerId : a'.workerId = a.workerId

/-- What a step of the row does to the attempts of its item. -/
inductive AttemptStep (before after : Nat → Option WorkAttempt) (r r' : WorkRow) : Prop
  | kept (same : r'.state.isActive = r.state.isActive) (h : after = before)
  | touched {a a' : WorkAttempt} (active : r.state.isActive = true)
      (active' : r'.state.isActive = true) (found : before r.attempt = some a)
      (lease : a.SameLease a') (outcome : a'.outcome = a.outcome)
      (h : after = Function.update before r.attempt (some a'))
  | closed {a a' : WorkAttempt} (active : r.state.isActive = true)
      (inactive' : r'.state.isActive = false) (found : before r.attempt = some a)
      (lease : a.SameLease a') (outcome : a'.outcome ≠ .active)
      (h : after = Function.update before r.attempt (some a'))
  | opened {a' : WorkAttempt} (inactive : r.state.isActive = false)
      (active' : r'.state.isActive = true) (epoch : a'.leaseEpoch = r'.leaseEpoch)
      (token : some a'.fencingToken = r'.fencingToken) (worker : some a'.workerId = r'.leasedBy)
      (outcome : a'.outcome = .active)
      (h : after = Function.update before r'.attempt (some a'))

namespace WorkLedger

/-- The attempts of one item by number. -/
def attemptsOf (s : WorkLedger) (workItemId : OpaqueUuid) (n : Nat) : Option WorkAttempt :=
  s.attempts.find? (workItemId, n)

theorem attemptsOf_congr {s s' : WorkLedger} (h : s'.attempts = s.attempts) (j : OpaqueUuid) :
    s'.attemptsOf j = s.attemptsOf j := by
  unfold attemptsOf
  rw [h]

/-- One item makes a transition. -/
structure ItemStep (now : Int) (called : Prop) (s s' : WorkLedger) (j : OpaqueUuid)
    (r r' : WorkRow) : Prop where
  before : s.item? j = some r
  after : s'.item? j = some r'
  row : RowStep now called (s.UpstreamEnded j) (s.RequiredFailure j) r r'
  attempts : AttemptStep (s.attemptsOf j) (s'.attemptsOf j) r r'

/-- Each item makes a transition or stays as it is; the graph stays. -/
structure LedgerStep (now : Int) (called : OpaqueUuid → Prop) (s s' : WorkLedger) : Prop where
  deps_eq : s'.deps = s.deps
  items : ∀ j, (s'.item? j = s.item? j ∧ s'.attemptsOf j = s.attemptsOf j) ∨
    ∃ r r', ItemStep now (called j) s s' j r r'

/-- Finitely many steps at one instant. -/
abbrev Steps (now : Int) (called : OpaqueUuid → Prop) : WorkLedger → WorkLedger → Prop :=
  ReflTransGen (LedgerStep now called)

/-- No item is called for: the steps of a maintenance sweep. -/
def nobody : OpaqueUuid → Prop := fun _ => False

/-! ## Facts about single steps -/

end WorkLedger

theorem open_of_hardDue {now : Int} {r : WorkRow} (hshape : r.Shape) (h : r.hardDue now = true) :
    r.state.isTerminal = false := by
  rw [WorkRow.hardDue, Bool.and_eq_true, Option.isNone_iff_eq_none] at h
  have hiff := hshape.completed_iff
  rw [h.1] at hiff
  simpa using hiff

namespace RowStep

variable {now : Int} {called ended failure : Prop} {r r' : WorkRow}

section

variable (h : RowStep now called ended failure r r')
include h

theorem state_ne_planned : r'.state ≠ .planned := by
  cases h with
  | claim _ _ hnext _ _ _ =>
    intro hplanned
    simp only [WorkRow.withClaim] at hplanned
    rw [hplanned] at hnext
    cases hnext
  | renew _ active _ =>
    intro hplanned
    rw [show r.state = .planned from hplanned] at active
    cases active
  | direct _ _ hstate _ _ _ =>
    intro hplanned
    simp only [WorkRow.withTerminal, TerminalFacts.ofReason] at hplanned
    rw [hplanned] at hstate
    cases hstate
  | _ => exact fun hplanned => WorkItemState.noConfusion hplanned

theorem plan_eq : r'.toWorkItemPlan = r.toWorkItemPlan := by
  cases h <;> rfl

theorem updatedAt_eq : r'.updatedAt = formatTimestamp now := by
  cases h <;> rfl

theorem rowVersion_eq : r'.rowVersion = r.rowVersion + 1 := by
  cases h <;> rfl

theorem isTerminal_eq_false (hshape : r.Shape) : r.state.isTerminal = false := by
  have hactive : ∀ (_ : r.state.isActive = true), r.state.isTerminal = false :=
    WorkItemState.not_isTerminal_of_isActive
  cases h with
  | release planned _ _ | failDependency planned _ _ => rw [planned]; rfl
  | expire due => exact open_of_hardDue hshape due
  | recover due _ | exhaust due _ =>
    rw [WorkRow.leaseDue, Bool.and_eq_true] at due
    exact hactive due.1
  | retry due =>
    rw [WorkRow.retryDue, Bool.and_eq_true, beq_iff_eq] at due
    rw [due.1]
    rfl
  | claim _ ready _ _ _ _ => rw [ready]; rfl
  | start _ leased => rw [leased]; rfl
  | renew _ active _ | fail _ active _ _ | wait _ active _ _ => exact hactive active
  | succeed _ running _ => rw [running]; rfl
  | direct _ isOpen _ _ _ _ => exact isOpen

end

theorem mono {called' : Prop} (hcalled : called → called')
    (h : RowStep now called ended failure r r') : RowStep now called' ended failure r r' := by
  cases h with
  | release planned hended hsound => exact .release planned hended hsound
  | failDependency planned hended hfailure => exact .failDependency planned hended hfailure
  | expire due => exact .expire due
  | recover due left => exact .recover due left
  | exhaust due spent => exact .exhaust due spent
  | retry due => exact .retry due
  | claim h ready hnext token worker later => exact .claim (hcalled h) ready hnext token worker later
  | start h leased => exact .start (hcalled h) leased
  | renew h active later => exact .renew (hcalled h) active later
  | succeed h running paired => exact .succeed (hcalled h) running paired
  | fail h active code detail => exact .fail (hcalled h) active code detail
  | wait h active left later => exact .wait (hcalled h) active left later
  | direct h isOpen hstate code detail flag =>
    exact .direct (hcalled h) isOpen hstate code detail flag

end RowStep

namespace WorkLedger

variable {now : Int} {called : OpaqueUuid → Prop} {s s' : WorkLedger}

variable {j : OpaqueUuid}

theorem ItemChange.ledgerStep {r r' : WorkRow} (change : ItemChange s s' j r r')
    (row : RowStep now (called j) (s.UpstreamEnded j) (s.RequiredFailure j) r r')
    (attempts : AttemptStep (s.attemptsOf j) (s'.attemptsOf j) r r')
    (others : ∀ i, i ≠ j → s'.attemptsOf i = s.attemptsOf i) : LedgerStep now called s s' := by
  refine ⟨change.deps_eq, ?_⟩
  intro i
  by_cases hi : i = j
  · subst hi
    refine .inr ⟨r, r', change.before, ?_, row, attempts⟩
    rw [change.after, if_pos rfl]
  · refine .inl ⟨?_, others i hi⟩
    rw [change.after, if_neg hi]

theorem ItemChange.ledgerStep_kept {r r' : WorkRow} (change : ItemChange s s' j r r')
    (row : RowStep now (called j) (s.UpstreamEnded j) (s.RequiredFailure j) r r')
    (same : r'.state.isActive = r.state.isActive) (hattempts : s'.attempts = s.attempts) :
    LedgerStep now called s s' :=
  change.ledgerStep row (.kept same (attemptsOf_congr hattempts j))
    fun i _ => attemptsOf_congr hattempts i

/-- A change of item `j` that comes with a statement on its attempt `n`. -/
theorem ItemChange.ledgerStep_written {r r' : WorkRow} {n : Nat} {o : Option WorkAttempt}
    (change : ItemChange s s' j r r')
    (row : RowStep now (called j) (s.UpstreamEnded j) (s.RequiredFailure j) r r')
    (h : ∀ k, s'.attempts.find? k = if k = (j, n) then o else s.attempts.find? k)
    (own : s'.attemptsOf j = Function.update (s.attemptsOf j) n o →
      AttemptStep (s.attemptsOf j) (s'.attemptsOf j) r r') : LedgerStep now called s s' := by
  refine change.ledgerStep row (own (funext fun m => (h (j, m)).trans ?_))
    fun i hi => funext fun m => (h (i, m)).trans (if_neg fun heq => hi (congrArg Prod.fst heq))
  simp [Function.update_apply, attemptsOf]

theorem item?_of_finishAttempt {item : WorkRow} {outcome : WorkAttemptOutcome}
    {code detail : Option NonEmptyString} (h : s.finishAttempt item outcome code detail now = .ok s')
    (j : OpaqueUuid) : s'.item? j = s.item? j := by
  obtain ⟨_, _, _, _, _, hitems, _, _⟩ := finishAttempt_spec h
  unfold item?
  rw [hitems]

theorem ItemChange.itemStep_eq {i : OpaqueUuid} {r r' q q' : WorkRow} {hcalled : Prop}
    (change : ItemChange s s' i r r') (hstep : ItemStep now hcalled s s' j q q') :
    j = i ∧ q = r ∧ q' = r' := by
  have hafter := hstep.after
  rw [change.after] at hafter
  by_cases hj : j = i
  · subst hj
    rw [if_pos rfl] at hafter
    exact ⟨rfl, Option.some.inj (hstep.before.symm.trans change.before),
      (Option.some.inj hafter).symm⟩
  · -- an unchanged row makes no step: every step counts up the row version
    rw [if_neg hj, hstep.before] at hafter
    have hversion := hstep.row.rowVersion_eq
    rw [Option.some.inj hafter] at hversion
    omega

theorem LedgerStep.mono {called' : OpaqueUuid → Prop} (hcalled : ∀ j, called j → called' j)
    (h : LedgerStep now called s s') : LedgerStep now called' s s' := by
  refine ⟨h.deps_eq, ?_⟩
  intro j
  rcases h.items j with hsame | ⟨r, r', hstep⟩
  · exact .inl hsame
  · exact .inr ⟨r, r', hstep.before, hstep.after, hstep.row.mono (hcalled j), hstep.attempts⟩

theorem Steps.mono {called' : OpaqueUuid → Prop} (hcalled : ∀ j, called j → called' j)
    (h : Steps now called s s') : Steps now called' s s' := by
  have hle : LedgerStep now called ≤ LedgerStep now called' := fun _ _ hstep => hstep.mono hcalled
  exact ReflTransGen.mono hle _ _ h

theorem Steps.deps_eq (h : Steps now called s s') : s'.deps = s.deps := by
  induction h with
  | refl => rfl
  | tail _ hlast ih => rw [hlast.deps_eq, ih]

theorem Steps.of_nobody (h : Steps now nobody s s') : Steps now called s s' :=
  h.mono fun _ hfalse => hfalse.elim

/-! ## The graph as seen by one item -/

variable {k : OpaqueUuid}

theorem mem_dependencyStates {v : DependencyCriticality × WorkItemState} :
    v ∈ s.dependencyStates k ↔ ∃ d ∈ s.deps.rows, d.downstreamWorkItemId = k ∧
      ∃ u, s.item? d.upstreamWorkItemId = some u ∧ (d.criticality, u.state) = v := by
  simp [dependencyStates, dependencies, and_assoc]

theorem upstreamEnded_def :
    s.UpstreamEnded k ↔ ∀ d ∈ s.deps.rows, d.downstreamWorkItemId = k →
      ∀ u, s.item? d.upstreamWorkItemId = some u → u.state.isTerminal = true := by
  constructor
  · intro h d hd hdown u hu
    exact h _ (mem_dependencyStates.mpr ⟨d, hd, hdown, u, hu, rfl⟩)
  · intro h v hv
    obtain ⟨d, hd, hdown, u, hu, rfl⟩ := mem_dependencyStates.mp hv
    exact h d hd hdown u hu

theorem requiredFailure_def :
    s.RequiredFailure k ↔ ∃ d ∈ s.deps.rows, d.downstreamWorkItemId = k ∧
      d.criticality = .required ∧
      ∃ u, s.item? d.upstreamWorkItemId = some u ∧ u.state.isSuccessful = false := by
  constructor
  · rintro ⟨v, hv, hrequired, hfailed⟩
    obtain ⟨d, hd, hdown, u, hu, rfl⟩ := mem_dependencyStates.mp hv
    exact ⟨d, hd, hdown, hrequired, u, hu, hfailed⟩
  · rintro ⟨d, hd, hdown, hrequired, u, hu, hfailed⟩
    exact ⟨(d.criticality, u.state), mem_dependencyStates.mpr ⟨d, hd, hdown, u, hu, rfl⟩,
      hrequired, hfailed⟩

/-- Ledgers in which the upstream work of an item is the same say the same of it. -/
theorem upstream_congr {s' : WorkLedger}
    (hmem : ∀ d : WorkDependency, d.downstreamWorkItemId = k →
      (d ∈ s'.deps.rows ↔ d ∈ s.deps.rows))
    (hup : ∀ d ∈ s.deps.rows, d.downstreamWorkItemId = k →
      s'.item? d.upstreamWorkItemId = s.item? d.upstreamWorkItemId) :
    (s'.UpstreamEnded k ↔ s.UpstreamEnded k) ∧ (s'.RequiredFailure k ↔ s.RequiredFailure k) := by
  rw [upstreamEnded_def, upstreamEnded_def, requiredFailure_def, requiredFailure_def]
  refine ⟨⟨?_, ?_⟩, ⟨?_, ?_⟩⟩
  · intro hended d hd hdown u hu
    exact hended d ((hmem d hdown).mpr hd) hdown u ((hup d hd hdown).trans hu)
  · intro hended d hd hdown u hu
    have hold := (hmem d hdown).mp hd
    exact hended d hold hdown u ((hup d hold hdown).symm.trans hu)
  · rintro ⟨d, hd, hdown, hrequired, u, hu, hfailed⟩
    have hold := (hmem d hdown).mp hd
    exact ⟨d, hold, hdown, hrequired, u, (hup d hold hdown).symm.trans hu, hfailed⟩
  · rintro ⟨d, hd, hdown, hrequired, u, hu, hfailed⟩
    exact ⟨d, (hmem d hdown).mpr hd, hdown, hrequired, u, (hup d hd hdown).trans hu, hfailed⟩

namespace LedgerStep

theorem item?_isSome (h : LedgerStep now called s s') (j : OpaqueUuid) :
    (s'.item? j).isSome = (s.item? j).isSome := by
  rcases h.items j with hsame | ⟨r, r', hstep⟩
  · rw [hsame.1]
  · rw [hstep.before, hstep.after]
    rfl

theorem row_before (h : LedgerStep now called s s') {r' : WorkRow} (hr' : s'.item? j = some r') :
    s.item? j = some r' ∨ ∃ r, ItemStep now (called j) s s' j r r' := by
  rcases h.items j with hsame | ⟨r, r'', hstep⟩
  · exact .inl (hsame.1 ▸ hr')
  · have hrow : r'' = r' := Option.some.inj (hstep.after.symm.trans hr')
    exact .inr ⟨r, hrow ▸ hstep⟩

/-- An item is held back no longer only because it was not held back before,
or because one of its upstream items has just ended. -/
theorem stuck_cases (h : LedgerStep now called s s') (hk : s'.Stuck k) :
    s.Stuck k ∨ ∃ d ∈ s.deps.rows, d.downstreamWorkItemId = k ∧
      ∃ r r', ItemStep now (called d.upstreamWorkItemId) s s' d.upstreamWorkItemId r r' ∧
        r'.state.isTerminal = true := by
  obtain ⟨r, hr, hplanned, hended⟩ := hk
  rw [upstreamEnded_def, h.deps_eq] at hended
  have hrow : s.item? k = some r := by
    rcases h.row_before hr with hsame | ⟨_, hstep⟩
    · exact hsame
    · exact absurd hplanned hstep.row.state_ne_planned
  by_cases hall : s.UpstreamEnded k
  · exact .inl ⟨r, hrow, hplanned, hall⟩
  · right
    rw [upstreamEnded_def] at hall
    push Not at hall
    obtain ⟨d, hd, hdown, u, hu, hopen⟩ := hall
    refine ⟨d, hd, hdown, ?_⟩
    rcases h.items d.upstreamWorkItemId with hsame | ⟨r₁, r₂, hstep⟩
    · exact absurd (hended d hd hdown u (hsame.1.trans hu)) hopen
    · exact ⟨r₁, r₂, hstep, hended d hd hdown r₂ hstep.after⟩

end LedgerStep

/-! ## Cascades -/

/-- A run of readiness transitions. -/
def Cascade (now : Int) : WorkLedger → WorkLedger → Prop :=
  ReflTransGen fun s s' => ∃ i state, Advance now s i (some state) s'

/-- What a cascade can have done to one row. -/
inductive Cascaded (now : Int) (r : WorkRow) : WorkRow → Prop
  | same : Cascaded now r r
  | released (planned : r.state = .planned) : Cascaded now r (r.withReady now)
  | failed (planned : r.state = .planned) :
      Cascaded now r (r.withTerminal (.ofReason .failedPermanent requiredDependencyFailed none) now)

theorem Cascaded.trans {r₁ r₂ r₃ : WorkRow} (h₁ : Cascaded now r₁ r₂) (h₂ : Cascaded now r₂ r₃) :
    Cascaded now r₁ r₃ := by
  cases h₁ with
  | same => exact h₂
  | released planned =>
    cases h₂ with
    | same => exact .released planned
    | released planned' | failed planned' => cases planned'
  | failed planned =>
    cases h₂ with
    | same => exact .failed planned
    | released planned' | failed planned' => cases planned'

namespace Advance

variable {i : OpaqueUuid} {state : WorkItemState}

section

variable (h : Advance now s i (some state) s')
include h

theorem attempts_eq' : s'.attempts = s.attempts := by
  cases h with
  | release _ attempts_eq _ _ _ | fail _ attempts_eq _ _ _ => exact attempts_eq

theorem item?_of_ne (hj : j ≠ i) : s'.item? j = s.item? j := by
  cases h with
  | release change _ _ _ _ | fail change _ _ _ _ => rw [change.after, if_neg hj]

theorem stuck : s.Stuck i := by
  cases h with
  | release change _ planned ended _ | fail change _ planned ended _ =>
    exact ⟨_, change.before, planned, ended⟩

theorem ledgerStep : LedgerStep now nobody s s' := by
  have hattempts := h.attempts_eq'
  cases h with
  | release change _ planned ended sound =>
    refine change.ledgerStep_kept (.release planned ended sound) ?_ hattempts
    rw [planned]
    rfl
  | fail change _ planned ended failure =>
    refine change.ledgerStep_kept (.failDependency planned ended failure) ?_ hattempts
    rw [planned]
    rfl

theorem row {r : WorkRow} (hr : s.item? j = some r) :
    ∃ r', s'.item? j = some r' ∧ Cascaded now r r' := by
  by_cases hj : j = i
  · subst hj
    cases h with
    | release change _ planned _ _ | fail change _ planned _ _ =>
      have hrow := Option.some.inj (change.before.symm.trans hr)
      subst hrow
      refine ⟨_, change.after_self, ?_⟩
      first | exact .released planned | exact .failed planned
  · exact ⟨r, by rw [h.item?_of_ne hj, hr], .same⟩

end

/-- After a transition of `i`, only `i` can have become free, and a failure can
also have freed its direct downstream work. -/
theorem stuck_cases (h : Advance now s i (some state) s') (hk : s'.Stuck k) :
    k ≠ i ∧ (s.Stuck k ∨ (state.isTerminal = true ∧ k ∈ s'.downstreamIds i)) := by
  have hne : k ≠ i := by
    rintro rfl
    obtain ⟨r, hr, hplanned, _⟩ := hk
    cases h with
    | release change _ _ _ _ | fail change _ _ _ _ =>
      rw [change.after, if_pos rfl] at hr
      cases hr
      cases hplanned
  refine ⟨hne, ?_⟩
  rcases h.ledgerStep.stuck_cases hk with hold | ⟨d, hd, hdown, r, r', hstep, hterminal⟩
  · exact .inl hold
  · right
    have hmem : d.upstreamWorkItemId = i → k ∈ s'.downstreamIds i := by
      intro hi
      exact mem_downstreamIds.mpr ⟨d, h.deps_eq ▸ hd, hi, hdown⟩
    cases h with
    | release change _ _ _ _ =>
      obtain ⟨_, _, rfl⟩ := change.itemStep_eq hstep
      cases hterminal
    | fail change _ _ _ _ => exact ⟨rfl, hmem (change.itemStep_eq hstep).1⟩

end Advance

namespace Cascade

variable (h : Cascade now s s')
include h

theorem steps : Steps now nobody s s' := by
  have hle : (fun s s' : WorkLedger => ∃ i state, Advance now s i (some state) s') ≤
      LedgerStep now nobody := by
    intro s₁ s₂ hadvance
    obtain ⟨_, _, hstep⟩ := hadvance
    exact hstep.ledgerStep
  exact ReflTransGen.mono hle _ _ h

theorem deps_eq : s'.deps = s.deps := Steps.deps_eq (steps h)

theorem attempts_eq : s'.attempts = s.attempts := by
  induction h with
  | refl => rfl
  | tail _ hlast ih =>
    obtain ⟨_, _, hstep⟩ := hlast
    rw [hstep.attempts_eq', ih]

/-- A cascade touches rows that were `PLANNED` when it began, each of them once. -/
theorem row {r : WorkRow} (hr : s.item? j = some r) :
    ∃ r', s'.item? j = some r' ∧ Cascaded now r r' := by
  induction h with
  | refl => exact ⟨r, hr, .same⟩
  | tail _ hlast ih =>
    obtain ⟨_, _, hstep⟩ := hlast
    obtain ⟨r₁, hr₁, hfirst⟩ := ih
    obtain ⟨r₂, hr₂, hsecond⟩ := hstep.row hr₁
    exact ⟨r₂, hr₂, hfirst.trans hsecond⟩

end Cascade

theorem refreshPending_cascade {changed changed' : Nat} {pending : List OpaqueUuid}
    (h : refreshPending now changed pending s = .ok (changed', s')) : Cascade now s s' := by
  fun_induction refreshPending now changed pending s with
  | case1 changed s =>
    cases h
    exact .refl
  | case2 => cases h
  | case3 changed s i rest s₁ hadvance ih =>
    have hspec := advancePlannedItem_spec hadvance
    cases hspec
    exact ih h
  | case4 changed s i rest state s₁ hadvance _ ih =>
    exact ReflTransGen.head ⟨i, state, advancePlannedItem_spec hadvance⟩ (ih h)
  | case5 changed s i rest state s₁ hadvance _ ih =>
    exact ReflTransGen.head ⟨i, state, advancePlannedItem_spec hadvance⟩ (ih h)

/-- The loop leaves nothing behind: if the queue covers every free item at the
start, no item is free at the end. -/
theorem refreshPending_settles {changed changed' : Nat} {pending : List OpaqueUuid}
    (h : refreshPending now changed pending s = .ok (changed', s'))
    (hcover : ∀ k, s.Stuck k → k ∈ pending) (k : OpaqueUuid) : ¬ s'.Stuck k := by
  fun_induction refreshPending now changed pending s with
  | case1 changed s =>
    cases h
    intro hk
    exact List.not_mem_nil (hcover k hk)
  | case2 => cases h
  | case3 changed s i rest s₁ hadvance ih =>
    have hspec := advancePlannedItem_spec hadvance
    cases hspec with
    | idle held =>
      apply ih h
      intro j hj
      rcases List.mem_cons.mp (hcover j hj) with rfl | hrest
      · exact absurd hj held
      · exact hrest
  | case4 changed s i rest state s₁ hadvance _ ih =>
    apply ih h
    intro j hj
    obtain ⟨hne, hcases⟩ := (advancePlannedItem_spec hadvance).stuck_cases hj
    rw [mem_enqueue]
    rcases hcases with hold | ⟨_, hdown⟩
    · exact .inl (List.mem_of_ne_of_mem hne (hcover j hold))
    · exact .inr hdown
  | case5 changed s i rest state s₁ hadvance hnot ih =>
    apply ih h
    intro j hj
    obtain ⟨hne, hcases⟩ := (advancePlannedItem_spec hadvance).stuck_cases hj
    rcases hcases with hold | ⟨hterminal, _⟩
    · exact List.mem_of_ne_of_mem hne (hcover j hold)
    · exact absurd hterminal hnot

variable {n : Nat}

theorem refreshPlannedForWorkIds_cascade {ids : List OpaqueUuid}
    (h : s.refreshPlannedForWorkIds now ids = .ok (n, s')) : Cascade now s s' :=
  refreshPending_cascade h

theorem refreshPlannedForWorkIds_settles {ids : List OpaqueUuid}
    (h : s.refreshPlannedForWorkIds now ids = .ok (n, s')) (hcover : ∀ k, s.Stuck k → k ∈ ids)
    (k : OpaqueUuid) : ¬ s'.Stuck k := by
  refine refreshPending_settles h ?_ k
  intro j hj
  rw [List.mem_eraseDups]
  exact hcover j hj

/-- No `PLANNED` item is free to move. -/
def Settled (s : WorkLedger) : Prop := ∀ k, ¬ s.Stuck k

theorem Cascade.eq_of_settled (h : Cascade now s s') (hs : s.Settled) : s' = s := by
  induction h with
  | refl => rfl
  | tail _ hlast ih =>
    obtain ⟨i, _, hstep⟩ := hlast
    subst ih
    exact absurd hstep.stuck (hs i)

theorem refreshDownstream_settles {i : OpaqueUuid}
    (h : s.refreshDownstreamForUpstreams now [i] = .ok (n, s'))
    (hcover : ∀ k, s.Stuck k → k ∈ s.downstreamIds i) : s'.Settled := by
  refine refreshPlannedForWorkIds_settles h ?_
  intro k hk
  simpa using hcover k hk

/-! ## Ending an item -/

/-- Closing the attempt of a leased item and writing its terminal row is one
step, provided the item the caller holds is the current one as far as its lease
goes. -/
theorem end_ledgerStep (called : OpaqueUuid → Prop) {item r : WorkRow}
    {outcome : WorkAttemptOutcome} {facts : TerminalFacts}
    {code detail : Option NonEmptyString} {s₁ : WorkLedger}
    (hcurrent : s.item? item.workItemId = some r)
    (hactive : r.state.isActive = item.state.isActive) (hattempt : r.attempt = item.attempt)
    (hclose : s.closeAttempt item outcome code detail now = .ok s₁)
    (hset : s₁.setTerminal item.workItemId facts now = .ok s') (houtcome : outcome ≠ .active)
    (hfacts : facts.state.isActive = false)
    (hrow : r.completedAt = none → RowStep now (called item.workItemId)
      (s.UpstreamEnded item.workItemId) (s.RequiredFailure item.workItemId) r
      (r.withTerminal facts now)) :
    ItemChange s s' item.workItemId r (r.withTerminal facts now) ∧ LedgerStep now called s s' ∧
      r.completedAt = none := by
  unfold closeAttempt at hclose
  obtain ⟨r₁, hchange₁, hopen, hattempts₁⟩ := setTerminal_spec hset
  have hitems : s₁.items = s.items ∧ s₁.deps = s.deps := by
    split at hclose
    · obtain ⟨_, _, _, _, _, hitems, hdeps, _⟩ := finishAttempt_spec hclose
      exact ⟨hitems, hdeps⟩
    · cases hclose
      exact ⟨rfl, rfl⟩
  have hitem? : ∀ j, s₁.item? j = s.item? j := by
    intro j
    unfold item?
    rw [hitems.1]
  have hr₁ : r₁ = r := by
    have hbefore := hchange₁.before
    rw [hitem?, hcurrent] at hbefore
    exact (Option.some.inj hbefore).symm
  subst hr₁
  have hchange : ItemChange s s' item.workItemId r₁ (r₁.withTerminal facts now) := by
    refine ⟨hcurrent, ?_, hchange₁.deps_eq.trans hitems.2⟩
    intro j
    rw [hchange₁.after, hitem?]
  refine ⟨hchange, ?_, hopen⟩
  -- the attempt is closed exactly when the row held a lease
  split at hclose
  · rename_i hlease
    obtain ⟨a, hfind, _, _, _, _, _, hafter⟩ := finishAttempt_spec hclose
    have hlast : a.SameLease (a.withOutcome outcome code detail now) := ⟨rfl, rfl, rfl⟩
    rw [← hattempt] at hfind hafter
    rw [← hattempts₁] at hafter
    exact hchange.ledgerStep_written (hrow hopen) hafter
      (.closed (hactive.trans hlease) hfacts hfind hlast houtcome)
  · rename_i hlease
    cases hclose
    refine hchange.ledgerStep_kept (hrow hopen) ?_ hattempts₁
    rw [Bool.not_eq_true] at hlease
    rw [hactive, hlease]
    exact hfacts

variable (now called s s') in
/-- One item ends and its direct downstream is refreshed: the unit every
terminal transition of the scheduler is made of. -/
def EndsItem (i : OpaqueUuid) (r r' : WorkRow) : Prop :=
  ∃ s₁ n, ItemChange s s₁ i r r' ∧ LedgerStep now called s s₁ ∧
    s₁.refreshDownstreamForUpstreams now [i] = .ok (n, s')

namespace EndsItem

variable {i : OpaqueUuid} {r r' : WorkRow}

variable (h : EndsItem now called s s' i r r')
include h

theorem steps : Steps now called s s' := by
  obtain ⟨s₁, n, _, hstep, hrefresh⟩ := h
  have hcascade := (refreshPlannedForWorkIds_cascade hrefresh).steps
  exact ReflTransGen.head hstep (Steps.of_nobody hcascade)

theorem settled (hs : s.Settled) : s'.Settled := by
  obtain ⟨s₁, n, hchange, hstep, hrefresh⟩ := h
  refine refreshDownstream_settles hrefresh ?_
  intro k hk
  rcases hstep.stuck_cases hk with hold | ⟨d, hd, hdown, q, q', hitem, _⟩
  · exact absurd hold (hs k)
  · have hi := (hchange.itemStep_eq hitem).1
    exact mem_downstreamIds.mpr ⟨d, hstep.deps_eq ▸ hd, hi, hdown⟩

theorem row_ne (hj : j ≠ i) {q : WorkRow}
    (hq : s.item? j = some q) : ∃ q', s'.item? j = some q' ∧ Cascaded now q q' := by
  obtain ⟨s₁, n, hchange, _, hrefresh⟩ := h
  refine (refreshPlannedForWorkIds_cascade hrefresh).row ?_
  rw [hchange.after, if_neg hj, hq]

theorem row_self (hr' : r'.state ≠ .planned) : s'.item? i = some r' := by
  obtain ⟨s₁, n, hchange, _, hrefresh⟩ := h
  have hrow : s₁.item? i = some r' := by
    rw [hchange.after, if_pos rfl]
  obtain ⟨q, hq, hcascaded⟩ := (refreshPlannedForWorkIds_cascade hrefresh).row hrow
  cases hcascaded with
  | same => exact hq
  | released planned | failed planned => exact absurd planned hr'

end EndsItem

end WorkLedger
end Robata.Queue
