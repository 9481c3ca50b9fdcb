import Robata.Queue.WorkEvolution

/-!
# Which items a set of endings takes with it

When some items end, the readiness cascade ends others: a `PLANNED` item fails
once all its upstream work has ended and some required part of it has failed.
`Ending` is the least set closed under this rule.  It is computed from the
ledger before anything happens, and `Ending.of_step` shows that no step of the
scheduler adds to it, as long as the items that end otherwise are among the
seeds.
-/

namespace Robata.Queue

open Lib Relation

namespace WorkLedger

/-- Item `j` has ended or will have ended, successfully or not, once the items
of `seed` have ended. -/
inductive Ending (s : WorkLedger) (seed : OpaqueUuid → Bool → Prop) : OpaqueUuid → Bool → Prop
  | ended {j : OpaqueUuid} {r : WorkRow} (row : s.item? j = some r)
      (terminal : r.state.isTerminal = true) : Ending s seed j r.state.isSuccessful
  | seeded {j : OpaqueUuid} {ok : Bool} (h : seed j ok) : Ending s seed j ok
  | cascade {j : OpaqueUuid} {r : WorkRow} (row : s.item? j = some r)
      (planned : r.state = .planned) (ok : OpaqueUuid → Bool)
      (upstream : ∀ d ∈ s.deps.rows, d.downstreamWorkItemId = j →
        Ending s seed d.upstreamWorkItemId (ok d.upstreamWorkItemId))
      {d : WorkDependency} (edge : d ∈ s.deps.rows) (downstream : d.downstreamWorkItemId = j)
      (required : d.criticality = .required)
      (failed : Ending s seed d.upstreamWorkItemId false) : Ending s seed j false

/-- Everything upstream of item `j` has ended or will have ended. -/
def Freed (s : WorkLedger) (seed : OpaqueUuid → Bool → Prop) (j : OpaqueUuid) : Prop :=
  ∃ ok : OpaqueUuid → Bool, ∀ d ∈ s.deps.rows, d.downstreamWorkItemId = j →
    s.Ending seed d.upstreamWorkItemId (ok d.upstreamWorkItemId)

/-- Every item a step ends, other than by the cascade, is a seed. -/
def Seeded (now : Int) (called : OpaqueUuid → Prop) (seed : OpaqueUuid → Bool → Prop)
    (s s' : WorkLedger) : Prop :=
  ∀ j r r', ItemStep now (called j) s s' j r r' → r'.state.isTerminal = true →
    (r.state = .planned ∧ s.UpstreamEnded j ∧ s.RequiredFailure j ∧
      r'.state.isSuccessful = false) ∨ seed j r'.state.isSuccessful

variable {now : Int} {called : OpaqueUuid → Prop} {seed : OpaqueUuid → Bool → Prop}
  {s s' : WorkLedger}

theorem freed_of_upstreamEnded (hinv : LedgerInv s) {j : OpaqueUuid} (h : s.UpstreamEnded j) :
    s.Freed seed j := by
  refine ⟨fun u => ((s.item? u).map (·.state.isSuccessful)).getD false, ?_⟩
  intro d hd hdown
  obtain ⟨u, hu⟩ := Option.isSome_iff_exists.mp (hinv.deps_closed d hd).2
  have hended : s.Ending seed d.upstreamWorkItemId u.state.isSuccessful :=
    .ended hu (upstreamEnded_def.mp h d hd hdown u hu)
  simpa only [hu, Option.map_some, Option.getD_some] using hended

theorem Ending.of_step (hstep : LedgerStep now called s s') (hinv : LedgerInv s)
    (hseeded : Seeded now called seed s s') {j : OpaqueUuid} {ok : Bool}
    (h : s'.Ending seed j ok) : s.Ending seed j ok := by
  induction h with
  | @ended j r' row terminal =>
    rcases hstep.row_before row with hsame | ⟨r, hitem⟩
    · exact .ended hsame terminal
    · rcases hseeded j r r' hitem terminal with ⟨planned, hended, hfailure, hflag⟩ | hseed
      · rw [hflag]
        obtain ⟨flags, hup⟩ : s.Freed seed j := freed_of_upstreamEnded hinv hended
        obtain ⟨d, hd, hdown, hrequired, u, hu, hfailed⟩ := requiredFailure_def.mp hfailure
        refine .cascade hitem.before planned flags hup hd hdown hrequired ?_
        have hlast : s.Ending seed d.upstreamWorkItemId u.state.isSuccessful :=
          .ended hu (upstreamEnded_def.mp hended d hd hdown u hu)
        rw [hfailed] at hlast
        exact hlast
      · exact .seeded hseed
  | seeded hseed => exact .seeded hseed
  | @cascade j r' row planned flags _ d edge downstream required _ ihup ihfailed =>
    have hrow : s.item? j = some r' := by
      rcases hstep.row_before row with hsame | ⟨_, hitem⟩
      · exact hsame
      · exact absurd planned hitem.row.state_ne_planned
    rw [hstep.deps_eq] at edge
    refine .cascade hrow planned flags ?_ edge downstream required ihfailed
    intro e he hdown
    exact ihup e (hstep.deps_eq ▸ he) hdown

theorem Freed.of_step (hstep : LedgerStep now called s s') (hinv : LedgerInv s)
    (hseeded : Seeded now called seed s s') {j : OpaqueUuid} (h : s'.Freed seed j) :
    s.Freed seed j := by
  obtain ⟨flags, hup⟩ := h
  refine ⟨flags, ?_⟩
  intro d hd hdown
  exact Ending.of_step hstep hinv hseeded (hup d (hstep.deps_eq ▸ hd) hdown)

/-! ## Sweeps at one instant -/

/-- The due items of a ledger, all of which end unsuccessfully. -/
def dueSeed (now : Int) (s : WorkLedger) (j : OpaqueUuid) (ok : Bool) : Prop :=
  ok = false ∧ ∃ r, s.item? j = some r ∧
    (r.hardDue now = true ∨ (r.leaseDue now = true ∧ ¬ r.attempt < r.maxAttempts))

variable (now seed s) in
def DueSeeded : Prop :=
  ∀ j, s.dueSeed now j false → seed j false

theorem hardDue_of_step {called ended failure : Prop} {r r' : WorkRow}
    (h : RowStep now called ended failure r r') (hdue : r'.hardDue now = true) :
    r.hardDue now = true := by
  rw [WorkRow.hardDue, Bool.and_eq_true] at hdue ⊢
  have hplan := h.plan_eq
  have hexpiry : r'.executionExpiryAt = r.executionExpiryAt :=
    congrArg WorkItemPlan.executionExpiryAt hplan
  rw [hexpiry] at hdue
  refine ⟨?_, hdue.2⟩
  cases h <;> first | exact hdue.1 | cases hdue.1

theorem leaseDue_of_step {called ended failure : Prop} {r r' : WorkRow}
    (h : RowStep now called ended failure r r') (hdue : r'.leaseDue now = true)
    (hspent : ¬ r'.attempt < r'.maxAttempts) :
    r.leaseDue now = true ∧ ¬ r.attempt < r.maxAttempts := by
  obtain ⟨hactive, hexpiry⟩ := isActive_of_leaseDue hdue
  have hlate : ∀ {e : Int}, now < e →
      ((some (formatTimestamp e)).any fun e => decide (parseTimestamp e ≤ now)) = false := by
    simp only [Option.any_some, parseTimestamp_formatTimestamp, decide_eq_false_iff_not]
    omega
  cases h with
  | claim _ _ _ _ _ later | renew _ _ later =>
    exact absurd (hlate later) (ne_false_of_eq_true hexpiry)
  | start _ leased =>
    refine ⟨?_, hspent⟩
    rw [WorkRow.leaseDue, leased]
    exact hexpiry
  | direct _ _ hstate _ _ _ =>
    simp only [WorkRow.withTerminal, TerminalFacts.ofReason] at hactive
    revert hstate hactive
    cases ‹WorkItemState› <;> simp [WorkItemState.isDirect, WorkItemState.isActive]
  | _ => cases hactive

theorem DueSeeded.step (h : DueSeeded now seed s) (hstep : LedgerStep now called s s') :
    DueSeeded now seed s' := by
  rintro j ⟨_, r', hr', hdue⟩
  apply h j
  rcases hstep.row_before hr' with hsame | ⟨r, hitem⟩
  · exact ⟨rfl, r', hsame, hdue⟩
  · refine ⟨rfl, r, hitem.before, ?_⟩
    rcases hdue with hhard | ⟨hlease, hspent⟩
    · exact .inl (hardDue_of_step hitem.row hhard)
    · exact .inr (leaseDue_of_step hitem.row hlease hspent)

theorem DueSeeded.seeded (h : DueSeeded now seed s) (s' : WorkLedger) :
    Seeded now nobody seed s s' := by
  intro j r r' hitem hterminal
  have hrow := hitem.row
  cases hrow with
  | failDependency planned hended hfailure => exact .inl ⟨planned, hended, hfailure, rfl⟩
  | expire due => exact .inr (h j ⟨rfl, r, hitem.before, .inl due⟩)
  | exhaust due spent => exact .inr (h j ⟨rfl, r, hitem.before, .inr ⟨due, spent⟩⟩)
  | claim hcalled | start hcalled | renew hcalled | succeed hcalled | fail hcalled | wait hcalled
  | direct hcalled => exact hcalled.elim
  | _ => cases hterminal

theorem ItemChange.seeded {i : OpaqueUuid} {q q' : WorkRow} (change : ItemChange s s' i q q')
    (hseed : q'.state.isTerminal = true → seed i q'.state.isSuccessful) :
    Seeded now called seed s s' := by
  intro j r r' hitem hterminal
  obtain ⟨rfl, _, rfl⟩ := change.itemStep_eq hitem
  exact .inr (hseed hterminal)

end WorkLedger
end Robata.Queue
