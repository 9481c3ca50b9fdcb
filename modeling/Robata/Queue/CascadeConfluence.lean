import Robata.Queue.Readiness
import Robata.Queue.WorkEvolution

/-!
# The targeted cascade and the full scan

`_refresh_planned_for_work_ids` advances the items of a list and whatever its own failures bring up.
Which items it comes to, and what becomes of them, is settled by the set of the listed items alone:
neither their order nor repetitions matter, and if every free item is among those it comes to, the
full scan ends in the same states.
-/

namespace Robata.Queue

open Lib Relation List

namespace WorkLedger

variable {now : Int} {ids : Set OpaqueUuid} {s t u : WorkLedger}

/-! ## What a cascade settles -/

/-- The item can be read. -/
def Readable (s : WorkLedger) (i : OpaqueUuid) : Prop := ∃ item, s.loadItem i = .ok item

theorem readable_iff {i : OpaqueUuid} :
    s.Readable i ↔ ∃ r, s.item? i = some r ∧ r.Shape ∧ r.ClockOrdered := by
  constructor
  · rintro ⟨item, hload⟩
    exact ⟨item.row, loadItem_eq_ok_iff.mp hload, (item.row.validateStateShape_eq_ok_iff).mp item.valid⟩
  · rintro ⟨r, hr, hshape, hclock⟩
    obtain ⟨item, hload, _⟩ := loadItem_completes hr hshape hclock
    exact ⟨item, hload⟩

theorem advancePlannedItem_returns_iff {i : OpaqueUuid} :
    (∃ out, s.advancePlannedItem i now = .ok out) ↔ s.Readable i := by
  constructor
  · rintro ⟨out, hadvance⟩
    obtain ⟨item, hload, -⟩ := bind_eq_ok.mp hadvance
    exact ⟨item, hload⟩
  · intro hread
    obtain ⟨r, hr, hshape, hordered⟩ := readable_iff.mp hread
    exact advancePlannedItem_completes now hr hshape hordered

namespace Cascade

theorem item?_isSome (h : Cascade now s t) (k : OpaqueUuid) :
    (t.item? k).isSome = (s.item? k).isSome := by
  induction h with
  | refl => rfl
  | tail _ hlast ih =>
    obtain ⟨_, _, hstep⟩ := hlast
    rw [hstep.ledgerStep.item?_isSome, ih]

variable {r : WorkRow} {k : OpaqueUuid}

theorem planned_before (h : Cascade now s t) (hr : t.item? k = some r)
    (hplanned : r.state = .planned) : s.item? k = some r := by
  cases hs : s.item? k with
  | none =>
    have hsome := h.item?_isSome k
    rw [hr, hs] at hsome
    cases hsome
  | some q =>
    obtain ⟨r', hr', hcascaded⟩ := h.row hs
    rw [hr, Option.some.injEq] at hr'
    subst hr'
    cases hcascaded with
    | same => rfl
    | released _ | failed _ => cases hplanned

theorem frozen (h : Cascade now s t) (hr : s.item? k = some r)
    (hleft : r.state ≠ .planned) : t.item? k = some r := by
  obtain ⟨r', hr', hcascaded⟩ := h.row hr
  cases hcascaded with
  | same => exact hr'
  | released planned | failed planned => exact absurd planned hleft

theorem upstream_frozen (h : Cascade now s t) (hended : s.UpstreamEnded k) :
    t.UpstreamEnded k ∧ (t.RequiredFailure k ↔ s.RequiredFailure k) := by
  have hsame : ∀ d ∈ s.deps.rows, d.downstreamWorkItemId = k →
      t.item? d.upstreamWorkItemId = s.item? d.upstreamWorkItemId := by
    intro d hd hdown
    cases hs : s.item? d.upstreamWorkItemId with
    | none =>
      have hsome := h.item?_isSome d.upstreamWorkItemId
      rw [hs] at hsome
      simpa using hsome
    | some r =>
      apply h.frozen hs
      intro hplanned
      have hterminal := upstreamEnded_def.mp hended d hd hdown r hs
      rw [hplanned] at hterminal
      cases hterminal
  obtain ⟨hended', hfailure⟩ := upstream_congr (fun d _ => by rw [h.deps_eq]) hsame
  exact ⟨hended'.mpr hended, hfailure⟩

/-- What an item has become says what its upstream work has come to. -/
inductive Decided (now : Int) (t : WorkLedger) (k : OpaqueUuid) (r : WorkRow) : WorkRow → Prop
  | released (sound : ¬ t.RequiredFailure k) : Decided now t k r (r.withReady now)
  | failed (failure : t.RequiredFailure k) : Decided now t k r
      (r.withTerminal (.ofReason .failedPermanent requiredDependencyFailed none) now)

theorem decided (h : Cascade now s t) {r' : WorkRow} (hr : s.item? k = some r)
    (hplanned : r.state = .planned) (hr' : t.item? k = some r') (hleft : r'.state ≠ .planned) :
    t.UpstreamEnded k ∧ Decided now t k r r' := by
  induction h generalizing r' with
  | refl =>
    rw [hr, Option.some.injEq] at hr'
    exact absurd (hr' ▸ hplanned) hleft
  | @tail t₁ t₂ hbefore hlast ih =>
    obtain ⟨i, state, hstep⟩ := hlast
    have hnext : Cascade now t₁ t₂ := .single ⟨i, state, hstep⟩
    by_cases hk : k = i
    · -- the item that is advanced now was still as it had been
      subst hk
      obtain ⟨q, hq, hqplanned, hended⟩ := hstep.stuck
      have hsame : q = r := Option.some.inj ((planned_before hbefore hq hqplanned).symm.trans hr)
      subst hsame
      obtain ⟨hended', hfailure⟩ := hnext.upstream_frozen hended
      refine ⟨hended', ?_⟩
      cases hstep with
      | release change _ _ _ sound =>
        have hrow := Option.some.inj (change.before.symm.trans hq)
        subst hrow
        rw [change.after_self, Option.some.injEq] at hr'
        subst hr'
        exact .released fun hcon => sound (hfailure.mp hcon)
      | fail change _ _ _ failure =>
        have hrow := Option.some.inj (change.before.symm.trans hq)
        subst hrow
        rw [change.after_self, Option.some.injEq] at hr'
        subst hr'
        exact .failed (hfailure.mpr failure)
    · rw [hstep.item?_of_ne hk] at hr'
      obtain ⟨hended, hdecided⟩ := ih hr' hleft
      obtain ⟨hended', hfailure⟩ := hnext.upstream_frozen hended
      refine ⟨hended', ?_⟩
      cases hdecided with
      | released sound => exact .released fun hcon => sound (hfailure.mp hcon)
      | failed failure => exact .failed (hfailure.mpr failure)

end Cascade

/-! ## Cascades within a list -/

/-- The cascade has failed the item. -/
def FailedBy (s t : WorkLedger) (k : OpaqueUuid) : Prop :=
  ∃ r r', s.item? k = some r ∧ r.state = .planned ∧ t.item? k = some r' ∧
    r'.state = .failedPermanent

variable (ids s t) in
/-- The items that a cascade comes to: those of the list, and what depends on those it fails. -/
def Touched (k : OpaqueUuid) : Prop :=
  k ∈ ids ∨ ∃ d ∈ s.deps.rows, d.downstreamWorkItemId = k ∧ FailedBy s t d.upstreamWorkItemId

/-- A cascade that reads and advances only items it comes to. -/
inductive Guided (now : Int) (ids : Set OpaqueUuid) (s : WorkLedger) : WorkLedger → Prop
  | refl : Guided now ids s s
  | advance {t t' : WorkLedger} {i : OpaqueUuid} {state : WorkItemState}
      (before : Guided now ids s t) (step : Advance now t i (some state) t')
      (touched : Touched ids s t i) : Guided now ids s t'

theorem Guided.cascade (h : Guided now ids s t) : Cascade now s t := by
  induction h with
  | refl => exact .refl
  | advance _ step _ ih => exact ih.tail ⟨_, _, step⟩

theorem Guided.mono {ids' : Set OpaqueUuid} (hids : ids ⊆ ids') (h : Guided now ids s t) :
    Guided now ids' s t := by
  induction h with
  | refl => exact .refl
  | advance _ step touched ih => exact ih.advance step (touched.imp_left fun hk => hids hk)

variable {k : OpaqueUuid}

theorem FailedBy.later (h : FailedBy s t k) (hlater : Cascade now t u) : FailedBy s u k := by
  obtain ⟨r, r', hr, hplanned, hr', hfailed⟩ := h
  exact ⟨r, r', hr, hplanned, hlater.frozen hr' (by simp [hfailed]), hfailed⟩

theorem Touched.later (h : Touched ids s t k) (hlater : Cascade now t u) : Touched ids s u k := by
  rcases h with hlisted | ⟨d, hd, hdown, hfailed⟩
  · exact .inl hlisted
  · exact .inr ⟨d, hd, hdown, hfailed.later hlater⟩

/-- Whatever one cascade has done is done in every cascade that has come to its end. -/
theorem Guided.agrees (hu : Guided now ids s u) (ht : Guided now ids s t)
    (hdone : ∀ k, Touched ids s t k → ¬ t.Stuck k) {r : WorkRow} (hr : u.item? k = some r)
    (hleft : r.state ≠ .planned) : t.item? k = some r := by
  induction hu generalizing k r with
  | refl => exact ht.cascade.frozen hr hleft
  | @advance v v' i state before step touched ih =>
    by_cases hk : k = i
    case neg =>
      rw [step.item?_of_ne hk] at hr
      exact ih hr hleft
    subst hk
    have hv := before.cascade
    have hv' : Cascade now s v' := hv.tail ⟨k, state, step⟩
    obtain ⟨q, hq, hplanned, hended⟩ := step.stuck
    have hs := hv.planned_before hq hplanned
    -- the upstream work is the same in both
    have hupstream : ∀ d ∈ s.deps.rows, d.downstreamWorkItemId = k →
        t.item? d.upstreamWorkItemId = v.item? d.upstreamWorkItemId := by
      intro d hd hdown
      cases hx : v.item? d.upstreamWorkItemId with
      | none =>
        have hsome := ht.cascade.item?_isSome d.upstreamWorkItemId
        rw [← hv.item?_isSome, hx] at hsome
        simpa using hsome
      | some x =>
        apply ih hx
        intro hxplanned
        have hterminal := upstreamEnded_def.mp hended d (hv.deps_eq ▸ hd) hdown x hx
        rw [hxplanned] at hterminal
        cases hterminal
    have htouched : Touched ids s t k := by
      rcases touched with hlisted | ⟨d, hd, hdown, x, x', hx, hxplanned, hx', hfailed⟩
      · exact .inl hlisted
      · exact .inr ⟨d, hd, hdown, x, x', hx, hxplanned, ih hx' (by simp [hfailed]), hfailed⟩
    obtain ⟨hended', hfailure⟩ := upstream_congr
      (fun d _ => by rw [ht.cascade.deps_eq, hv.deps_eq])
      fun d hd => hupstream d (hv.deps_eq ▸ hd)
    obtain ⟨r', hr', -⟩ := ht.cascade.row hs
    by_cases hstill : r'.state = .planned
    · exact absurd ⟨r', hr', hstill, hended'.mpr hended⟩ (hdone k htouched)
    · obtain ⟨-, hdecided⟩ := ht.cascade.decided hs hplanned hr' hstill
      obtain ⟨-, hdecided'⟩ := hv'.decided hs hplanned hr hleft
      have hfailure' : v'.RequiredFailure k ↔ v.RequiredFailure k :=
        (Cascade.upstream_frozen (.single ⟨k, state, step⟩) hended).2
      rw [hr']
      cases hdecided with
      | released sound =>
        cases hdecided' with
        | released _ => rfl
        | failed failure => exact absurd (hfailure.mpr (hfailure'.mp failure)) sound
      | failed failure =>
        cases hdecided' with
        | released sound => exact absurd (hfailure'.mpr (hfailure.mp failure)) sound
        | failed _ => rfl

/-- Two cascades within one set that have come to their end have the same items. -/
theorem Guided.unique (ht : Guided now ids s t) (hu : Guided now ids s u)
    (htdone : ∀ k, Touched ids s t k → ¬ t.Stuck k) (hudone : ∀ k, Touched ids s u k → ¬ u.Stuck k)
    (k : OpaqueUuid) : t.item? k = u.item? k := by
  have hsome : (t.item? k).isSome = (u.item? k).isSome := by
    rw [ht.cascade.item?_isSome, hu.cascade.item?_isSome]
  cases hr : t.item? k with
  | none =>
    have hnone : u.item? k = none := by simpa [hr] using hsome.symm
    exact hnone.symm
  | some r =>
    by_cases hplanned : r.state = .planned
    · obtain ⟨q, hq⟩ : ∃ q, u.item? k = some q := by
        rw [hr] at hsome
        exact Option.isSome_iff_exists.mp hsome.symm
      by_cases hqplanned : q.state = .planned
      · rw [hq, ← hu.cascade.planned_before hq hqplanned, ht.cascade.planned_before hr hplanned]
      · rw [hq, ← hr]
        exact hu.agrees ht htdone hq hqplanned
    · exact (ht.agrees hu hudone hr hplanned).symm

/-! ## The loop of the targeted refresh -/

theorem readable_of_unchanged (hsame : t.item? k = s.item? k) : t.Readable k ↔ s.Readable k := by
  rw [readable_iff, readable_iff, hsame]

/-- The state of the loop: what it has come to waits in the queue or is held back for good, and what
waits has not been touched. -/
structure LoopInv (now : Int) (ids : Set OpaqueUuid) (s : WorkLedger) (pending : List OpaqueUuid)
    (t : WorkLedger) : Prop where
  guided : Guided now ids s t
  touched : ∀ k ∈ pending, Touched ids s t k
  nodup : pending.Nodup
  waiting : ∀ k ∈ pending, t.item? k = s.item? k
  visited : ∀ k, Touched ids s t k → k ∈ pending ∨ (¬ t.Stuck k ∧ s.Readable k)

variable {pending : List OpaqueUuid}

theorem LoopInv.start (hnodup : pending.Nodup) (hids : ∀ k, k ∈ ids ↔ k ∈ pending) :
    LoopInv now ids s pending s where
  guided := .refl
  touched := fun k hk => .inl ((hids k).mpr hk)
  nodup := hnodup
  waiting := fun _ _ => rfl
  visited := by
    intro k htouched
    rcases htouched with hlisted | ⟨d, -, -, r, r', hr, hplanned, hr', hfailed⟩
    · exact .inl ((hids k).mp hlisted)
    · have hsame : r = r' := Option.some.inj (hr.symm.trans hr')
      rw [← hsame, hplanned] at hfailed
      cases hfailed

section Loop

variable {i : OpaqueUuid} {rest : List OpaqueUuid} {t' : WorkLedger}

theorem LoopInv.idle (h : LoopInv now ids s (i :: rest) t) (hread : t.Readable i)
    (hheld : ¬ t.Stuck i) : LoopInv now ids s rest t where
  guided := h.guided
  touched := fun k hk => h.touched k (mem_cons_of_mem _ hk)
  nodup := (nodup_cons.mp h.nodup).2
  waiting := fun k hk => h.waiting k (mem_cons_of_mem _ hk)
  visited := by
    intro k htouched
    rcases h.visited k htouched with hpending | hvisited
    · rcases mem_cons.mp hpending with rfl | hrest
      · exact .inr ⟨hheld, (readable_of_unchanged (h.waiting k hpending)).mp hread⟩
      · exact .inl hrest
    · exact .inr hvisited

theorem LoopInv.advance (h : LoopInv now ids s (i :: rest) t) {state : WorkItemState}
    (hread : t.Readable i) (hstep : Advance now t i (some state) t') (hnodup : pending.Nodup)
    (hpending : ∀ k, k ∈ pending ↔ k ∈ rest ∨ (state.isTerminal = true ∧ k ∈ t'.downstreamIds i)) :
    LoopInv now ids s pending t' := by
  have hbefore := h.guided.cascade
  have hone : Cascade now t t' := .single ⟨i, state, hstep⟩
  have hhead : Touched ids s t i := h.touched i mem_cons_self
  have hafter : Guided now ids s t' := h.guided.advance hstep hhead
  have hwas : t.item? i = s.item? i := h.waiting i mem_cons_self
  obtain ⟨q, hq, hplanned, hended⟩ := hstep.stuck
  -- a failure of this step is one of the item that is advanced
  have hnew : ∀ j, FailedBy s t' j → FailedBy s t j ∨ (j = i ∧ state.isTerminal = true) := by
    rintro j ⟨r, r', hr, hrplanned, hr', hfailed⟩
    by_cases hj : j = i
    · right
      refine ⟨hj, ?_⟩
      subst hj
      cases hstep with
      | release change _ _ _ _ =>
        rw [change.after_self, Option.some.injEq] at hr'
        subst hr'
        cases hfailed
      | fail _ _ _ _ _ => rfl
    · left
      rw [hstep.item?_of_ne hj] at hr'
      exact ⟨r, r', hr, hrplanned, hr', hfailed⟩
  constructor
  case guided => exact hafter
  case nodup => exact hnodup
  case touched =>
    intro k hk
    rcases (hpending k).mp hk with hrest | ⟨hterminal, hdown⟩
    · exact (h.touched k (mem_cons_of_mem _ hrest)).later hone
    · obtain ⟨d, hd, hi, hdk⟩ := mem_downstreamIds.mp hdown
      refine .inr ⟨d, hafter.cascade.deps_eq ▸ hd, hdk, q, ?_⟩
      rw [hi, ← hwas]
      cases hstep with
      | release _ _ _ _ _ => cases hterminal
      | fail change _ _ _ _ =>
        exact ⟨_, hq, hplanned, change.after_self, rfl⟩
  case waiting =>
    intro k hk
    rcases (hpending k).mp hk with hrest | ⟨-, hdown⟩
    · have hne : k ≠ i := by
        rintro rfl
        exact (nodup_cons.mp h.nodup).1 hrest
      rw [hstep.item?_of_ne hne]
      exact h.waiting k (mem_cons_of_mem _ hrest)
    · -- an item that depends on this one has been held back by it until now
      obtain ⟨d, hd, hi, hdk⟩ := mem_downstreamIds.mp hdown
      have hd : d ∈ t.deps.rows := hone.deps_eq ▸ hd
      have hopen : ∀ {v : WorkLedger}, v.item? i = some q → v.deps = t.deps →
          ¬ v.UpstreamEnded k := by
        intro v hv hdeps hcon
        have hterminal := upstreamEnded_def.mp hcon d (hdeps ▸ hd) hdk q (hi ▸ hv)
        rw [hplanned] at hterminal
        cases hterminal
      have hne : k ≠ i := by
        rintro rfl
        exact hopen hq rfl hended
      rw [hstep.item?_of_ne hne]
      cases hr : s.item? k with
      | none =>
        have hsome := hbefore.item?_isSome k
        rw [hr] at hsome
        simpa using hsome
      | some r =>
        obtain ⟨r', hr', hcascaded⟩ := hbefore.row hr
        by_cases hrplanned : r.state = .planned
        · by_cases hstill : r'.state = .planned
          · rw [← hr]
            exact hr'.trans (hbefore.planned_before hr' hstill).symm
          · exact absurd (hbefore.decided hr hrplanned hr' hstill).1 (hopen hq rfl)
        · exact hbefore.frozen hr hrplanned
  case visited =>
    intro k htouched
    have hcases : Touched ids s t k ∨ (state.isTerminal = true ∧ k ∈ t'.downstreamIds i) := by
      rcases htouched with hlisted | ⟨d, hd, hdown, hfailed⟩
      · exact .inl (.inl hlisted)
      · rcases hnew _ hfailed with hold | ⟨hi, hterminal⟩
        · exact .inl (.inr ⟨d, hd, hdown, hold⟩)
        · exact .inr ⟨hterminal,
            mem_downstreamIds.mpr ⟨d, hafter.cascade.deps_eq.symm ▸ hd, hi, hdown⟩⟩
    rcases hcases with hold | hdown
    · rcases h.visited k hold with hmem | ⟨hheld, hreadable⟩
      · rcases mem_cons.mp hmem with rfl | hrest
        · right
          refine ⟨fun hstuck => (hstep.stuck_cases hstuck).1 rfl, ?_⟩
          exact (readable_of_unchanged hwas).mp hread
        · exact .inl ((hpending k).mpr (.inl hrest))
      · by_cases hstuck : t'.Stuck k
        · left
          rw [hpending]
          exact (hstep.stuck_cases hstuck).2.imp (fun hold => absurd hold hheld) id
        · exact .inr ⟨hstuck, hreadable⟩
    · exact .inl ((hpending k).mpr (.inr hdown))

end Loop

theorem nodup_enqueue {new : List OpaqueUuid} (h : pending.Nodup) :
    (enqueue pending new).Nodup := by
  unfold enqueue
  induction new generalizing pending with
  | nil => exact h
  | cons k rest ih =>
    rw [foldl_cons]
    apply ih
    by_cases hk : k ∈ pending
    · rw [if_pos hk]
      exact h
    · rw [if_neg hk, nodup_append]
      refine ⟨h, nodup_singleton k, ?_⟩
      intro a ha b hb hab
      rw [mem_singleton] at hb
      exact hk (hb ▸ hab ▸ ha)

theorem Advance.plannedCount_eq {i : OpaqueUuid} {state : WorkItemState}
    (h : Advance now s i (some state) t) : t.plannedCount + 1 = s.plannedCount := by
  obtain ⟨r, hr, hplanned, -⟩ := h.stuck
  have hid := workItemId_of_item? hr
  have hleft : ∀ q, t.item? i = some q → q.state ≠ .planned := by
    intro q hq hqplanned
    cases h with
    | release change _ _ _ _ | fail change _ _ _ _ =>
      rw [change.after_self, Option.some.injEq] at hq
      subst hq
      cases hqplanned
  symm
  refine KeyedTable.countP_eq_succ s.items t.items (decide_eq_true hplanned) ?_ ?_
  · intro hmem
    rw [mem_items_iff, hid] at hmem
    exact hleft r hmem hplanned
  · intro a ha
    have haplanned : a.state = .planned := of_decide_eq_true ha
    rw [mem_items_iff, mem_items_iff]
    by_cases hai : a.workItemId = i
    · rw [hai, hr, Option.some.injEq]
      constructor
      · intro hsame
        exact .inl hsame.symm
      · rintro (rfl | hafter)
        · rfl
        · exact absurd haplanned (hleft a hafter)
    · rw [h.item?_of_ne hai]
      constructor
      · exact .inr
      · rintro (rfl | hafter)
        · exact absurd hid hai
        · exact hafter

variable {n changed : Nat}

/-- Where the loop returns it has come to its end, and counts what it has advanced. -/
theorem refreshPending_ends (h : LoopInv now ids s pending t)
    (hrun : refreshPending now changed pending t = .ok (n, u)) :
    LoopInv now ids s [] u ∧ n + u.plannedCount = changed + t.plannedCount := by
  fun_induction refreshPending now changed pending t with
  | case1 changed t =>
    cases hrun
    exact ⟨h, rfl⟩
  | case2 => cases hrun
  | case3 changed t i rest t' hadvance ih =>
    have hread := advancePlannedItem_returns_iff.mp ⟨_, hadvance⟩
    have hspec := advancePlannedItem_spec hadvance
    cases hspec with
    | idle held => exact ih (h.idle hread held) hrun
  | case4 changed t i rest state t' hadvance hterminal ih =>
    have hread := advancePlannedItem_returns_iff.mp ⟨_, hadvance⟩
    have hstep := advancePlannedItem_spec hadvance
    have hnext : LoopInv now ids s (enqueue rest (t'.downstreamIds i)) t' := by
      apply h.advance hread hstep (nodup_enqueue (nodup_cons.mp h.nodup).2)
      intro k
      rw [mem_enqueue, hterminal]
      simp
    obtain ⟨hend, hcount⟩ := ih hnext hrun
    have hone := hstep.plannedCount_eq
    exact ⟨hend, by omega⟩
  | case5 changed t i rest state t' hadvance hopen ih =>
    have hread := advancePlannedItem_returns_iff.mp ⟨_, hadvance⟩
    have hstep := advancePlannedItem_spec hadvance
    have hnext : LoopInv now ids s rest t' := by
      apply h.advance hread hstep (nodup_cons.mp h.nodup).2
      simp [hopen]
    obtain ⟨hend, hcount⟩ := ih hnext hrun
    have hone := hstep.plannedCount_eq
    exact ⟨hend, by omega⟩

theorem refreshPending_raises {e : WorkError} (h : LoopInv now ids s pending t)
    (hrun : refreshPending now changed pending t = .error e) :
    ∃ v k, Guided now ids s v ∧ Touched ids s v k ∧ ¬ s.Readable k := by
  fun_induction refreshPending now changed pending t with
  | case1 => cases hrun
  | case2 changed t i rest error hadvance =>
    refine ⟨t, i, h.guided, h.touched i mem_cons_self, ?_⟩
    rw [← readable_of_unchanged (h.waiting i mem_cons_self)]
    intro hread
    obtain ⟨out, hout⟩ := advancePlannedItem_returns_iff.mpr hread
    rw [hadvance] at hout
    cases hout
  | case3 changed t i rest t' hadvance ih =>
    have hread := advancePlannedItem_returns_iff.mp ⟨_, hadvance⟩
    have hspec := advancePlannedItem_spec hadvance
    cases hspec with
    | idle held => exact ih (h.idle hread held) hrun
  | case4 changed t i rest state t' hadvance hterminal ih =>
    have hread := advancePlannedItem_returns_iff.mp ⟨_, hadvance⟩
    apply ih ?_ hrun
    apply h.advance hread (advancePlannedItem_spec hadvance)
      (nodup_enqueue (nodup_cons.mp h.nodup).2)
    intro k
    rw [mem_enqueue, hterminal]
    simp
  | case5 changed t i rest state t' hadvance hopen ih =>
    have hread := advancePlannedItem_returns_iff.mp ⟨_, hadvance⟩
    apply ih ?_ hrun
    apply h.advance hread (advancePlannedItem_spec hadvance) (nodup_cons.mp h.nodup).2
    simp [hopen]

theorem nodup_eraseDups (list : List OpaqueUuid) : list.eraseDups.Nodup := by
  induction hn : list.length using Nat.strong_induction_on generalizing list with
  | _ n ih =>
    cases list with
    | nil => simp
    | cons k rest =>
      rw [eraseDups_cons, nodup_cons]
      constructor
      · simp
      · have hle := length_filter_le (fun j => !j == k) rest
        rw [length_cons] at hn
        exact ih _ (by omega) _ rfl

theorem loopInv_start (s : WorkLedger) (now : Int) (list : List OpaqueUuid) :
    LoopInv now {k | k ∈ list} s list.eraseDups s :=
  .start (nodup_eraseDups list) fun k => by simp

/-! ## The full scan -/

variable {list : List OpaqueUuid}

theorem scan_guided {n' : Nat} (h : Guided now Set.univ s t)
    (hrun : list.foldlM (scanRow now) (n, t) = .ok (n', u)) :
    Guided now Set.univ s u ∧ n' + u.plannedCount = n + t.plannedCount ∧ n ≤ n' ∧
      (n' = n → u = t ∧ ∀ i ∈ list, ¬ t.Stuck i) := by
  induction list generalizing n t with
  | nil =>
    cases hrun
    exact ⟨h, rfl, le_refl _, fun _ => ⟨rfl, forall_mem_nil _⟩⟩
  | cons i rest ih =>
    rw [foldlM_cons, bind_eq_ok] at hrun
    obtain ⟨⟨n₁, t₁⟩, hround, hrun⟩ := hrun
    obtain ⟨⟨transition, t₂⟩, hadvance, hround⟩ := bind_eq_ok.mp hround
    cases hround
    have hspec := advancePlannedItem_spec hadvance
    cases transition with
    | none =>
      cases hspec with
      | idle held =>
        obtain ⟨hguided, hcount, hle, hsame⟩ := ih h hrun
        refine ⟨hguided, hcount, hle, ?_⟩
        intro hn
        obtain ⟨hu, hrest⟩ := hsame hn
        exact ⟨hu, forall_mem_cons.mpr ⟨held, hrest⟩⟩
    | some state =>
      obtain ⟨hguided, hcount, hle, -⟩ := ih (h.advance hspec (.inl trivial)) hrun
      have hone : t₂.plannedCount + 1 = t.plannedCount := hspec.plannedCount_eq
      have hcount : n' + u.plannedCount = n + 1 + t₂.plannedCount := hcount
      exact ⟨hguided, by omega, by omega, fun hn => by omega⟩

/-- Where the full scan returns, no item is free, and it counts what it has advanced. -/
theorem refreshPlanned_ends (h : Guided now Set.univ s t)
    (hrun : refreshPlanned now changed t = .ok (n, u)) :
    Guided now Set.univ s u ∧ u.Settled ∧ n + u.plannedCount = changed + t.plannedCount := by
  fun_induction refreshPlanned now changed t with
  | case1 => cases hrun
  | case2 changed t t' hscan =>
    cases hrun
    obtain ⟨hguided, hcount, -, hsame⟩ := scan_guided h hscan
    obtain ⟨rfl, hheld⟩ := hsame rfl
    refine ⟨hguided, ?_, rfl⟩
    rintro k ⟨r, hr, hplanned, hended⟩
    refine hheld k ?_ ⟨r, hr, hplanned, hended⟩
    simp only [plannedIds, mem_map, mem_insertionSort, mem_filter, beq_iff_eq]
    have hid := workItemId_of_item? hr
    exact ⟨r, ⟨mem_items_iff.mpr (hid.symm ▸ hr), hplanned⟩, hid⟩
  | case3 changed t passChanged t' hscan ih =>
    obtain ⟨hguided, hcount, -, -⟩ := scan_guided h hscan
    obtain ⟨hguided', hsettled, hcount'⟩ := ih hguided hrun
    exact ⟨hguided', hsettled, by omega⟩

theorem scan_returns (hnodup : list.Nodup) (hread : ∀ i ∈ list, t.Readable i) :
    ∃ out, list.foldlM (scanRow now) (n, t) = .ok out := by
  induction list generalizing n t with
  | nil => exact ⟨_, rfl⟩
  | cons i rest ih =>
    rw [nodup_cons] at hnodup
    obtain ⟨⟨transition, t'⟩, hadvance⟩ :=
      advancePlannedItem_returns_iff.mpr (hread i mem_cons_self)
    have hspec : Advance now t i transition t' := advancePlannedItem_spec hadvance
    have hrest : ∀ j ∈ rest, t'.Readable j := by
      intro j hj
      have hold := hread j (mem_cons_of_mem _ hj)
      cases transition with
      | none =>
        cases hspec
        exact hold
      | some state =>
        have hne : j ≠ i := by
          rintro rfl
          exact hnodup.1 hj
        exact (readable_of_unchanged (hspec.item?_of_ne hne)).mpr hold
    rw [foldlM_cons]
    unfold scanRow
    rw [hadvance]
    exact ih hnodup.2 hrest

theorem nodup_plannedIds (s : WorkLedger) : s.plannedIds.Nodup := by
  unfold plannedIds
  have hperm := perm_insertionSort (fun a b : WorkRow => a.createdOrder b)
    (s.items.rows.filter (·.state == .planned))
  rw [(hperm.map _).nodup_iff]
  exact s.items.nodup.sublist (List.filter_sublist.map _)

theorem refreshPlanned_returns
    (hread : ∀ k r, t.item? k = some r → r.state = .planned → t.Readable k) :
    ∃ out, refreshPlanned now changed t = .ok out := by
  fun_induction refreshPlanned now changed t with
  | case1 changed t e hscan =>
    obtain ⟨out, hout⟩ := scan_returns t.nodup_plannedIds (fun i hi => by
      simp only [plannedIds, mem_map, mem_insertionSort, mem_filter, beq_iff_eq] at hi
      obtain ⟨r, ⟨hr, hplanned⟩, rfl⟩ := hi
      exact hread _ r (mem_items_iff.mp hr) hplanned)
    rw [hscan] at hout
    cases hout
  | case2 changed t t' hscan => exact ⟨_, rfl⟩
  | case3 changed t passChanged t' hscan ih =>
    apply ih
    obtain ⟨hguided, -, -, -⟩ := scan_guided .refl hscan
    intro k r hr hplanned
    have hold := hguided.cascade.planned_before hr hplanned
    exact (readable_of_unchanged (hr.trans hold.symm)).mpr (hread k r hold hplanned)

/-! ## Order, repetitions and coverage -/

/-- Both calls raise, or both return with the same count and the same ledger. -/
def SameResult : Except WorkError (Nat × WorkLedger) → Except WorkError (Nat × WorkLedger) → Prop
  | .ok (n, t), .ok (m, u) => n = m ∧ (∀ k, t.item? k = u.item? k) ∧ t.attempts = u.attempts ∧
      t.deps = u.deps
  | .error _, .error _ => True
  | _, _ => False

/-- The items that are reached from those of the list through items that the cascade fails. -/
inductive Reached (list : List OpaqueUuid) (s t : WorkLedger) : OpaqueUuid → Prop
  | listed {k : OpaqueUuid} (h : k ∈ list) : Reached list s t k
  | downstream {d : WorkDependency} (h : Reached list s t d.upstreamWorkItemId)
      (failed : FailedBy s t d.upstreamWorkItemId) (hd : d ∈ s.deps.rows) :
      Reached list s t d.downstreamWorkItemId

theorem sameResult_of_same {list' : List OpaqueUuid} (h : ∀ k, k ∈ list ↔ k ∈ list') :
    SameResult (s.refreshPlannedForWorkIds now list) (s.refreshPlannedForWorkIds now list') := by
  have hset : {k | k ∈ list} = {k | k ∈ list'} := Set.ext h
  have hstart := loopInv_start s now list
  have hstart' := loopInv_start s now list'
  rw [← hset] at hstart'
  -- a list with which the loop raises is not one with which it returns
  have hboth : ∀ {pending pending' : List OpaqueUuid} {n : Nat} {t : WorkLedger} {e : WorkError},
      LoopInv now {k | k ∈ list} s pending s → LoopInv now {k | k ∈ list} s pending' s →
      refreshPending now 0 pending s = .ok (n, t) →
      refreshPending now 0 pending' s = .error e → False := by
    intro pending pending' n t e hloop hloop' hok herror
    obtain ⟨hend, -⟩ := refreshPending_ends hloop hok
    obtain ⟨v, k, hv, htouched, hunreadable⟩ := refreshPending_raises hloop' herror
    have hdone : ∀ k, Touched {k | k ∈ list} s t k → ¬ t.Stuck k ∧ s.Readable k := fun k hk =>
      (hend.visited k hk).resolve_left not_mem_nil
    refine hunreadable (hdone k ?_).2
    rcases htouched with hlisted | ⟨d, hd, hdown, r, r', hr, hplanned, hr', hfailed⟩
    · exact .inl hlisted
    · have hsame := hv.agrees hend.guided (fun j hj => (hdone j hj).1) hr' (by simp [hfailed])
      exact .inr ⟨d, hd, hdown, r, r', hr, hplanned, hsame, hfailed⟩
  unfold refreshPlannedForWorkIds
  cases hrun : refreshPending now 0 list.eraseDups s with
  | error e =>
    cases hrun' : refreshPending now 0 list'.eraseDups s with
    | error e' => trivial
    | ok out => exact hboth hstart' hstart hrun' hrun
  | ok out =>
    cases hrun' : refreshPending now 0 list'.eraseDups s with
    | error e' => exact hboth hstart hstart' hrun hrun'
    | ok out' =>
      obtain ⟨hend, hcount⟩ := refreshPending_ends hstart hrun
      obtain ⟨hend', hcount'⟩ := refreshPending_ends hstart' hrun'
      have hsame := hend.guided.unique hend'.guided
        (fun k hk => ((hend.visited k hk).resolve_left not_mem_nil).1)
        (fun k hk => ((hend'.visited k hk).resolve_left not_mem_nil).1)
      have hplanned : out.2.plannedCount = out'.2.plannedCount := by
        apply KeyedTable.countP_congr
        intro r
        rw [mem_items_iff, mem_items_iff, hsame]
      refine ⟨by omega, hsame, ?_, ?_⟩
      · rw [hend.guided.cascade.attempts_eq, hend'.guided.cascade.attempts_eq]
      · rw [hend.guided.cascade.deps_eq, hend'.guided.cascade.deps_eq]

theorem Touched.of_reached (h : Reached list s t k) : Touched {k | k ∈ list} s t k := by
  cases h with
  | listed hlisted => exact .inl hlisted
  | downstream _ failed hd => exact .inr ⟨_, hd, rfl, failed⟩

/-- Where every free item is reached, nothing is free at the end of the loop. -/
theorem LoopInv.settled (h : LoopInv now {k | k ∈ list} s [] t)
    (hfree : ∀ k, s.Stuck k → Reached list s t k) : t.Settled := by
  have hcascade := h.guided.cascade
  have hdone : ∀ k, Touched {k | k ∈ list} s t k → ¬ t.Stuck k := fun k hk =>
    ((h.visited k hk).resolve_left not_mem_nil).1
  rintro k ⟨r, hr, hplanned, hended⟩
  have hstuck : t.Stuck k := ⟨r, hr, hplanned, hended⟩
  have hs : s.item? k = some r := hcascade.planned_before hr hplanned
  by_cases hbefore : s.UpstreamEnded k
  · exact hdone k (.of_reached (hfree k ⟨r, hs, hplanned, hbefore⟩)) hstuck
  · -- some upstream item has ended in the cascade, which can only have failed it
    rw [upstreamEnded_def] at hbefore
    push Not at hbefore
    obtain ⟨d, hd, hdown, q, hq, hopen⟩ := hbefore
    obtain ⟨q', hq', hcascaded⟩ := hcascade.row hq
    have hterminal : q'.state.isTerminal = true :=
      upstreamEnded_def.mp hended d (hcascade.deps_eq.symm ▸ hd) hdown q' hq'
    cases hcascaded with
    | same => exact hopen hterminal
    | released _ => cases hterminal
    | failed planned =>
      exact hdone k (.inr ⟨d, hd, hdown, q, _, hq, planned, hq', rfl⟩) hstuck

/-- Both kinds of refresh, where they return, end in the same items if every free item is
reached. -/
theorem sameResult_of_reached {m : Nat}
    (htargeted : s.refreshPlannedForWorkIds now list = .ok (n, t))
    (hfree : ∀ k, s.Stuck k → Reached list s t k) (hfull : refreshPlanned now 0 s = .ok (m, u)) :
    SameResult (.ok (n, t)) (.ok (m, u)) := by
  obtain ⟨hend, hcount⟩ := refreshPending_ends (loopInv_start s now list) htargeted
  obtain ⟨hguided, hsettled, hcount'⟩ := refreshPlanned_ends .refl hfull
  have hsettled' := hend.settled hfree
  have hsame := (hend.guided.mono (Set.subset_univ _)).unique hguided
    (fun k _ => hsettled' k) (fun k _ => hsettled k)
  have hplanned : t.plannedCount = u.plannedCount := by
    apply KeyedTable.countP_congr
    intro r
    rw [mem_items_iff, mem_items_iff, hsame]
  refine ⟨by omega, hsame, ?_, ?_⟩
  · rw [hend.guided.cascade.attempts_eq, hguided.cascade.attempts_eq]
  · rw [hend.guided.cascade.deps_eq, hguided.cascade.deps_eq]

/-- The targeted refresh returns if its list and the edges name items, and every row can be read. -/
theorem refreshPlannedForWorkIds_returns (hlist : ∀ k ∈ list, (s.item? k).isSome = true)
    (hdeps : ∀ d ∈ s.deps.rows, (s.item? d.downstreamWorkItemId).isSome = true)
    (hread : ∀ k r, s.item? k = some r → r.Shape ∧ r.ClockOrdered) :
    ∃ out, s.refreshPlannedForWorkIds now list = .ok out := by
  cases hrun : s.refreshPlannedForWorkIds now list with
  | ok out => exact ⟨out, rfl⟩
  | error e =>
    obtain ⟨v, k, -, htouched, hunreadable⟩ :=
      refreshPending_raises (loopInv_start s now list) hrun
    have hsome : (s.item? k).isSome = true := by
      rcases htouched with hlisted | ⟨d, hd, hdown, -⟩
      · exact hlist k hlisted
      · exact hdown ▸ hdeps d hd
    obtain ⟨r, hr⟩ := Option.isSome_iff_exists.mp hsome
    exact absurd (readable_iff.mpr ⟨r, hr, hread k r hr⟩) hunreadable

/-- The targeted cascade does what the full scan does: both return, the order of the list and its
repetitions do not matter, and where every item that is free to advance is in the list or comes up
through failures of the cascade itself, the two end in the same states. No graph is excluded. -/
theorem targeted_cascade_exact (s : WorkLedger) (now : Int) (list : List OpaqueUuid) :
    (∀ list', (∀ k, k ∈ list ↔ k ∈ list') →
      SameResult (s.refreshPlannedForWorkIds now list) (s.refreshPlannedForWorkIds now list')) ∧
    ((∀ k ∈ list, (s.item? k).isSome = true) →
      (∀ d ∈ s.deps.rows, (s.item? d.downstreamWorkItemId).isSome = true) →
      (∀ k r, s.item? k = some r → r.Shape ∧ r.ClockOrdered) →
      ∃ n t m u, s.refreshPlannedForWorkIds now list = .ok (n, t) ∧
        refreshPlanned now 0 s = .ok (m, u)) ∧
    (∀ n t, s.refreshPlannedForWorkIds now list = .ok (n, t) →
      (∀ k, s.Stuck k → Reached list s t k) →
      ∀ m u, refreshPlanned now 0 s = .ok (m, u) → SameResult (.ok (n, t)) (.ok (m, u))) := by
  refine ⟨fun list' => sameResult_of_same, ?_, ?_⟩
  · intro hlist hdeps hread
    have htargeted : ∃ out, s.refreshPlannedForWorkIds now list = .ok out :=
      refreshPlannedForWorkIds_returns hlist hdeps hread
    have hplanned : ∀ k r, s.item? k = some r → r.state = .planned → s.Readable k :=
      fun k r hr _ => readable_iff.mpr ⟨r, hr, hread k r hr⟩
    have hfull : ∃ out, refreshPlanned now 0 s = .ok out := refreshPlanned_returns hplanned
    obtain ⟨⟨n, t⟩, htargeted⟩ := htargeted
    obtain ⟨⟨m, u⟩, hfull⟩ := hfull
    exact ⟨n, t, m, u, htargeted, hfull⟩
  · intro n t htargeted hfree m u hfull
    exact sameResult_of_reached htargeted hfree hfull

/-- Two items of a sample run, the second one after the first, both still `PLANNED`. -/
def sampleRows : List WorkRow :=
  [(sampleUpstream 10 none).toRow, (sampleDownstream 10 none).toRow]

theorem sampleRows_nodup : (sampleRows.map (·.workItemId)).Nodup := by decide

theorem sampleEdges_nodup : ([sampleEdge].map (·.dependencyId)).Nodup := by decide

/-- The ledger of the sample run. -/
def samplePlanned : WorkLedger :=
  ⟨⟨sampleRows, sampleRows_nodup⟩, ⟨[sampleEdge], sampleEdges_nodup⟩, .empty⟩

theorem samplePlanned_item? {r : WorkRow} (h : samplePlanned.item? k = some r) :
    k ∈ [1, 2] ∧ r.Shape ∧ r.ClockOrdered := by
  have hmem : r ∈ sampleRows := mem_items_iff.mpr (workItemId_of_item? h ▸ h)
  have hid := workItemId_of_item? h
  rw [← hid]
  rcases mem_cons.mp hmem with rfl | hrest
  · exact ⟨by decide, (ItemInv.of_plan (sampleUpstream 10 none)).shape, le_refl _⟩
  · rw [mem_singleton.mp hrest]
    exact ⟨by decide, (ItemInv.of_plan (sampleDownstream 10 none)).shape, le_refl _⟩

theorem targeted_cascade_sample : ∃ n t m u,
    samplePlanned.refreshPlannedForWorkIds 20 [1, 2] = .ok (n, t) ∧
    refreshPlanned 20 0 samplePlanned = .ok (m, u) ∧ SameResult (.ok (n, t)) (.ok (m, u)) ∧
    SameResult (samplePlanned.refreshPlannedForWorkIds 20 [1, 2])
      (samplePlanned.refreshPlannedForWorkIds 20 [2, 1, 2]) := by
  obtain ⟨horder, hreturns, hscan⟩ := targeted_cascade_exact samplePlanned 20 [1, 2]
  obtain ⟨n, t, m, u, htargeted, hfull⟩ :=
    hreturns (by decide) (by decide) fun _ _ hr => (samplePlanned_item? hr).2
  refine ⟨n, t, m, u, htargeted, hfull, ?_, ?_⟩
  · refine hscan n t htargeted ?_ m u hfull
    rintro k ⟨r, hr, -⟩
    exact .listed (samplePlanned_item? hr).1
  · apply horder
    simp only [mem_cons, not_mem_nil, or_false]
    tauto

end WorkLedger
end Robata.Queue
