import Robata.Publication.WorkHistory

/-!
# Runs of the publication

Every transaction of the coordinators keeps the work item and the completion of the run together:
whatever the schedule, wherever processes stop and however far the clock jumps, the work has
succeeded only with the result of the completion that the repository holds.
-/

namespace Robata.Publication

open Lib Queue Queue.WorkLedger

variable {Facts : Type} (H : PublishHashing Facts) (command : PrimaryCompletionCommand)

/-- The two stores in every state of every run. -/
structure StoreInv (store : PublicationStore Facts) : Prop where
  work : WorkInv H command store.clock store.completion store.ledger
  ofCommand : ∀ c, store.completion = some c → c.toPrimaryCompletionCommand = command
  planned : store.completion.isSome = true → (store.ledger.item? (workId H command)).isSome = true

/-- The clock advances, and neither the completion nor the work item disappears. -/
structure Grows (store store' : PublicationStore Facts) : Prop where
  clock : store.clock ≤ store'.clock
  completion : ∀ c, store.completion = some c → store'.completion = some c
  item : (store.ledger.item? (workId H command)).isSome = true →
    (store'.ledger.item? (workId H command)).isSome = true

theorem Grows.refl (store : PublicationStore Facts) : Grows H command store store :=
  ⟨le_refl _, fun _ h => h, fun h => h⟩

/-- What the transactions keep. -/
def publicationDiscipline : Discipline (PublicationStore Facts) where
  Inv := StoreInv H command
  G := Grows H command
  refl := Grows.refl H command
  trans := by
    intro s t u h h'
    exact ⟨h.clock.trans h'.clock, fun c hc => h'.completion c (h.completion c hc),
      fun hitem => h'.item (h.item hitem)⟩

/-- Safety of a program of the coordinators. -/
abbrev SafeIn {α : Type} (Post : Except PublicationError α → PublicationStore Facts → Prop)
    (p : PublicationProg Facts α) (store : PublicationStore Facts) : Prop :=
  Safe PublicationCommand.run ClockForward (publicationDiscipline H command) Post p store

variable {H command} {store store' : PublicationStore Facts} {call : PublicationCall Facts}

theorem StoreInv.tick (h : StoreInv H command store) {reading : Int}
    (hforward : store.clock ≤ reading) :
    StoreInv H command { store with clock := reading } ∧
      Grows H command store { store with clock := reading } :=
  ⟨⟨h.work.later hforward fun _ hc => hc, h.ofCommand, h.planned⟩,
    ⟨hforward, fun _ hc => hc, fun hitem => hitem⟩⟩

theorem StoreInv.moved (h : StoreInv H command store) {op : SchedulerOp} {ledger : WorkLedger}
    (hrun : op.run store.ledger = .ok ledger)
    (hwork : WorkInv H command store.clock store.completion ledger) :
    StoreInv H command { store with ledger := ledger } ∧
      Grows H command store { store with ledger := ledger } := by
  have hitem : (store.ledger.item? (workId H command)).isSome = true →
      (ledger.item? (workId H command)).isSome = true := by
    intro hsome
    obtain ⟨r, hr⟩ := Option.isSome_iff_exists.mp hsome
    obtain ⟨r', hr', -⟩ := (run_evolves hrun).persists.rows _ r hr
    rw [hr']
    rfl
  exact ⟨⟨hwork, h.ofCommand, fun hcompletion => hitem (h.planned hcompletion)⟩,
    ⟨le_refl _, fun _ hc => hc, hitem⟩⟩

theorem StoreInv.committed (h : StoreInv H command store)
    (hplanned : (store.ledger.item? (workId H command)).isSome = true) (facts : Facts) :
    StoreInv H command { store with completion := some (store.completion.getD ⟨command, facts⟩) } ∧
      Grows H command store
        { store with completion := some (store.completion.getD ⟨command, facts⟩) } := by
  have hkept : ∀ c, store.completion = some c →
      some (store.completion.getD ⟨command, facts⟩) = some c := by
    intro c hc
    simp [hc]
  constructor
  · refine ⟨h.work.later (le_refl _) hkept, ?_, fun _ => hplanned⟩
    intro c hc
    cases hold : store.completion with
    | none => simp [hold] at hc; rw [← hc]
    | some old =>
      rw [hkept old hold, Option.some.injEq] at hc
      exact hc ▸ h.ofCommand old hold
  · exact ⟨le_refl _, hkept, fun hitem => hitem⟩

/-! ## The commands -/

section Commands

variable {α : Type} {Post : Except PublicationError α → PublicationStore Facts → Prop}
  (hraise : ∀ e s, Post (.error e) s)
include hraise

omit hraise in
theorem now_bind {reading : Int} {f : Int → PublicationProg Facts α}
    (hok : ∀ s, StoreInv H command s → Grows H command store s → s.clock = reading →
      SafeIn H command Post (f reading) s) :
    SafeIn H command Post (Prog.perform (PublicationCommand.now reading) >>= f) store := by
  intro s hinv hgrows hforward
  obtain ⟨hinv', hgrows'⟩ := StoreInv.tick hinv hforward
  exact ⟨hinv', hgrows', hok _ hinv' ((publicationDiscipline H command).trans hgrows hgrows') rfl⟩

section Ledger

variable {c : PublicationCommand Facts} {f : PublicationAnswer c → PublicationProg Facts α}
  {write : WorkLedger → Except WorkError (PublicationAnswer c × WorkLedger)} (op : SchedulerOp)
  (hrun : PublicationCommand.run c = .transact (inLedger write))
  (hop : ∀ s, (write s).map Prod.snd = op.run s)
  (hok : ∀ s a ledger, StoreInv H command s → Grows H command store s →
    write s.ledger = .ok (a, ledger) → WorkInv H command s.clock s.completion ledger ∧
      (StoreInv H command { s with ledger := ledger } →
        Grows H command store { s with ledger := ledger } →
        SafeIn H command Post (f a) { s with ledger := ledger }))
include hrun hop hok

theorem ledger_bind : SafeIn H command Post (Prog.perform c >>= f) store := by
  refine Safe.transact_bind (inLedger write) hrun ?_ (fun _ e _ _ _ _ s'' _ _ => hraise e s'')
  intro s a s'' hinv hgrows _ hwrite
  unfold inLedger at hwrite
  split at hwrite
  · rename_i b ledger hledger
    cases hwrite
    obtain ⟨hwork, hnext⟩ := hok s a ledger hinv hgrows hledger
    have hmoved : op.run s.ledger = .ok ledger := by
      rw [← hop, hledger]
      rfl
    obtain ⟨hinv', hgrows'⟩ := StoreInv.moved hinv hmoved hwork
    exact ⟨hinv', hgrows', hnext hinv' ((publicationDiscipline H command).trans hgrows hgrows')⟩
  · cases hwrite

theorem fenced_bind {i : OpaqueUuid} {now : Int} :
    SafeIn H command Post (fenced c i now >>= f) store := by
  -- whatever the sweep answers, the call raises
  have hsweep : ∀ (next : Except PublicationError Nat → PublicationProg Facts α) s,
      (∀ answer, ∃ e, next answer = .done (.error e)) → StoreInv H command s →
      SafeIn H command Post (.call (.reconcileExactDueState i now) next) s := by
    intro next s hnext hs s' hinv hgrows hadmits
    have hperform : SafeIn H command (fun _ _ => True)
        (Prog.perform (PublicationCommand.reconcileExactDueState i now) >>= pure) s := by
      refine ledger_bind (fun _ _ => trivial) (.reconcileExactDueState i now) rfl (fun _ => rfl) ?_
      intro s₁ n ledger hinv₁ _ hexact
      exact ⟨hinv₁.work.reconcileExact hexact, fun _ _ _ _ _ => trivial⟩
    obtain ⟨hinv', hgrows', -⟩ := hperform s' hinv hgrows hadmits
    obtain ⟨e, he⟩ := hnext (PublicationCommand.run (.reconcileExactDueState i now) s').1
    refine ⟨hinv', hgrows', ?_⟩
    rw [he]
    exact fun s'' _ _ => hraise e s''
  have hcommand : SafeIn H command Post (Prog.perform c >>= f) store :=
    ledger_bind hraise op hrun hop hok
  intro s hinv hgrows hadmits
  obtain ⟨hinv', hgrows', hnext⟩ := hcommand s hinv hgrows hadmits
  refine ⟨hinv', hgrows', ?_⟩
  cases hanswer : (PublicationCommand.run c s).1 with
  | ok a =>
    rw [hanswer] at hnext
    exact hnext
  | error e =>
    rw [hanswer] at hnext
    cases e with
    | work error =>
      cases error with
      | fence message =>
        refine hsweep _ _ ?_ hinv'
        rintro (e | n)
        · exact ⟨e, rfl⟩
        · exact ⟨_, rfl⟩
      | _ => exact hnext
    | _ => exact hnext

end Ledger

theorem get_bind {i : OpaqueUuid} {f : WorkItem → PublicationProg Facts α}
    (hok : ∀ s item, StoreInv H command s → Grows H command store s →
      s.ledger.loadItem i = .ok item → SafeIn H command Post (f item) s) :
    SafeIn H command Post (Prog.perform (PublicationCommand.get i) >>= f) store := by
  refine Safe.transact_bind _ rfl ?_ (fun _ e _ _ _ _ s'' _ _ => hraise e s'')
  intro s item s'' hinv hgrows _ hread
  unfold inLedger at hread
  cases hload : s.ledger.loadItem i with
  | error e =>
    simp only [hload] at hread
    cases hread
  | ok loaded =>
    simp only [hload] at hread
    cases hread
    exact ⟨hinv, Grows.refl H command _, hok _ _ hinv hgrows hload⟩

end Commands

/-! ## The methods -/

/-- Work that somebody holds was created before the last reading of the clock. -/
def Begun (command : PrimaryCompletionCommand) (store : PublicationStore Facts) : Prop :=
  createdAt command ≤ store.clock

theorem Begun.later (h : Begun command store) (hgrows : Grows H command store store') :
    Begun command store' := le_trans h hgrows.clock

theorem claimReady_safe : SafeIn H command (Returns fun _ s => Begun command s)
    (claimReady H call (actionPublishPlan H command)) store := by
  have hraise : ∀ e s, Returns (fun (_ : WorkLease) s => Begun command s)
      (.error e : Except PublicationError WorkLease) (s : PublicationStore Facts) :=
    fun _ _ => Returns.error
  refine now_bind ?_
  intro s₁ _ _ hclock
  refine ledger_bind hraise (.reconcile call.claimedAt) rfl (fun _ => rfl) ?_
  intro s₂ n ledger₂ hinv₂ hgrows₂ hmaintain
  refine ⟨hinv₂.work.maintain hmaintain, fun _ hgrows₂' => ?_⟩
  refine ledger_bind hraise (.claim (workerId H (actionPublishPlan H command))
    call.leaseDurationSeconds (some (workId H command)) call.claimedAt false call.fencingToken)
    rfl (fun _ => rfl) ?_
  intro s₃ out ledger₃ hinv₃ hgrows₃ hclaim
  have hnow : call.claimedAt ≤ s₃.clock := by
    rw [← hclock]
    exact hgrows₂'.clock.trans hgrows₃.clock
  obtain ⟨hwork, hleased⟩ := hinv₃.work.claim hclaim hnow
  refine ⟨hwork, fun hinv' _ => ?_⟩
  cases out with
  | none =>
    refine get_bind hraise ?_
    intro s₄ item _ _ _ s'' _ _
    exact Returns.error
  | some claim =>
    -- the claimed row is leased, and so it was created by now
    obtain ⟨r, hr, hstate⟩ := hleased rfl
    have hbegun : Begun command { s₃ with ledger := ledger₃ } :=
      (hwork.row r hr).begun (by rw [hstate]; rfl)
    show SafeIn H command _ (if claim.workItem.row.workItemId ≠ workId H command then _ else _) _
    split
    · exact fun _ _ _ => Returns.error
    · exact fun s' _ hgrows => Returns.ok (hbegun.later hgrows)

theorem renewLease_safe (starts : Prop) [Decidable starts] {lease : WorkLease}
    (hbegun : Begun command store) :
    SafeIn H command (fun _ _ => True) (renewLease call starts lease) store := by
  refine now_bind ?_
  intro s₁ _ hgrows hclock
  have hnow : createdAt command ≤ call.startedAt := by
    rw [← hclock]
    exact hbegun.later hgrows
  have hheartbeat : ∀ s, SafeIn H command (fun _ _ => True)
      (fenced (.heartbeat lease call.leaseDurationSeconds call.startedAt) lease.workItemId
        call.startedAt) s := by
    intro s
    rw [← Prog.bind_pure (fenced _ _ _)]
    refine fenced_bind (fun _ _ => trivial)
      (.heartbeat lease call.leaseDurationSeconds call.startedAt) rfl (fun _ => rfl) ?_
    intro s' renewed ledger hinv _ hrenewed
    exact ⟨hinv.work.heartbeat hrenewed hnow, fun _ _ _ _ _ => trivial⟩
  split
  · refine fenced_bind (fun _ _ => trivial) (.start lease call.startedAt) rfl (fun _ => rfl) ?_
    intro s' item ledger hinv _ hstarted
    exact ⟨hinv.work.start hstarted, fun _ _ => hheartbeat _⟩
  · exact hheartbeat _

variable {committed : CommittedPrimaryCompletion Facts}

theorem succeedWork_safe {lease : WorkLease} (hcompletion : store.completion = some committed) :
    SafeIn H command (fun _ _ => True) (succeedWork H call lease committed) store := by
  refine now_bind ?_
  intro s₁ _ hgrows _
  rw [← Prog.bind_pure (fenced _ _ _)]
  refine fenced_bind (fun _ _ => trivial) (.succeed lease (some (committedResultBinding H committed).1)
    (some (committedResultBinding H committed).2) call.succeededAt) rfl (fun _ => rfl) ?_
  intro s' item ledger hinv hgrows' hsucceeded
  have hcommitted := hgrows'.completion _ (hgrows.completion _ hcompletion)
  exact ⟨hinv.work.succeed hcommitted hsucceeded, fun _ _ _ _ _ => trivial⟩

variable {item : WorkItem}

/-- The lease that `reconcile` goes on with is on work that was created by now. -/
theorem reconcileLease_safe (hbegun : item.row.state.isActive = true → Begun command store) :
    SafeIn H command (Returns fun _ s => Begun command s)
      (reconcileLease H call (actionPublishPlan H command) item) store := by
  unfold reconcileLease
  by_cases hactive : item.row.state = .leased ∨ item.row.state = .running
  · have hbegun : Begun command store := by
      apply hbegun
      rcases hactive with hstate | hstate <;> simp [hstate, WorkItemState.isActive]
    rw [if_pos hactive]
    refine Safe.ofExcept_bind ?_ (fun _ _ _ _ _ => Returns.error)
    intro lease _
    split
    · exact fun _ _ _ => Returns.error
    · exact fun s' _ hgrows => Returns.ok (hbegun.later hgrows)
  · rw [if_neg hactive]
    split
    · exact claimReady_safe
    · exact fun _ _ _ => Returns.error

theorem reconcileItem_safe (hinv : StoreInv H command store)
    (hcompletion : store.completion = some committed)
    (hbegun : item.row.state.isActive = true → Begun command store) :
    SafeIn H command (fun _ _ => True) (reconcileItem H call committed item) store := by
  unfold reconcileItem
  dsimp only
  rw [hinv.ofCommand _ hcompletion]
  split
  · split <;> exact fun _ _ _ => trivial
  · refine Safe.returns_bind hinv (reconcileLease_safe hbegun) ?_ (fun _ _ _ _ => trivial)
    intro lease s₁ hinv₁ hgrows₁ hbegun₁
    refine Safe.bind hinv₁ ((renewLease_safe _ hbegun₁).mono ?_)
    intro result s₂ _ hgrows₂ _
    cases result with
    | error e => trivial
    | ok renewed =>
      exact succeedWork_safe (hgrows₂.completion _ (hgrows₁.completion _ hcompletion))

theorem reconcileWork_safe (hinv : StoreInv H command store)
    (hcompletion : store.completion = some committed) :
    SafeIn H command (fun _ _ => True) (reconcileWork H call committed) store := by
  have hcommand := hinv.ofCommand _ hcompletion
  unfold reconcileWork
  rw [hcommand]
  refine ledger_bind (fun _ _ => trivial) (.plan (actionPublishPlan H command) []) rfl
    (fun _ => rfl) ?_
  intro s₁ item₁ ledger₁ hinv₁ _ hplan
  refine ⟨hinv₁.work.plan hplan, fun _ hgrows₁ => ?_⟩
  refine now_bind ?_
  intro s₂ _ hgrows₂ _
  refine ledger_bind (fun _ _ => trivial) (.reconcile call.maintainedAt) rfl (fun _ => rfl) ?_
  intro s₃ n ledger₃ hinv₃ _ hmaintain
  refine ⟨hinv₃.work.maintain hmaintain, fun _ hgrows₃ => ?_⟩
  refine get_bind (fun _ _ => trivial) ?_
  intro s₄ item hinv₄ hgrows₄ hload
  apply reconcileItem_safe hinv₄
  · exact hgrows₄.completion _ (hgrows₃.completion _ (hgrows₂.completion _
      (hgrows₁.completion _ hcompletion)))
  · exact fun hactive => (hinv₄.work.row item.row (loadItem_eq_ok_iff.mp hload)).begun hactive

theorem plan_item {s ledger : WorkLedger}
    (h : s.plan (actionPublishPlan H command) [] = .ok (item, ledger)) :
    (ledger.item? (workId H command)).isSome = true := by
  have hplan := h
  obtain ⟨_, hvalid, hplan⟩ := bind_eq_ok.mp hplan
  rcases planInTransaction_spec hvalid hplan with ⟨rfl, hitem, -⟩ | ⟨_, -, -, hitem⟩ <;>
    simp [hitem]

theorem commitNew_safe : SafeIn H command (fun _ _ => True) (commitNew H call command) store := by
  refine ledger_bind (fun _ _ => trivial) (.plan (actionPublishPlan H command) []) rfl
    (fun _ => rfl) ?_
  intro s₁ item ledger₁ hinv₁ _ hplan
  refine ⟨hinv₁.work.plan hplan, fun hinv₁' _ => ?_⟩
  have hitem := plan_item hplan
  split
  · exact fun _ _ _ => trivial
  · refine Safe.returns_bind hinv₁' claimReady_safe ?_ (fun _ _ _ _ => trivial)
    intro lease s₂ hinv₂ hgrows₂ hbegun
    refine Safe.bind hinv₂ ((renewLease_safe True hbegun).mono ?_)
    intro result s₃ hinv₃ hgrows₃ _
    cases result with
    | error e => trivial
    | ok renewed =>
      -- the work item is still there when the repository commits
      intro s₄ hinv₄ hgrows₄ _
      have hplanned := hgrows₄.item (hgrows₃.item (hgrows₂.item hitem))
      obtain ⟨hinv₅, hgrows₅⟩ := StoreInv.committed hinv₄ hplanned call.facts
      have hsucceed : ∀ replayed, SafeIn H command (fun _ _ => True)
          (succeedWork H call renewed (s₄.completion.getD ⟨command, call.facts⟩) >>= fun _ =>
            (pure ⟨s₄.completion.getD ⟨command, call.facts⟩, replayed⟩ :
              PublicationProg Facts (PrimaryCompletionCommitResult Facts)))
          { s₄ with completion := some (s₄.completion.getD ⟨command, call.facts⟩) } := by
        intro replayed
        refine Safe.bind hinv₅ ((succeedWork_safe rfl).mono ?_)
        intro result s₆ _ _ _
        cases result <;> first | trivial | exact fun _ _ _ => trivial
      cases hout : call.outcome with
      | answers => exact ⟨hinv₅, hgrows₅, hsucceed _⟩
      | refuses => exact ⟨hinv₄, Grows.refl H command _, fun _ _ _ => trivial⟩
      | losesAnswer => exact ⟨hinv₅, hgrows₅, fun _ _ _ => trivial⟩

theorem commitChecked_safe :
    SafeIn H command (fun _ _ => True) (commitChecked H call command) store := by
  refine Safe.query_bind rfl ?_ (fun _ _ _ _ _ _ _ _ _ => trivial)
  intro s₁ existing hinv _ _ hread
  cases existing with
  | none => exact commitNew_safe
  | some existing =>
    have hcompletion : s₁.completion = some existing := Except.ok.inj hread
    show SafeIn H command _ (if existing.commandSha256 ≠ command.commandSha256 then _ else _) _
    split
    · exact fun _ _ _ => trivial
    · refine Safe.bind hinv ((reconcileWork_safe hinv hcompletion).mono ?_)
      intro result s₂ _ _ _
      cases result <;> first | trivial | exact fun _ _ _ => trivial

/-! ## Reachable stores -/

theorem storeInv_empty (clock : Int) :
    StoreInv H command (PublicationStore.empty clock : PublicationStore Facts) where
  work := ⟨empty_sound, rfl, fun _ _ hr => (by cases hr), fun _ hr => (by cases hr)⟩
  ofCommand := fun _ hc => by cases hc
  planned := fun hc => by cases hc

theorem storeInv_of_steps {clock : Int}
    {w : World (PublicationStore Facts) (PublicationOp Facts) (PublicationCommand Facts)
      PublicationAnswer PublicationError Unit}
    (h : Steps (coordinators H command) Calls ClockForward
      (World.initial (PublicationStore.empty clock)) w) : StoreInv H command w.db := by
  have hkeeps : Keeps (coordinators H command) ClockForward (publicationDiscipline H command)
      (fun _ _ _ _ => True) w := by
    refine (Steps.keeps ?_ (.initial (storeInv_empty clock)) h).1
    intro op store hinv hstarts
    cases op with
    | commit call =>
      have hcommit : SafeIn H command (fun _ _ => True) (commitChecked H call command) store :=
        commitChecked_safe
      refine Safe.bind hinv (hcommit.mono ?_)
      intro result s _ _ _
      cases result <;> first | trivial | exact fun _ _ _ => trivial
    | reconcile committed call =>
      refine Safe.bind hinv ((reconcileWork_safe hinv hstarts).mono ?_)
      intro result s _ _ _
      cases result <;> first | trivial | exact fun _ _ _ => trivial
  exact hkeeps.inv

end Robata.Publication
