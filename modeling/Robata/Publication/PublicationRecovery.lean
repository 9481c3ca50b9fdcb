import Robata.Publication.Reconciliation

/-!
# Recovery of a committed publication

In every reachable state of the two stores: work that has succeeded carries the result of the
completion, and a coordinator that runs alone brings a committed publication to its end exactly when
it meets the live lease of an earlier process.
-/

namespace Robata.Publication

open Lib Queue Queue.WorkLedger

variable {Facts : Type} {H : PublishHashing Facts} {command : PrimaryCompletionCommand}
  {store store' : PublicationStore Facts} {call : PublicationCall Facts}
  {c : CommittedPrimaryCompletion Facts}

variable (H command) in
/-- The call meets work that has succeeded, or a lease that outlives its readings of the clock. -/
def Resumes (call : PublicationCall Facts) (store : PublicationStore Facts) : Prop :=
  ∃ r, store.ledger.item? (workId H command) = some r ∧ (r.state = .succeeded ∨ LiveLease call r)

variable (H command) in
/-- The program returns normally, and the work has succeeded with the result of the completion. -/
def Publishes {α : Type} (p : PublicationProg Facts α) (c : CommittedPrimaryCompletion Facts)
    (store : PublicationStore Facts) : Prop :=
  ∃ a store', runAlone p store = (.ok a, store') ∧ SucceededWith H command c store'.ledger

theorem reconcileWork_publishes_iff (h : StoreInv H command store) (hc : store.completion = some c)
    (hforward : ForwardCall call store) :
    Publishes H command (reconcileWork H call c) c store ↔ Resumes H command call store := by
  constructor
  · rintro ⟨result, store', hrun, -⟩
    exact live_of_reconcileWork h hc hforward hrun
  · rintro ⟨r, hr, hlive⟩
    exact reconcileWork_completes h hc hforward hr hlive

theorem commitChecked_publishes_iff (h : StoreInv H command store)
    (hc : store.completion = some c) :
    Publishes H command (commitChecked H call command) c store ↔
      Publishes H command (reconcileWork H call c) c store := by
  have hsame : ¬c.commandSha256 ≠ command.commandSha256 := by
    rw [← h.ofCommand c hc]
    simp
  have hexisting : Prog.execute PublicationCommand.run
      (Prog.perform PublicationCommand.getCompletion) store = (.ok (some c), store) := by
    rw [← hc]
    rfl
  have hrest : ∀ (a : PrimaryCompletionCommitResult Facts) store',
      runAlone (commitChecked H call command) store = (.ok a, store') ↔
        ∃ item, runAlone (reconcileWork H call c) store = (.ok item, store') ∧ a = ⟨c, true⟩ := by
    intro a store'
    constructor
    · intro hrun
      obtain ⟨existing, s₁, hread, hrun⟩ := Prog.execute_bind_eq_ok.mp hrun
      rw [hexisting, Prod.mk.injEq, Except.ok.injEq] at hread
      obtain ⟨rfl, rfl⟩ := hread
      dsimp only at hrun
      rw [if_neg hsame] at hrun
      obtain ⟨item, s₂, hreconciled, hdone⟩ := Prog.execute_bind_eq_ok.mp hrun
      cases hdone
      exact ⟨item, hreconciled, rfl⟩
    · rintro ⟨item, hreconciled, rfl⟩
      refine Prog.execute_bind_eq_ok.mpr ⟨some c, store, hexisting, ?_⟩
      dsimp only
      rw [if_neg hsame]
      exact Prog.execute_bind_eq_ok.mpr ⟨item, store', hreconciled, rfl⟩
  constructor
  · rintro ⟨a, store', hrun, hdone⟩
    obtain ⟨item, hreconciled, -⟩ := (hrest a store').mp hrun
    exact ⟨item, store', hreconciled, hdone⟩
  · rintro ⟨item, store', hrun, hdone⟩
    exact ⟨⟨c, true⟩, store', (hrest _ store').mpr ⟨item, hrun, rfl⟩, hdone⟩

/-- In every run the work has succeeded only with the result of the completion that the repository
holds, and where it holds one, `reconcile` and `commit` of the same command that run alone return with
the work succeeded if and only if they meet work that has succeeded or a lease that outlives them. -/
theorem publication_reconciles_iff {clock : Int}
    {w : World (PublicationStore Facts) (PublicationOp Facts) (PublicationCommand Facts)
      PublicationAnswer PublicationError Unit}
    (h : Steps (coordinators H command) Calls ClockForward
      (World.initial (PublicationStore.empty clock)) w) :
    (∀ r, w.db.ledger.item? (workId H command) = some r → r.state = .succeeded →
      ∃ c, w.db.completion = some c ∧ c.runId = command.runId ∧
        r.resultReference.map (·.val) = some (committedResultBinding H c).1 ∧
        r.resultSha256 = some (committedResultBinding H c).2) ∧
    ∀ c, w.db.completion = some c → ∀ call, ForwardCall call w.db →
      (Publishes H command (reconcileWork H call c) c w.db ↔ Resumes H command call w.db) ∧
      (Publishes H command (commitChecked H call command) c w.db ↔
        Resumes H command call w.db) := by
  have hinv := storeInv_of_steps h
  constructor
  · intro r hr hsucceeded
    obtain ⟨c, hc, hreference, hsha256⟩ := (hinv.work.row r hr).result hsucceeded
    exact ⟨c, hc, by rw [hinv.ofCommand c hc], hreference, hsha256⟩
  · intro c hc call hforward
    have hreconcile := reconcileWork_publishes_iff hinv hc hforward
    exact ⟨hreconcile, (commitChecked_publishes_iff hinv hc).trans hreconcile⟩

/-! ## A process that stops after the commit of the repository -/

def sampleHashing : PublishHashing Unit where
  semanticSha256 := fun _ => 7
  uuid5 := fun _ => 1
  exactBytesSha256 := fun _ => 9
  digestText := fun _ => "7"
  uuidText := fun _ => "1"

def sampleCommand : PrimaryCompletionCommand := ⟨2, 3, 4, 5, ⟨0, 0⟩⟩

def sampleCommitted : CommittedPrimaryCompletion Unit := ⟨sampleCommand, ()⟩

/-- A call under leases of one second, at one instant. -/
def sampleCall (fencingToken : NonEmptyString) (now : Int) : PublicationCall Unit where
  leaseDurationSeconds := 1
  positive := Nat.one_pos
  maintainedAt := now
  claimedAt := now
  startedAt := now
  succeededAt := now
  fencingToken := fencingToken
  facts := ()
  outcome := .answers

def firstToken : NonEmptyString := ⟨"first", by decide⟩

def secondToken : NonEmptyString := ⟨"second", by decide⟩

/-- The process stops between the commit of the repository and the success of the work. -/
def sampleStopped : List (Choice (PublicationOp Unit)) :=
  .spawn (.commit (sampleCall firstToken 1)) :: List.replicate 9 (.advance 0) ++ [.crash 0]

def sampleRoot : World (PublicationStore Unit) (PublicationOp Unit) (PublicationCommand Unit)
    PublicationAnswer PublicationError Unit := World.initial (PublicationStore.empty 0)

instance clockForwardDecidable (command : PublicationCommand Unit) (store : PublicationStore Unit) :
    Decidable (ClockForward command store) := by
  unfold ClockForward
  split <;> infer_instance

/-- The run is completed, and its work is held until the clock passes one second. -/
def holdsLeaseAfterCommit (store : PublicationStore Unit) : Bool :=
  decide (store.completion = some sampleCommitted) && decide (store.clock = 1) &&
    (store.ledger.item? 1).any fun r =>
      decide (r.state = .running ∧ r.leaseExpiresAt = some (formatTimestamp 1000001))

def raises {α : Type} (e : PublicationError) : Except PublicationError α → Bool
  | .error e' => decide (e' = e)
  | .ok _ => false

theorem eq_of_raises {α : Type} {e : PublicationError} {result : Except PublicationError α}
    (h : raises e result = true) : result = .error e := by
  cases result with
  | error e' =>
    have hsame : e' = e := by simpa [raises] using h
    rw [hsame]
  | ok a => cases h

/-- What `reconcile` raises after the lease has run out. -/
def notStarted : PublicationError := .work (.state "only running work can succeed")

/-- A second process reconciles after the lease has run out. -/
def raisesAfterExpiry (store : PublicationStore Unit) : Bool :=
  raises notStarted
    (runAlone (reconcileWork sampleHashing (sampleCall secondToken 2000000) sampleCommitted) store).1

theorem stopped_after_commit : ∃ w, sampleRoot.play? (coordinators sampleHashing sampleCommand)
    sampleStopped = some w ∧ (holdsLeaseAfterCommit w.db && raisesAfterExpiry w.db) = true := by
  decide +kernel

theorem stopped_admitted : sampleRoot.admitsAll? (coordinators sampleHashing sampleCommand)
    ClockForward sampleStopped = true := by
  decide +kernel

theorem stopped_reached : ∃ w, Steps (coordinators sampleHashing sampleCommand) Calls ClockForward
    sampleRoot w ∧ holdsLeaseAfterCommit w.db = true ∧ raisesAfterExpiry w.db = true := by
  obtain ⟨w, hplay, hholds⟩ := stopped_after_commit
  rw [Bool.and_eq_true] at hholds
  refine ⟨w, steps_of_play? (allowsAll_of_admitsAll? ?_ stopped_admitted) hplay, hholds⟩
  intro op hop store
  cases op with
  | commit call => trivial
  | reconcile committed call => simp [sampleStopped] at hop

theorem publication_reconciles_iff_sample :
    ∃ w : World (PublicationStore Unit) (PublicationOp Unit) (PublicationCommand Unit)
      PublicationAnswer PublicationError Unit, w.db.completion = some sampleCommitted ∧
      Publishes sampleHashing sampleCommand
        (reconcileWork sampleHashing (sampleCall secondToken 500000) sampleCommitted) sampleCommitted
        w.db := by
  obtain ⟨w, hsteps, hholds, -⟩ := stopped_reached
  simp only [holdsLeaseAfterCommit, Bool.and_eq_true, decide_eq_true_eq, Option.any_eq_true] at hholds
  obtain ⟨⟨hcompletion, hclock⟩, r, hr, hstate, hexpires⟩ := hholds
  refine ⟨w, hcompletion, ?_⟩
  have hforward : ForwardCall (sampleCall secondToken 500000) w.db :=
    ⟨by rw [hclock]; decide, le_refl _, le_refl _, le_refl _⟩
  apply ((publication_reconciles_iff hsteps).2 _ hcompletion _ hforward).1.mpr
  refine ⟨r, hr, .inr ⟨by rw [hstate]; rfl, ⟨_, hexpires, ?_⟩, 1500000, by decide, by decide⟩⟩
  decide

/-- After the lease has run out the claimed work is not started, and does not succeed. -/
theorem recovered_publication_raises :
    ∃ (w : World (PublicationStore Unit) (PublicationOp Unit) (PublicationCommand Unit)
        PublicationAnswer PublicationError Unit) (store' : PublicationStore Unit),
      Steps (coordinators sampleHashing sampleCommand) Calls ClockForward sampleRoot w ∧
      w.db.completion = some sampleCommitted ∧
      (∀ r, w.db.ledger.item? (workId sampleHashing sampleCommand) = some r →
        r.state ≠ .failedPermanent) ∧
      ForwardCall (sampleCall secondToken 2000000) w.db ∧
      runAlone (reconcileWork sampleHashing (sampleCall secondToken 2000000) sampleCommitted) w.db =
        (.error (.work (.state "only running work can succeed")), store') := by
  obtain ⟨w, hsteps, hholds, hraises⟩ := stopped_reached
  simp only [holdsLeaseAfterCommit, Bool.and_eq_true, decide_eq_true_eq, Option.any_eq_true] at hholds
  obtain ⟨⟨hcompletion, hclock⟩, r, hr, hstate, -⟩ := hholds
  refine ⟨w, _, hsteps, hcompletion, ?_, ?_, Prod.ext (eq_of_raises hraises) rfl⟩
  · intro q hq
    have hsame : q = r := Option.some.inj (hq.symm.trans hr)
    simp [hsame, hstate]
  · exact ⟨by rw [hclock]; decide, le_refl _, le_refl _, le_refl _⟩

end Robata.Publication
