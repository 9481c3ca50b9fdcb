import Robata.Outbox.Invariants

/-!
# Relay workers interleaved over one store and one sink

The sink only grows, a message that a worker publishes is that of a source row, and a
claim is acknowledged after its message has been published.  So every worker keeps the
invariant of the entries between its transactions, whatever the others do.
-/

namespace Robata.Outbox

open Lib
open KeyedTable (key_of_find? mem_of_find? mem_rows_iff)

variable {γ : Type} {dialect : StoreDialect γ}

/-- The sink has a row for the identity. -/
def RelayDb.InSink (db : RelayDb γ) (outboxId : String) : Prop :=
  ∃ row ∈ db.sink.rows, row.outboxId = outboxId

/-- The message of a source row. -/
def MessageOf (dialect : StoreDialect γ) (db : OutboxDb γ) (message : OutboxMessage) : Prop :=
  ∃ o, db.source.find? message.outboxId = some o ∧ dialect.message o.fact = .ok message

/-- What holds of both databases in every reachable state. -/
structure RelaySound (dialect : StoreDialect γ) (db : RelayDb γ) : Prop where
  entries : ∀ outboxId e, db.store.entry outboxId = some e → EntrySound dialect.token db.InSink e
  housed : ∀ outboxId, db.store.source.find? outboxId = none →
    db.store.deliveries.find? outboxId = none
  sink : ∀ row ∈ db.sink.rows, ∃ message, MessageOf dialect db.store message ∧ row.holds message

/-- How the databases may change. -/
structure RelayGrows (db db' : RelayDb γ) : Prop where
  entries : ∀ outboxId e, db.store.entry outboxId = some e →
    ∃ e', db'.store.entry outboxId = some e' ∧ EntryGrows e e'
  sink : db.sink.rows ⊆ db'.sink.rows

theorem RelayGrows.refl (db : RelayDb γ) : RelayGrows db db :=
  ⟨fun _ e h => ⟨e, h, .refl e⟩, fun _ => id⟩

theorem RelayGrows.trans {a b c : RelayDb γ} (hab : RelayGrows a b) (hbc : RelayGrows b c) :
    RelayGrows a c where
  entries := by
    intro outboxId e he
    obtain ⟨e₁, he₁, hgrows₁⟩ := hab.entries outboxId e he
    obtain ⟨e₂, he₂, hgrows₂⟩ := hbc.entries outboxId e₁ he₁
    exact ⟨e₂, he₂, hgrows₁.trans hgrows₂⟩
  sink := fun _ h => hbc.sink (hab.sink h)

def relayDiscipline (dialect : StoreDialect γ) : Discipline (RelayDb γ) where
  Inv := RelaySound dialect
  G := RelayGrows
  refl := RelayGrows.refl
  trans := RelayGrows.trans

theorem RelaySound.empty : RelaySound dialect .empty where
  entries := fun _ _ h => by cases h
  housed := fun _ _ => rfl
  sink := List.forall_mem_nil _

section Keeping

variable {db db' : RelayDb γ}

theorem RelayGrows.inSink (h : RelayGrows db db') {outboxId : String}
    (hin : db.InSink outboxId) : db'.InSink outboxId := by
  obtain ⟨row, hrow, hid⟩ := hin
  exact ⟨row, h.sink hrow, hid⟩

theorem RelayGrows.messageOf (h : RelayGrows db db') {message : OutboxMessage}
    (hmessage : MessageOf dialect db.store message) : MessageOf dialect db'.store message := by
  obtain ⟨o, ho, hm⟩ := hmessage
  obtain ⟨e', he', hgrows⟩ := h.entries message.outboxId (o, _) (entry_eq_some_iff.mpr ⟨ho, rfl⟩)
  refine ⟨e'.1, (entry_eq_some_iff.mp he').1, ?_⟩
  rw [hgrows.fact]
  exact hm

theorem EntrySound.mono {token : String → Nat → String} {published published' : String → Prop}
    (himp : ∀ outboxId, published outboxId → published' outboxId) {e : Entry γ}
    (h : EntrySound token published e) : EntrySound token published' e := by
  obtain ⟨o, d⟩ := e
  cases d with
  | none => exact h
  | some d =>
    obtain ⟨hsound, hid, hdelivered, hpublished⟩ := h
    exact ⟨hsound, hid, hdelivered, fun hstatus => himp _ (hpublished hstatus)⟩

variable (h : RelaySound dialect db)
include h

theorem RelaySound.moved (hsink : db'.sink = db.sink)
    (hmoves : StoreMoves dialect.token db.InSink db.store db'.store) :
    RelaySound dialect db' ∧ RelayGrows db db' := by
  have hgrows : RelayGrows db db' := by
    refine ⟨?_, ?_⟩
    · intro outboxId e he
      obtain ⟨e', he', hentry⟩ := hmoves.moves outboxId e he
      exact ⟨e', he', hentry.grows⟩
    · rw [hsink]
      exact List.Subset.refl _
  refine ⟨⟨?_, ?_, ?_⟩, hgrows⟩
  · intro outboxId e' he'
    exact (hmoves.sound h.entries outboxId e' he').mono fun _ => hgrows.inSink
  · exact hmoves.housed h.housed
  · rw [hsink]
    intro row hrow
    obtain ⟨message, hmessage, hholds⟩ := h.sink row hrow
    exact ⟨message, hgrows.messageOf hmessage, hholds⟩

theorem RelaySound.appended {fact : OutboxFact γ}
    {policy : OutboxRetryPolicy} {createdAt : Int} (hsink : db'.sink = db.sink)
    (happended : db.store.append dialect fact policy createdAt = .ok db'.store) :
    RelaySound dialect db' ∧ RelayGrows db db' := by
  obtain ⟨hfresh, hsource, hothers, -⟩ := append_spec happended
  have hkept : ∀ outboxId, outboxId ≠ fact.outboxId →
      db'.store.entry outboxId = db.store.entry outboxId := by
    intro outboxId hne
    unfold OutboxDb.entry
    rw [hsource, hothers outboxId hne, if_neg hne]
  have hgrows : RelayGrows db db' := by
    refine ⟨?_, ?_⟩
    · intro outboxId e he
      have hne : outboxId ≠ fact.outboxId := by
        rintro rfl
        rw [(entry_eq_some_iff.mp he).1] at hfresh
        cases hfresh
      exact ⟨e, (hkept outboxId hne).trans he, .refl e⟩
    · rw [hsink]
      exact List.Subset.refl _
  obtain ⟨hentries, housed⟩ := append_keeps happended h.entries h.housed
  refine ⟨⟨?_, housed, ?_⟩, hgrows⟩
  · intro outboxId e he
    exact (hentries outboxId e he).mono fun _ => hgrows.inSink
  · rw [hsink]
    intro row hrow
    obtain ⟨message, hmessage, hholds⟩ := h.sink row hrow
    exact ⟨message, hgrows.messageOf hmessage, hholds⟩

theorem RelaySound.published {message : OutboxMessage} {now : Int}
    (hmessage : MessageOf dialect db.store message) (hpublished : db.publish message now = .ok db') :
    RelaySound dialect db' ∧ RelayGrows db db' ∧ db'.InSink message.outboxId := by
  unfold RelayDb.publish at hpublished
  split at hpublished
  · rename_i row hrow
    split at hpublished
    · cases hpublished
      exact ⟨h, .refl _, row, mem_of_find? hrow, key_of_find? hrow⟩
    · cases hpublished
  · split at hpublished
    · rename_i sink hsink
      cases hpublished
      have hgrows : RelayGrows db { db with sink := sink } :=
        ⟨fun _ e he => ⟨e, he, .refl e⟩, KeyedTable.subset_of_insert? hsink⟩
      refine ⟨⟨?_, h.housed, ?_⟩, hgrows, ?_⟩
      · intro outboxId e he
        exact (h.entries outboxId e he).mono fun _ => hgrows.inSink
      · exact KeyedTable.forall_of_insert? hsink h.sink
          ⟨message, hmessage, rfl, rfl, rfl, rfl, rfl⟩
      · exact ⟨_, KeyedTable.mem_of_insert? hsink, rfl⟩
    · cases hpublished

end Keeping

/-! ## The calls -/

section Calls

variable {s : RelayDb γ}

/-- Which repetitions of a call are made: a claim is acknowledged again only after its
message has been published. -/
def Repeats : RelayCall γ → RelayDb γ → Prop
  | .acknowledge claim _, db => db.InSink claim.message.outboxId
  | _, _ => True

theorem acknowledge_safe {claim : OutboxDeliveryClaim} {now : Int}
    (hin : s.InSink claim.message.outboxId) :
    Safe (RelayCommand.run dialect) (fun _ _ => True) (relayDiscipline dialect) (fun _ _ => True)
      (do
        let snapshot ← Prog.perform (RelayCommand.acknowledge claim now)
        pure (some snapshot)) s := by
  refine Safe.transact_bind (inStore (·.acknowledge dialect claim now)) rfl ?_
    (fun _ _ _ _ _ _ _ _ _ => trivial)
  intro db row db' hsound hgrows _ hwritten
  obtain ⟨hstore, hsink⟩ := inStore_eq_ok hwritten
  obtain ⟨hsound', hgrows'⟩ := hsound.moved hsink (acknowledge_spec hstore (hgrows.inSink hin))
  exact ⟨hsound', hgrows', fun _ _ _ => trivial⟩

theorem recordFailure_safe {claim : OutboxDeliveryClaim} {error : String} {now : Int} :
    Safe (RelayCommand.run dialect) (fun _ _ => True) (relayDiscipline dialect) (fun _ _ => True)
      (do
        let snapshot ← Prog.perform (RelayCommand.recordFailure claim error now)
        pure (some snapshot)) s := by
  refine Safe.transact_bind (inStore (·.recordFailure dialect claim error now)) rfl ?_
    (fun _ _ _ _ _ _ _ _ _ => trivial)
  intro db row db' hsound _ _ hwritten
  obtain ⟨hstore, hsink⟩ := inStore_eq_ok hwritten
  obtain ⟨hsound', hgrows'⟩ := hsound.moved hsink (recordFailure_spec hstore)
  exact ⟨hsound', hgrows', fun _ _ _ => trivial⟩

theorem publishFaulty_spec {db : RelayDb γ} (hsound : RelaySound dialect db)
    {message : OutboxMessage} (hmessage : MessageOf dialect db.store message) (now : Int)
    (fault : SinkFault) :
    RelaySound dialect (RelayDb.publishFaulty message now fault db).2 ∧
      RelayGrows db (RelayDb.publishFaulty message now fault db).2 ∧
      ((RelayDb.publishFaulty message now fault db).1 = .ok () →
        (RelayDb.publishFaulty message now fault db).2.InSink message.outboxId) := by
  have hupdate : RelaySound dialect (Method.update (·.publish message now) db).2 ∧
      RelayGrows db (Method.update (·.publish message now) db).2 ∧
      ((Method.update (·.publish message now) db).1 = .ok () →
        (Method.update (·.publish message now) db).2.InSink message.outboxId) := by
    cases hpublished : db.publish message now with
    | ok db' =>
      obtain ⟨hsound', hgrows', hin⟩ := hsound.published hmessage hpublished
      rw [Method.update_of_ok hpublished]
      exact ⟨hsound', hgrows', fun _ => hin⟩
    | error e =>
      rw [Method.update_of_error hpublished]
      exact ⟨hsound, .refl _, fun h => by cases h⟩
  cases fault with
  | none => exact hupdate
  | beforeCommit description => exact ⟨hsound, .refl _, fun h => by cases h⟩
  | afterCommit description => exact ⟨hupdate.1, hupdate.2.1, fun h => by cases h⟩

/-- `deliver_once`: what is published is the message of a source row, and what is
acknowledged has been published. -/
theorem deliverOnce_safe (worker : RelayWorker) :
    Safe (RelayCommand.run dialect) (fun _ _ => True) (relayDiscipline dialect) (fun _ _ => True)
      (deliverOnce worker) s := by
  refine Safe.transact_bind (inStore fun db => db.claim dialect worker.policy worker.workerId
    worker.leaseDuration worker.claimedAt) rfl ?_ (fun _ _ _ _ _ _ _ _ _ => trivial)
  intro db claimed db' hsound _ _ hwritten
  obtain ⟨hstore, hsink⟩ := inStore_eq_ok hwritten
  obtain ⟨hmoves, hclaims⟩ := claim_spec db.InSink hstore
  obtain ⟨hsound', hgrows'⟩ := hsound.moved hsink hmoves
  refine ⟨hsound', hgrows', ?_⟩
  cases claimed with
  | none => exact fun _ _ _ => trivial
  | some claim =>
    have hmessage : MessageOf dialect db'.store claim.message := (hclaims claim rfl).message
    intro db₁ hsound₁ hgrows₁ _
    obtain ⟨hsound₂, hgrows₂, hin⟩ := publishFaulty_spec hsound₁ (hgrows₁.messageOf hmessage)
      worker.publishedAt worker.fault
    refine ⟨hsound₂, hgrows₂, ?_⟩
    have hrun : RelayCommand.run dialect (.publish claim.message worker.publishedAt worker.fault)
        db₁ = RelayDb.publishFaulty claim.message worker.publishedAt worker.fault db₁ := rfl
    rw [hrun]
    cases hanswer : (RelayDb.publishFaulty claim.message worker.publishedAt worker.fault db₁).1 with
    | ok u => exact acknowledge_safe (hin hanswer)
    | error e => exact recordFailure_safe

theorem relay_call_safe (call : RelayCall γ) (hstarts : Repeats call s) :
    Safe (relay dialect).run (fun _ _ => True) (relayDiscipline dialect) (fun _ _ => True)
      ((relay dialect).method call) s := by
  cases call with
  | deliverOnce worker => exact deliverOnce_safe worker
  | acknowledge claim now => exact acknowledge_safe hstarts
  | recordFailure claim error now => exact recordFailure_safe
  | reconcile policy now =>
    refine Safe.transact_bind (inStore fun db => .ok ((), db.reconcile policy now)) rfl ?_
      (fun _ _ _ _ _ _ _ _ _ => trivial)
    intro db _ db' hsound _ _ hwritten
    obtain ⟨hstore, hsink⟩ := inStore_eq_ok hwritten
    have hmoves : StoreMoves dialect.token db.InSink db.store db'.store := by
      rw [← (Prod.mk.inj (Except.ok.inj hstore)).2]
      exact (discover_moves policy now).trans (expireLeases_moves now)
    obtain ⟨hsound', hgrows'⟩ := hsound.moved hsink hmoves
    exact ⟨hsound', hgrows', fun _ _ _ => trivial⟩
  | append fact policy createdAt =>
    refine Safe.transact_bind (inStore
      (Method.answerless (·.append dialect fact policy createdAt))) rfl ?_
      (fun _ _ _ _ _ _ _ _ _ => trivial)
    intro db _ db' hsound _ _ hwritten
    obtain ⟨hstore, hsink⟩ := inStore_eq_ok hwritten
    rw [Method.answerless_eq_ok] at hstore
    obtain ⟨hsound', hgrows'⟩ := hsound.appended hsink hstore
    exact ⟨hsound', hgrows', fun _ _ _ => trivial⟩

end Calls

/-! ## Every run -/

/-- A schedule of relay workers, repetitions and publications. -/
abbrev RelayRun (dialect : StoreDialect γ) :=
  Steps (relay dialect) Repeats fun _ _ => True

/-- What a reachable state says of deliveries and the sink. -/
structure ExactlyOnce (dialect : StoreDialect γ) (db : RelayDb γ) : Prop where
  sink_unique : ∀ row ∈ db.sink.rows, ∀ row' ∈ db.sink.rows,
    row.outboxId = row'.outboxId → row = row'
  sink_source : ∀ row ∈ db.sink.rows, ∃ o message,
    db.store.source.find? row.outboxId = some o ∧ dialect.message o.fact = .ok message ∧
      row.holds message
  delivered_in_sink : ∀ d ∈ db.store.deliveries.rows, d.status = .delivered → db.InSink d.outboxId
  delivered_iff : ∀ d ∈ db.store.deliveries.rows, ∃ o,
    db.store.source.find? d.outboxId = some o ∧ o.deliveredAt = d.deliveredAt ∧
      (d.status = .delivered ↔ o.deliveredAt.isSome)
  undiscovered : ∀ o ∈ db.store.source.rows,
    db.store.deliveries.find? o.fact.outboxId = none → o.deliveredAt = none
  attempts : ∀ d ∈ db.store.deliveries.rows,
    d.attemptCount = d.leaseEpoch ∧ d.leaseEpoch ≤ d.retryPolicy.maxAttempts
  lease : ∀ d ∈ db.store.deliveries.rows, d.leaseExpiresAt.isSome ↔ d.status = .leased
  dead : ∀ d ∈ db.store.deliveries.rows, d.deadLetteredAt.isSome ↔ d.status = .deadLetter

section Runs

variable {db : RelayDb γ}

theorem RelaySound.entry_of_delivery (h : RelaySound dialect db) {d : DeliveryRow}
    (hd : d ∈ db.store.deliveries.rows) :
    ∃ o, db.store.entry d.outboxId = some (o, some d) ∧
      EntrySound dialect.token db.InSink (o, some d) := by
  have hfind := mem_rows_iff.mp hd
  cases hsource : db.store.source.find? d.outboxId with
  | none =>
    rw [h.housed d.outboxId hsource] at hfind
    cases hfind
  | some o =>
    have he : db.store.entry d.outboxId = some (o, some d) :=
      entry_eq_some_iff.mpr ⟨hsource, hfind⟩
    exact ⟨o, he, h.entries d.outboxId _ he⟩

theorem RelaySound.exactlyOnce (h : RelaySound dialect db) : ExactlyOnce dialect db where
  sink_unique := fun _ hrow _ hrow' hid => db.sink.eq_of_key_eq hrow hrow' hid
  sink_source := by
    intro row hrow
    obtain ⟨message, ⟨o, ho, hmessage⟩, hholds⟩ := h.sink row hrow
    rw [← hholds.1] at ho
    exact ⟨o, message, ho, hmessage, hholds⟩
  delivered_in_sink := by
    intro d hd hstatus
    obtain ⟨o, -, -, -, -, hpublished⟩ := h.entry_of_delivery hd
    exact hpublished hstatus
  delivered_iff := by
    intro d hd
    obtain ⟨o, he, hsound, -, hdelivered, -⟩ := h.entry_of_delivery hd
    refine ⟨o, (entry_eq_some_iff.mp he).1, hdelivered, ?_⟩
    have hdelivered' : o.deliveredAt = d.deliveredAt := hdelivered
    rw [hdelivered']
    exact hsound.delivered.symm
  undiscovered := by
    intro o ho hnone
    have he : db.store.entry o.fact.outboxId = some (o, none) :=
      entry_eq_some_iff.mpr ⟨mem_rows_iff.mp ho, hnone⟩
    exact h.entries _ _ he
  attempts := by
    intro d hd
    obtain ⟨o, -, hsound, -⟩ := h.entry_of_delivery hd
    exact ⟨hsound.attempts, hsound.bounded⟩
  lease := by
    intro d hd
    obtain ⟨o, -, hsound, -⟩ := h.entry_of_delivery hd
    exact hsound.lease
  dead := by
    intro d hd
    obtain ⟨o, -, hsound, -⟩ := h.entry_of_delivery hd
    exact hsound.dead

/-- The fences of one store tell the first epochs of a row apart. -/
structure Fences (dialect : StoreDialect γ) (limit : Nat) : Prop where
  token : ∀ outboxId epoch epoch', epoch ≤ limit → epoch' ≤ limit →
    dialect.token outboxId epoch = dialect.token outboxId epoch' → epoch = epoch'
  text : ∀ stored given, dialect.sameText (some stored) given = true → stored = given

variable (dialect db) in
/-- A claim of another epoch than the row's changes neither database. -/
def StaleIgnored (limit : Nat) : Prop :=
  ∀ (claim : OutboxDeliveryClaim) (d : DeliveryRow),
    claim.delivery.fencingToken =
      some (dialect.token claim.message.outboxId claim.delivery.leaseEpoch) →
    db.store.deliveries.find? claim.message.outboxId = some d →
    claim.delivery.leaseEpoch ≤ limit → d.retryPolicy.maxAttempts ≤ limit →
    claim.delivery.leaseEpoch ≠ d.leaseEpoch →
    ∀ now, (∃ e, RelayCommand.run dialect (.acknowledge claim now) db = (.error e, db)) ∧
      ∀ error, ∃ e, RelayCommand.run dialect (.recordFailure claim error now) db = (.error e, db)

theorem RelaySound.staleIgnored {limit : Nat} (h : RelaySound dialect db)
    (hfences : Fences dialect limit) : StaleIgnored dialect db limit := by
  intro claim d htoken hd hepoch hattempts hstale now
  have hmem := mem_of_find? hd
  have hid : d.outboxId = claim.message.outboxId := key_of_find? hd
  obtain ⟨o, he, hsound⟩ := h.entry_of_delivery hmem
  rw [hid] at he
  have hbounded : d.leaseEpoch ≤ limit := hsound.1.bounded.trans hattempts
  obtain ⟨hacknowledge, hfailure⟩ := stale_claim_refused
    (hfences.token _ _ _ hbounded hepoch) hfences.text htoken (entry_eq_some_iff.mp he).1 hd
    hsound hstale now
  refine ⟨?_, ?_⟩
  · obtain ⟨e, herror⟩ := hacknowledge
    refine ⟨e, ?_⟩
    simp only [RelayCommand.run, Method.transact, inStore, herror]
  · intro error
    obtain ⟨e, herror⟩ := hfailure error
    refine ⟨e, ?_⟩
    simp only [RelayCommand.run, Method.transact, inStore, herror]

theorem relay_keeps
    {w w' : World (RelayDb γ) (RelayCall γ) (RelayCommand γ) RelayAnswer OutboxError
      (Option DeliveryRow)}
    (hw : RelayRun dialect (World.initial .empty) w) (hw' : RelayRun dialect w w') :
    RelaySound dialect w.db ∧ RelayGrows w.db w'.db := by
  have hmethod : ∀ call s, (relayDiscipline dialect).Inv s → Repeats call s →
      Safe (relay dialect).run (fun _ _ => True) (relayDiscipline dialect) (fun _ _ => True)
        ((relay dialect).method call) s :=
    fun call s _ hstarts => relay_call_safe call hstarts
  have hstart : Keeps (relay dialect) (fun _ _ => True) (relayDiscipline dialect)
      (fun _ _ _ _ => True) (World.initial .empty) := Keeps.initial RelaySound.empty
  obtain ⟨hkeeps, -⟩ := Steps.keeps hmethod hstart hw
  obtain ⟨-, hgrows⟩ := Steps.keeps hmethod hkeeps hw'
  exact ⟨hkeeps.inv, hgrows⟩

theorem RelayGrows.terminal {db' : RelayDb γ} (hsound : RelaySound dialect db)
    (hgrows : RelayGrows db db') {d : DeliveryRow} (hd : d ∈ db.store.deliveries.rows)
    (hterminal : d.status.isTerminal = true) : d ∈ db'.store.deliveries.rows := by
  obtain ⟨o, he, -⟩ := hsound.entry_of_delivery hd
  obtain ⟨e', he', hentry⟩ := hgrows.entries d.outboxId _ he
  have hsame := hentry.terminal d rfl hterminal
  have hfind := (entry_eq_some_iff.mp he').2
  rw [hsame] at hfind
  exact mem_of_find? hfind

end Runs

end Robata.Outbox
