import Robata.Outbox.Relay

/-!
# What the transactions of a delivery store do to one row

Every transaction acts on each outbox row by itself.  An *entry* is a source row
with its delivery row, if it has one, and `EntryMove` lists what can happen to an
entry: it is discovered, its lease lapses, it is leased, delivered or failed.  One
lemma per transaction says that it moves the entries so; the invariant of an entry,
and that a terminal entry stays as it is, are then shown for each kind of move.
-/

namespace Robata.Outbox

open Lib
open Bool (and_eq_true not_eq_true)
open DeliveryRow (claimable deliverAt failWith holdsFence lapsed leaseTo)
open KeyedTable (find?_eq_some_iff find?_of_insert? find?_updateWhere find?_updateWhere_of_key
  key_of_find?)

variable {γ : Type}

/-! ## Entries -/

/-- A source row with its delivery row. -/
abbrev Entry (γ : Type) := SourceRow γ × Option DeliveryRow

def OutboxDb.entry (db : OutboxDb γ) (outboxId : String) : Option (Entry γ) :=
  (db.source.find? outboxId).map fun row => (row, db.deliveries.find? outboxId)

variable {outboxId : String}

theorem entry_eq_some_iff {db : OutboxDb γ} {e : Entry γ} :
    db.entry outboxId = some e ↔
      db.source.find? outboxId = some e.1 ∧ db.deliveries.find? outboxId = e.2 := by
  unfold OutboxDb.entry
  rw [Option.map_eq_some_iff]
  constructor
  · rintro ⟨row, hrow, rfl⟩
    exact ⟨hrow, rfl⟩
  · rintro ⟨hrow, hdelivery⟩
    exact ⟨e.1, hrow, Prod.ext rfl hdelivery⟩

/-- What `_expire_leases` makes of a row. -/
def DeliveryRow.expired (row : DeliveryRow) (now : Int) : DeliveryRow :=
  if row.lapsed now then
    if row.retryPolicy.maxAttempts ≤ row.attemptCount then row.expireFinal now
    else row.expireRetry now
  else row

/-- What can happen to an entry.  Only an entry that is published is acknowledged. -/
inductive EntryMove (token : String → Nat → String) (published : String → Prop) :
    Entry γ → Entry γ → Prop
  | discover (o : SourceRow γ) (policy : OutboxRetryPolicy) (now : Int) :
      EntryMove token published (o, none) (o, some (discovered policy now o))
  | expire (o : SourceRow γ) (d : DeliveryRow) (now : Int) (hlapsed : d.lapsed now = true) :
      EntryMove token published (o, some d) (o, some (d.expired now))
  | lease (o : SourceRow γ) (d : DeliveryRow) (workerId : String) (expiry : Int)
      (hid : d.outboxId = o.fact.outboxId) (hdue : o.deliveredAt = none)
      (hclaimable : d.claimable = true) :
      EntryMove token published (o, some d) (o, some (d.leaseTo (d.attemptCount + 1)
        (d.leaseEpoch + 1) (token d.outboxId (d.leaseEpoch + 1)) workerId expiry))
  | deliver (o : SourceRow γ) (d : DeliveryRow) (now : Int) (hleased : d.status = .leased)
      (hdue : o.deliveredAt = none) (hpublished : published o.fact.outboxId) :
      EntryMove token published (o, some d) (o.deliverAt now, some (d.deliverAt now))
  | fail (o : SourceRow γ) (d : DeliveryRow) (error : String) (now : Int)
      (next : OutboxDeliveryStatus × Int × Option Int) (hleased : d.status = .leased)
      (hnext : d.afterFailure now = .ok next) :
      EntryMove token published (o, some d) (o, some (d.failWith next error))

abbrev EntryMoves (token : String → Nat → String) (published : String → Prop) :
    Entry γ → Entry γ → Prop :=
  Relation.ReflTransGen (EntryMove token published)

/-- What the columns of a delivery row say together. -/
structure DeliverySound (token : String → Nat → String) (d : DeliveryRow) : Prop where
  attempts : d.attemptCount = d.leaseEpoch
  bounded : d.leaseEpoch ≤ d.retryPolicy.maxAttempts
  waiting : d.status = .retryWait → d.attemptCount < d.retryPolicy.maxAttempts
  pending : d.status = .pending ↔ d.leaseEpoch = 0
  fenced : 0 < d.leaseEpoch → d.fencingToken = some (token d.outboxId d.leaseEpoch)
  lease : d.leaseExpiresAt.isSome ↔ d.status = .leased
  delivered : d.deliveredAt.isSome ↔ d.status = .delivered
  dead : d.deadLetteredAt.isSome ↔ d.status = .deadLetter
  failed : d.status = .retryWait ∨ d.status = .deadLetter → d.lastError.isSome

def EntrySound (token : String → Nat → String) (published : String → Prop) (e : Entry γ) : Prop :=
  match e.2 with
  | none => e.1.deliveredAt = none
  | some d => DeliverySound token d ∧ d.outboxId = e.1.fact.outboxId ∧
      e.1.deliveredAt = d.deliveredAt ∧ (d.status = .delivered → published d.outboxId)

section Moves

variable {token : String → Nat → String} {published : String → Prop} {e e' : Entry γ}

variable {d : DeliveryRow}

theorem lapsed_leased {now : Int} (h : d.lapsed now = true) : d.status = .leased := by
  unfold lapsed at h
  rw [and_eq_true, beq_iff_eq] at h
  exact h.1

theorem claimable_iff : d.claimable = true ↔ d.status = .pending ∨ d.status = .retryWait := by
  unfold claimable
  rw [Bool.or_eq_true, beq_iff_eq, beq_iff_eq]

/-- A leased row has an epoch, and has been neither delivered nor dead-lettered. -/
theorem DeliverySound.of_leased (h : DeliverySound token d) (hleased : d.status = .leased) :
    d.leaseEpoch ≠ 0 ∧ d.deliveredAt.isSome = false ∧ d.deadLetteredAt.isSome = false := by
  refine ⟨?_, ?_, ?_⟩
  · intro hzero
    rw [h.pending.mpr hzero] at hleased
    cases hleased
  · rw [← not_eq_true, h.delivered, hleased]
    decide
  · rw [← not_eq_true, h.dead, hleased]
    decide

theorem DeliverySound.expired (h : DeliverySound token d) (now : Int)
    (hlapsed : d.lapsed now = true) : DeliverySound token (d.expired now) := by
  obtain ⟨hpositive, hundelivered, hundead⟩ := h.of_leased (lapsed_leased hlapsed)
  unfold DeliveryRow.expired
  rw [if_pos hlapsed]
  split
  · refine ⟨h.attempts, h.bounded, ?_, ?_, h.fenced, ?_, ?_, ?_, ?_⟩
    all_goals simp [DeliveryRow.expireFinal, hpositive, hundelivered]
  · rename_i hlt
    refine ⟨h.attempts, h.bounded, fun _ => not_le.mp hlt, ?_, h.fenced, ?_, ?_, ?_, ?_⟩
    all_goals simp [DeliveryRow.expireRetry, hpositive, hundelivered, hundead]

theorem afterFailure_spec {now : Int} {next : OutboxDeliveryStatus × Int × Option Int}
    (h : d.afterFailure now = .ok next) :
    (next.1 = .deadLetter ∧ next.2.2 = some now) ∨
      (next.1 = .retryWait ∧ next.2.2 = none ∧ d.attemptCount < d.retryPolicy.maxAttempts) := by
  unfold DeliveryRow.afterFailure at h
  split at h
  · cases h
    exact .inl ⟨rfl, rfl⟩
  · rename_i hlt
    obtain ⟨delay, -, h⟩ := bind_eq_ok.mp h
    cases h
    exact .inr ⟨rfl, rfl, not_le.mp hlt⟩

theorem EntryMove.sound (hmove : EntryMove token published e e')
    (h : EntrySound token published e) : EntrySound token published e' := by
  cases hmove with
  | discover o policy now =>
    have hnone : o.deliveredAt = none := h
    refine ⟨?_, rfl, rfl, ?_⟩
    · constructor <;> simp [discovered, hnone]
    · simp [discovered, hnone]
  | expire o d now hlapsed =>
    obtain ⟨hsound, hid, hdelivered, hpublished⟩ := h
    refine ⟨hsound.expired now hlapsed, ?_, ?_, ?_⟩
    · unfold DeliveryRow.expired
      split_ifs <;> exact hid
    · unfold DeliveryRow.expired
      split_ifs <;> exact hdelivered
    · unfold DeliveryRow.expired
      split_ifs <;> (intro hstatus; cases hstatus)
  | lease o d workerId expiry hid hdue hclaimable =>
    obtain ⟨hsound, -, hdelivered, hpublished⟩ := h
    have hundead : d.deadLetteredAt.isSome = false := by
      rw [← not_eq_true, hsound.dead]
      rcases claimable_iff.mp hclaimable with hstatus | hstatus <;> simp [hstatus]
    have hundelivered : d.deliveredAt = none := hdelivered ▸ hdue
    -- a pending row has not been leased, and a waiting one has an attempt left
    have hroom : d.leaseEpoch < d.retryPolicy.maxAttempts := by
      rcases claimable_iff.mp hclaimable with hstatus | hstatus
      · rw [hsound.pending.mp hstatus]
        exact d.retryPolicy.attempts
      · rw [← hsound.attempts]
        exact hsound.waiting hstatus
    refine ⟨?_, hid, hdelivered, fun hstatus => by cases hstatus⟩
    constructor <;> simp [leaseTo, hsound.attempts, hundead, hundelivered]
    omega
  | deliver o d now hleased hdue hpublished =>
    obtain ⟨hsound, hid, -, -⟩ := h
    obtain ⟨hpositive, -, -⟩ := hsound.of_leased hleased
    refine ⟨⟨hsound.attempts, hsound.bounded, ?_, ?_, hsound.fenced, ?_, ?_, ?_, ?_⟩,
      hid, rfl, fun _ => hid ▸ hpublished⟩
    all_goals simp [deliverAt, hpositive]
  | fail o d error now next hleased hnext =>
    obtain ⟨hsound, hid, hdelivered, -⟩ := h
    obtain ⟨hpositive, hundelivered, -⟩ := hsound.of_leased hleased
    rcases afterFailure_spec hnext with ⟨hstatus, hdead⟩ | ⟨hstatus, hdead, hroom⟩
    · refine ⟨⟨hsound.attempts, hsound.bounded, ?_, ?_, hsound.fenced, ?_, ?_, ?_, ?_⟩,
        hid, hdelivered, ?_⟩
      all_goals simp [failWith, hstatus, hdead, hpositive, hundelivered]
    · refine ⟨⟨hsound.attempts, hsound.bounded, fun _ => hroom, ?_, hsound.fenced, ?_, ?_, ?_, ?_⟩,
        hid, hdelivered, ?_⟩
      all_goals simp [failWith, hstatus, hdead, hpositive, hundelivered]

theorem EntryMoves.sound (hmoves : EntryMoves token published e e')
    (h : EntrySound token published e) : EntrySound token published e' := by
  induction hmoves with
  | refl => exact h
  | tail _ hmove ih => exact hmove.sound ih

/-- How an entry may change: its fact stays, and so does a terminal delivery row. -/
structure EntryGrows (e e' : Entry γ) : Prop where
  fact : e'.1.fact = e.1.fact
  terminal : ∀ d, e.2 = some d → d.status.isTerminal = true → e'.2 = some d

theorem EntryGrows.refl (e : Entry γ) : EntryGrows e e := ⟨rfl, fun _ h _ => h⟩

theorem EntryGrows.trans {e₁ e₂ e₃ : Entry γ} (h₁ : EntryGrows e₁ e₂) (h₂ : EntryGrows e₂ e₃) :
    EntryGrows e₁ e₃ :=
  ⟨h₂.fact.trans h₁.fact, fun d hd hterminal =>
    h₂.terminal d (h₁.terminal d hd hterminal) hterminal⟩

theorem EntryMove.grows (hmove : EntryMove token published e e') : EntryGrows e e' := by
  have hexcluded : ∀ {d : DeliveryRow}, d.status = .leased ∨ d.claimable = true →
      d.status.isTerminal = true → False := by
    intro d hstatus hterminal
    rcases hstatus with hstatus | hclaimable
    · rw [hstatus] at hterminal
      cases hterminal
    · rcases claimable_iff.mp hclaimable with hstatus | hstatus <;>
        · rw [hstatus] at hterminal
          cases hterminal
  cases hmove with
  | discover o policy now => exact ⟨rfl, fun d hd _ => by cases hd⟩
  | expire o d now hlapsed =>
    refine ⟨rfl, ?_⟩
    rintro d' hd' hterminal
    cases hd'
    exact (hexcluded (.inl (lapsed_leased hlapsed)) hterminal).elim
  | lease o d workerId expiry hid hdue hclaimable =>
    refine ⟨rfl, ?_⟩
    rintro d' hd' hterminal
    cases hd'
    exact (hexcluded (.inr hclaimable) hterminal).elim
  | deliver o d now hleased hdue hpublished | fail o d error now next hleased hnext =>
    refine ⟨rfl, ?_⟩
    rintro d' hd' hterminal
    cases hd'
    exact (hexcluded (.inl hleased) hterminal).elim

theorem EntryMoves.grows (hmoves : EntryMoves token published e e') : EntryGrows e e' := by
  induction hmoves with
  | refl => exact .refl _
  | tail _ hmove ih => exact ih.trans hmove.grows

theorem EntryMoves.enrolled (hmoves : EntryMoves token published e e') (h : e.2.isSome) :
    e'.2.isSome := by
  induction hmoves with
  | refl => exact h
  | tail _ hmove _ => cases hmove <;> rfl

end Moves

/-! ## Transactions move entries -/

/-- A transaction that moves the entries it finds and adds none. -/
structure StoreMoves (token : String → Nat → String) (published : String → Prop)
    (db db' : OutboxDb γ) : Prop where
  moves : ∀ outboxId e, db.entry outboxId = some e →
    ∃ e', db'.entry outboxId = some e' ∧ EntryMoves token published e e'
  others : ∀ outboxId, db.source.find? outboxId = none →
    db'.source.find? outboxId = none ∧
      (db.deliveries.find? outboxId = none → db'.deliveries.find? outboxId = none)

section Transactions

variable {token : String → Nat → String} {published : String → Prop} {db db₁ db₂ db' : OutboxDb γ}

theorem StoreMoves.trans (h₁ : StoreMoves token published db db₁)
    (h₂ : StoreMoves token published db₁ db₂) : StoreMoves token published db db₂ where
  moves := by
    intro outboxId e he
    obtain ⟨e₁, he₁, hmoves₁⟩ := h₁.moves outboxId e he
    obtain ⟨e₂, he₂, hmoves₂⟩ := h₂.moves outboxId e₁ he₁
    exact ⟨e₂, he₂, hmoves₁.trans hmoves₂⟩
  others := by
    intro outboxId h
    obtain ⟨hsource₁, hdelivery₁⟩ := h₁.others outboxId h
    obtain ⟨hsource₂, hdelivery₂⟩ := h₂.others outboxId hsource₁
    exact ⟨hsource₂, fun hnone => hdelivery₂ (hdelivery₁ hnone)⟩

theorem StoreMoves.sound (hmoves : StoreMoves token published db db')
    (h : ∀ outboxId e, db.entry outboxId = some e → EntrySound token published e) :
    ∀ outboxId e, db'.entry outboxId = some e → EntrySound token published e := by
  intro outboxId e' he'
  cases hsource : db.source.find? outboxId with
  | none =>
    have hnone := (hmoves.others outboxId hsource).1
    rw [(entry_eq_some_iff.mp he').1] at hnone
    cases hnone
  | some o =>
    have he : db.entry outboxId = some (o, db.deliveries.find? outboxId) :=
      entry_eq_some_iff.mpr ⟨hsource, rfl⟩
    obtain ⟨e'', he'', hentry⟩ := hmoves.moves outboxId _ he
    rw [he', Option.some.injEq] at he''
    subst he''
    exact hentry.sound (h outboxId _ he)

theorem StoreMoves.housed (hmoves : StoreMoves token published db db')
    (h : ∀ outboxId, db.source.find? outboxId = none → db.deliveries.find? outboxId = none) :
    ∀ outboxId, db'.source.find? outboxId = none → db'.deliveries.find? outboxId = none := by
  intro outboxId hnone
  cases hsource : db.source.find? outboxId with
  | none => exact (hmoves.others outboxId hsource).2 (h outboxId hsource)
  | some o =>
    obtain ⟨e', he', -⟩ := hmoves.moves outboxId (o, db.deliveries.find? outboxId)
      (entry_eq_some_iff.mpr ⟨hsource, rfl⟩)
    rw [(entry_eq_some_iff.mp he').1] at hnone
    cases hnone

theorem StoreMoves.delivery_isSome (hmoves : StoreMoves token published db db')
    (h : ∀ outboxId, db.source.find? outboxId = none → db.deliveries.find? outboxId = none)
    (hsome : (db.deliveries.find? outboxId).isSome) :
    (db'.deliveries.find? outboxId).isSome := by
  cases hsource : db.source.find? outboxId with
  | none =>
    rw [h outboxId hsource] at hsome
    cases hsome
  | some o =>
    obtain ⟨e', he', hentry⟩ := hmoves.moves outboxId (o, db.deliveries.find? outboxId)
      (entry_eq_some_iff.mpr ⟨hsource, rfl⟩)
    rw [(entry_eq_some_iff.mp he').2]
    exact hentry.enrolled hsome

theorem StoreMoves.one {e e' : Entry γ} (he : db.entry outboxId = some e)
    (hmove : EntryMove token published e e')
    (hsource : ∀ j, db'.source.find? j = if j = outboxId then some e'.1 else db.source.find? j)
    (hdelivery : ∀ j, db'.deliveries.find? j =
      if j = outboxId then e'.2 else db.deliveries.find? j) :
    StoreMoves token published db db' where
  moves := by
    intro j f hf
    by_cases hj : j = outboxId
    · subst hj
      rw [he, Option.some.injEq] at hf
      subst hf
      refine ⟨e', entry_eq_some_iff.mpr ⟨?_, ?_⟩, .single hmove⟩
      · rw [hsource, if_pos rfl]
      · rw [hdelivery, if_pos rfl]
    · refine ⟨f, entry_eq_some_iff.mpr ⟨?_, ?_⟩, .refl⟩
      · rw [hsource, if_neg hj]
        exact (entry_eq_some_iff.mp hf).1
      · rw [hdelivery, if_neg hj]
        exact (entry_eq_some_iff.mp hf).2
  others := by
    intro j hj
    have hne : j ≠ outboxId := by
      rintro rfl
      rw [(entry_eq_some_iff.mp he).1] at hj
      cases hj
    rw [hsource, hdelivery, if_neg hne, if_neg hne]
    exact ⟨hj, id⟩

theorem find?_discover (policy : OutboxRetryPolicy) (now : Int) (outboxId : String) :
    (db.discover policy now).deliveries.find? outboxId =
      (db.deliveries.find? outboxId).or ((db.source.find? outboxId).map (discovered policy now)) :=
  KeyedTable.find?_insertMissing outboxId

theorem discover_moves (policy : OutboxRetryPolicy) (now : Int) :
    StoreMoves token published db (db.discover policy now) where
  moves := by
    intro outboxId e he
    obtain ⟨hsource, hdelivery⟩ := entry_eq_some_iff.mp he
    obtain ⟨o, d⟩ := e
    cases d with
    | some d =>
      refine ⟨(o, some d), entry_eq_some_iff.mpr ⟨hsource, ?_⟩, .refl⟩
      rw [find?_discover, hdelivery, Option.some_or]
    | none =>
      refine ⟨(o, some (discovered policy now o)), entry_eq_some_iff.mpr ⟨hsource, ?_⟩,
        .single (.discover o policy now)⟩
      rw [find?_discover, hdelivery, hsource, Option.none_or, Option.map_some]
  others := by
    intro outboxId h
    refine ⟨h, fun hnone => ?_⟩
    rw [find?_discover, h, hnone]
    rfl

theorem find?_expireLeases (now : Int) (outboxId : String) :
    (db.expireLeases now).deliveries.find? outboxId =
      (db.deliveries.find? outboxId).map fun row => row.expired now := by
  unfold OutboxDb.expireLeases
  rw [find?_updateWhere, find?_updateWhere, Option.map_map]
  congr 1
  funext row
  simp only [Function.comp, DeliveryRow.expired]
  by_cases hlapsed : row.lapsed now = true
  · by_cases hfinal : row.retryPolicy.maxAttempts ≤ row.attemptCount
    · -- a row that the first statement has set is not leased any more
      have hgone : (row.expireFinal now).lapsed now = false := rfl
      simp [hlapsed, hfinal, hgone]
    · simp [hlapsed, hfinal]
  · simp [hlapsed]

theorem expireLeases_moves (now : Int) : StoreMoves token published db (db.expireLeases now) where
  moves := by
    intro outboxId e he
    obtain ⟨hsource, hdelivery⟩ := entry_eq_some_iff.mp he
    obtain ⟨o, d⟩ := e
    cases d with
    | none =>
      refine ⟨(o, none), entry_eq_some_iff.mpr ⟨hsource, ?_⟩, .refl⟩
      rw [find?_expireLeases, hdelivery, Option.map_none]
    | some d =>
      refine ⟨(o, some (d.expired now)), entry_eq_some_iff.mpr ⟨hsource, ?_⟩, ?_⟩
      · rw [find?_expireLeases, hdelivery, Option.map_some]
      · by_cases hlapsed : d.lapsed now = true
        · exact .single (.expire o d now hlapsed)
        · have hsame : d.expired now = d := by
            unfold DeliveryRow.expired
            rw [if_neg hlapsed]
          rw [hsame]
  others := by
    intro outboxId h
    refine ⟨h, fun hnone => ?_⟩
    rw [find?_expireLeases, hnone, Option.map_none]

variable {dialect : StoreDialect γ}

theorem joinedRow_eq_ok {joined : SourceRow γ × DeliveryRow}
    (h : db.joinedRow dialect outboxId = .ok joined) :
    db.source.find? outboxId = some joined.1 ∧ db.deliveries.find? outboxId = some joined.2 := by
  unfold OutboxDb.joinedRow at h
  split at h
  · rename_i source delivery hsource hdelivery
    cases h
    exact ⟨hsource, hdelivery⟩
  · cases h

variable {claim : OutboxDeliveryClaim}

theorem makeClaim_eq_ok {message : OutboxMessage} {delivery : DeliveryRow}
    (h : makeClaim message delivery = .ok claim) :
    claim.message = message ∧ claim.delivery = delivery := by
  unfold makeClaim at h
  split at h
  · split at h
    · cases h
      exact ⟨rfl, rfl⟩
    · cases h
  · cases h

variable {now : Int}

theorem mem_candidates {candidate : Candidate} (h : candidate ∈ db.candidates now) :
    ∃ o d, db.source.find? candidate.outboxId = some o ∧
      db.deliveries.find? candidate.outboxId = some d ∧ o.deliveredAt = none ∧
      d.claimable = true ∧ d.nextAttemptAt ≤ now ∧ candidate.attemptCount = d.attemptCount ∧
      candidate.leaseEpoch = d.leaseEpoch := by
  obtain ⟨o, ho, h⟩ := List.mem_filterMap.mp h
  split at h
  · rename_i d hd
    split at h
    · rename_i hdue
      cases h
      exact ⟨o, d, KeyedTable.mem_rows_iff.mp ho, hd, hdue.1, hdue.2.1, hdue.2.2, rfl, rfl⟩
    · cases h
  · cases h

/-- A claim as the store hands it out: the message of its source row, its delivery row, and
the token of its epoch. -/
structure ClaimOf (dialect : StoreDialect γ) (db : OutboxDb γ) (claim : OutboxDeliveryClaim) :
    Prop where
  message : ∃ o, db.source.find? claim.message.outboxId = some o ∧
    dialect.message o.fact = .ok claim.message
  delivery : db.deliveries.find? claim.message.outboxId = some claim.delivery
  token : claim.delivery.fencingToken =
    some (dialect.token claim.message.outboxId claim.delivery.leaseEpoch)

theorem claim_spec {policy : OutboxRetryPolicy} {workerId : String} {leaseDuration : Int}
    {result : Option OutboxDeliveryClaim} (published : String → Prop)
    (h : db.claim dialect policy workerId leaseDuration now = .ok (result, db')) :
    StoreMoves dialect.token published db db' ∧
      ∀ claim, result = some claim → ClaimOf dialect db' claim := by
  unfold OutboxDb.claim at h
  simp only [bind_eq_ok] at h
  obtain ⟨_, -, _, -, h⟩ := h
  have hbefore : StoreMoves dialect.token published db
      ((db.discover policy now).expireLeases now) :=
    (discover_moves policy now).trans (expireLeases_moves now)
  split at h
  · cases h
    exact ⟨hbefore, fun claim hclaim => by cases hclaim⟩
  · rename_i candidate hhead
    have hmem : candidate ∈ ((db.discover policy now).expireLeases now).candidates now := by
      have hsorted := List.mem_of_mem_head? (Option.mem_def.mpr hhead)
      rwa [List.mem_insertionSort] at hsorted
    obtain ⟨o, d, ho, hd, hdue, hclaimable, -, hattempts, hepoch⟩ := mem_candidates hmem
    simp only [bind_eq_ok] at h
    obtain ⟨_, -, joined, hjoined, message, hmessage, h⟩ := h
    split at h
    · cases h
    · rename_i claim hclaim
      cases h
      obtain ⟨hclaimMessage, hclaimDelivery⟩ := makeClaim_eq_ok hclaim
      have hid : d.outboxId = candidate.outboxId := key_of_find? hd
      have hoid : o.fact.outboxId = candidate.outboxId :=
        (find?_eq_some_iff.mp ho).2
      -- the statement touches the row of the candidate and no other
      have hselects : ∀ row : DeliveryRow, (row.outboxId == candidate.outboxId &&
          row.claimable && row.leaseEpoch == candidate.leaseEpoch) = true →
          row.outboxId = candidate.outboxId := by
        intro row hrow
        rw [and_eq_true, and_eq_true, beq_iff_eq] at hrow
        exact hrow.1.1
      have hselected : (d.outboxId == candidate.outboxId && d.claimable &&
          d.leaseEpoch == candidate.leaseEpoch) = true := by
        simp [hid, hclaimable, hepoch]
      have hrows := find?_updateWhere_of_key
        ((db.discover policy now).expireLeases now).deliveries
        (fun row => row.leaseTo (candidate.attemptCount + 1) (candidate.leaseEpoch + 1)
          (dialect.token candidate.outboxId (candidate.leaseEpoch + 1)) workerId
          (now + leaseDuration)) (·.leaseTo_outboxId _ _ _ _ _) hselects hd hselected
      obtain ⟨hsource, hdelivery⟩ := joinedRow_eq_ok hjoined
      refine ⟨hbefore.trans (StoreMoves.one (entry_eq_some_iff.mpr ⟨ho, hd⟩)
        (.lease o d workerId (now + leaseDuration) (hid.trans hoid.symm) hdue hclaimable)
        ?_ ?_), ?_⟩
      · intro j
        split
        · rename_i hj
          rw [hj]
          exact ho
        · rfl
      · intro j
        refine (hrows j).trans ?_
        rw [hattempts, hepoch, hid]
      · intro claim' hclaim'
        cases hclaim'
        have hjoinedRow := (hrows candidate.outboxId).symm.trans hdelivery
        rw [if_pos rfl, Option.some.injEq] at hjoinedRow
        have hclaimId : claim.message.outboxId = candidate.outboxId := by
          rw [claim.sameId, hclaimDelivery, ← hjoinedRow]
          exact hid
        refine ⟨⟨joined.1, ?_, ?_⟩, ?_, ?_⟩
        · rw [hclaimId]
          exact hsource
        · rw [hclaimMessage]
          exact hmessage
        · rw [hclaimId, hclaimDelivery]
          exact hdelivery
        · rw [hclaimId, hclaimDelivery, ← hjoinedRow]
          rfl

theorem holdsFence_leased {d : DeliveryRow} (h : d.holdsFence claim = true) :
    d.status = .leased ∧ d.leaseEpoch = claim.delivery.leaseEpoch := by
  unfold holdsFence at h
  simp only [and_eq_true, beq_iff_eq] at h
  exact ⟨h.1.1.1, h.1.1.2⟩

theorem find?_updateWhere_fence {d : DeliveryRow} (set : DeliveryRow → DeliveryRow)
    (hset : ∀ row, (set row).outboxId = row.outboxId) (hd : db.deliveries.find? outboxId = some d)
    (hfence : d.holdsFence claim = true) (j : String) :
    (db.deliveries.updateWhere (fun row => row.outboxId == outboxId && row.holdsFence claim) set
      hset).find? j = if j = outboxId then some (set d) else db.deliveries.find? j := by
  refine find?_updateWhere_of_key db.deliveries set hset ?_ hd ?_ j
  · intro row hrow
    rw [and_eq_true, beq_iff_eq] at hrow
    exact hrow.1
  · have hid : d.outboxId = outboxId := key_of_find? hd
    rw [hid, hfence, beq_self_eq_true, Bool.and_true]

theorem acknowledge_spec {row : DeliveryRow} (h : db.acknowledge dialect claim now = .ok (row, db'))
    (hpublished : published claim.message.outboxId) :
    StoreMoves dialect.token published db db' := by
  unfold OutboxDb.acknowledge at h
  simp only [bind_eq_ok] at h
  obtain ⟨joined, hjoined, h⟩ := h
  obtain ⟨hsource, hdelivery⟩ := joinedRow_eq_ok hjoined
  have hbefore : StoreMoves dialect.token published db (db.expireLeases now) :=
    expireLeases_moves now
  split at h
  · cases h
    exact hbefore
  · simp only [bind_eq_ok, refuse_eq_ok, Bool.not_eq_false', bne_eq_false_iff_eq] at h
    obtain ⟨_, hfence, _, -, _, hundelivered, written, -, h⟩ := h
    cases h
    have hkey : ∀ row : SourceRow γ, (row.fact.outboxId == claim.message.outboxId &&
        row.deliveredAt.isNone) = true → row.fact.outboxId = claim.message.outboxId := by
      intro row hrow
      rw [and_eq_true, beq_iff_eq] at hrow
      exact hrow.1
    obtain ⟨o, ho, hselected⟩ :=
      ((db.expireLeases now).source.rowcount_eq_one_iff hkey).mp hundelivered
    have hdue : o.deliveredAt = none := by
      rw [and_eq_true, Option.isNone_iff_eq_none] at hselected
      exact hselected.2
    have hoid : o.fact.outboxId = claim.message.outboxId :=
      (find?_eq_some_iff.mp ho).2
    refine hbefore.trans (StoreMoves.one (entry_eq_some_iff.mpr ⟨ho, hdelivery⟩)
      (.deliver o joined.2 now (holdsFence_leased hfence).1 hdue (hoid ▸ hpublished)) ?_ ?_)
    · exact find?_updateWhere_of_key _ _ (·.deliverAt_outboxId now)
        hkey ho hselected
    · exact find?_updateWhere_fence _ (·.deliverAt_outboxId now) hdelivery hfence

theorem recordFailure_spec {error : String} {row : DeliveryRow}
    (h : db.recordFailure dialect claim error now = .ok (row, db')) :
    StoreMoves dialect.token published db db' := by
  unfold OutboxDb.recordFailure at h
  simp only [bind_eq_ok] at h
  obtain ⟨_, -, joined, hjoined, h⟩ := h
  obtain ⟨hsource, hdelivery⟩ := joinedRow_eq_ok hjoined
  have hbefore : StoreMoves dialect.token published db (db.expireLeases now) :=
    expireLeases_moves now
  split at h
  · cases h
    exact hbefore
  · simp only [bind_eq_ok, refuse_eq_ok, Bool.not_eq_false'] at h
    obtain ⟨_, hfence, next, hnext, _, -, written, -, h⟩ := h
    cases h
    refine hbefore.trans (StoreMoves.one (entry_eq_some_iff.mpr ⟨hsource, hdelivery⟩)
      (.fail joined.1 joined.2 (String.ofList (error.toList.take 1000)) now next
        (holdsFence_leased hfence).1 hnext) ?_ ?_)
    · intro j
      split
      · rename_i hj
        rw [hj]
        exact hsource
      · rfl
    · exact find?_updateWhere_fence _ (·.failWith_outboxId next _) hdelivery hfence

theorem append_spec {fact : OutboxFact γ} {policy : OutboxRetryPolicy} {createdAt : Int}
    (h : db.append dialect fact policy createdAt = .ok db') :
    db.source.find? fact.outboxId = none ∧
      (∀ j, db'.source.find? j =
        if j = fact.outboxId then some ⟨fact, none⟩ else db.source.find? j) ∧
      (∀ j, j ≠ fact.outboxId → db'.deliveries.find? j = db.deliveries.find? j) ∧
      (db'.deliveries.find? fact.outboxId = db.deliveries.find? fact.outboxId ∨
        db'.deliveries.find? fact.outboxId = some (discovered policy createdAt ⟨fact, none⟩)) := by
  obtain ⟨_, -, h⟩ := bind_eq_ok.mp h
  cases hsource : db.source.insert? (⟨fact, none⟩ : SourceRow γ) with
  | none =>
    simp only [hsource] at h
    cases h
  | some source =>
    have hfresh := (KeyedTable.insert?_eq_some hsource).1
    have hrows := find?_of_insert? hsource
    simp only [hsource] at h
    split at h
    · split at h
      · cases h
      · rename_i deliveries hdeliveries
        cases h
        have hdeliveryRows := find?_of_insert? hdeliveries
        refine ⟨hfresh, hrows, ?_, .inr ?_⟩
        · intro j hj
          exact (hdeliveryRows j).trans (if_neg hj)
        · exact (hdeliveryRows fact.outboxId).trans (if_pos rfl)
    · cases h
      exact ⟨hfresh, hrows, fun _ _ => rfl, .inl rfl⟩

/-- A publication adds an undelivered entry, enrolled or not. -/
theorem append_keeps {fact : OutboxFact γ} {policy : OutboxRetryPolicy} {createdAt : Int}
    (happended : db.append dialect fact policy createdAt = .ok db')
    (hsound : ∀ outboxId e, db.entry outboxId = some e → EntrySound token published e)
    (housed : ∀ outboxId, db.source.find? outboxId = none →
      db.deliveries.find? outboxId = none) :
    (∀ outboxId e, db'.entry outboxId = some e → EntrySound token published e) ∧
      ∀ outboxId, db'.source.find? outboxId = none → db'.deliveries.find? outboxId = none := by
  obtain ⟨hfresh, hsource, hothers, hnew⟩ := append_spec happended
  refine ⟨fun outboxId e he => ?_, fun outboxId hnone => ?_⟩
  · obtain ⟨hrow, hdelivery⟩ := entry_eq_some_iff.mp he
    rw [hsource] at hrow
    split at hrow
    · rename_i hid
      subst hid
      obtain ⟨o, d⟩ := e
      cases hrow
      have hundelivered : EntrySound token published ((⟨fact, none⟩, none) : Entry γ) := rfl
      rcases hnew with hnew | hnew
      · rw [hnew, housed _ hfresh] at hdelivery
        cases hdelivery
        exact hundelivered
      · rw [hnew] at hdelivery
        cases hdelivery
        exact (EntryMove.discover _ policy createdAt).sound hundelivered
    · rename_i hne
      rw [hothers outboxId hne] at hdelivery
      exact hsound outboxId e (entry_eq_some_iff.mpr ⟨hrow, hdelivery⟩)
  · rw [hsource] at hnone
    split at hnone
    · cases hnone
    · rename_i hne
      rw [hothers outboxId hne]
      exact housed outboxId hnone

theorem stale_claim_refused {o : SourceRow γ} {d : DeliveryRow}
    (htoken : dialect.token claim.message.outboxId d.leaseEpoch =
      dialect.token claim.message.outboxId claim.delivery.leaseEpoch →
        d.leaseEpoch = claim.delivery.leaseEpoch)
    (htext : ∀ stored given, dialect.sameText (some stored) given = true → stored = given)
    (hclaim : claim.delivery.fencingToken =
      some (dialect.token claim.message.outboxId claim.delivery.leaseEpoch))
    (ho : db.source.find? claim.message.outboxId = some o)
    (hd : db.deliveries.find? claim.message.outboxId = some d)
    (hsound : EntrySound dialect.token published (o, some d))
    (hstale : claim.delivery.leaseEpoch ≠ d.leaseEpoch) (now : Int) :
    (∃ e, db.acknowledge dialect claim now = .error e) ∧
      ∀ error, ∃ e, db.recordFailure dialect claim error now = .error e := by
  have hmoves : EntryMoves dialect.token published (o, some d) (o, some (d.expired now)) := by
    by_cases hlapsed : d.lapsed now = true
    · exact .single (.expire o d now hlapsed)
    · have hsame : d.expired now = d := by
        unfold DeliveryRow.expired
        rw [if_neg hlapsed]
      rw [hsame]
  obtain ⟨hrow, -, -, -⟩ := hmoves.sound hsound
  have hepoch : (d.expired now).leaseEpoch = d.leaseEpoch := by
    unfold DeliveryRow.expired
    split_ifs <;> rfl
  have hid : (d.expired now).outboxId = claim.message.outboxId := by
    have hid' : d.outboxId = claim.message.outboxId := key_of_find? hd
    rw [← hid']
    unfold DeliveryRow.expired
    split_ifs <;> rfl
  have hjoined : (db.expireLeases now).joinedRow dialect claim.message.outboxId =
      .ok (o, d.expired now) := by
    have hd' : (db.expireLeases now).deliveries.find? claim.message.outboxId =
        some (d.expired now) := by
      rw [find?_expireLeases, hd, Option.map_some]
    have ho' : (db.expireLeases now).source.find? claim.message.outboxId = some o := ho
    unfold OutboxDb.joinedRow
    rw [ho', hd']
  have hfence : (d.expired now).holdsFence claim = false := by
    rw [← not_eq_true]
    intro hfence
    exact hstale ((holdsFence_leased hfence).2.symm.trans hepoch)
  -- a row that is not pending carries the token of its own epoch
  have hreplay : (d.expired now).status ≠ .pending →
      dialect.sameToken (d.expired now).fencingToken claim.delivery.fencingToken = false := by
    intro hstatus
    have hpositive : 0 < (d.expired now).leaseEpoch :=
      Nat.pos_of_ne_zero fun hzero => hstatus (hrow.pending.mpr hzero)
    rw [← not_eq_true, hclaim, hrow.fenced hpositive, hid, hepoch]
    intro hsame
    exact hstale (htoken (htext _ _ hsame)).symm
  refine ⟨?_, ?_⟩
  · unfold OutboxDb.acknowledge
    have hno : ((d.expired now).status == .delivered &&
        dialect.sameToken (d.expired now).fencingToken claim.delivery.fencingToken) = false := by
      by_cases hstatus : (d.expired now).status = .delivered
      · rw [hreplay (by rw [hstatus]; decide), Bool.and_false]
      · rw [beq_eq_false_iff_ne.mpr hstatus, Bool.false_and]
    simp only [hjoined, ok_bind, hno, hfence]
    exact ⟨_, rfl⟩
  · intro error
    unfold OutboxDb.recordFailure
    by_cases hempty : error = ""
    · subst hempty
      exact ⟨_, rfl⟩
    · have hno : (((d.expired now).status == .retryWait || (d.expired now).status == .deadLetter) &&
          dialect.sameToken (d.expired now).fencingToken claim.delivery.fencingToken &&
          dialect.sameText (d.expired now).lastError (String.ofList (error.toList.take 1000))) =
          false := by
        by_cases hstatus : (d.expired now).status = .pending
        · simp [hstatus]
        · rw [hreplay hstatus, Bool.and_false, Bool.false_and]
      have hnonempty : (error == "") = false := beq_eq_false_iff_ne.mpr hempty
      simp only [hnonempty, hjoined, ok_bind, hno, hfence]
      exact ⟨_, rfl⟩

end Transactions

end Robata.Outbox
