import Robata.Lib.TableRelation
import Robata.Outbox.Enrolment

/-!
# Two stores, one protocol

The primary and the stream store hold different source columns, derive their fencing
tokens from different names and enrol a source row at different times.  Up to that, a
state of one matches a state of the other, and every operation of the delivery protocol
takes matching states to matching states with matching results.
-/

namespace Robata.Outbox

open Lib
open KeyedTable (Agree)

/-! ## Matching results -/

/-- Both returned related values, or both raised an exception of one class. -/
inductive ResultMatch {α β : Type} (Q : α → β → Prop) :
    Except OutboxError α → Except OutboxError β → Prop
  | ok {a : α} {b : β} (h : Q a b) : ResultMatch Q (.ok a) (.ok b)
  | value (m m' : String) : ResultMatch Q (.error (.value m)) (.error (.value m'))
  | delivery (m m' : String) : ResultMatch Q (.error (.delivery m)) (.error (.delivery m'))
  | fence (m m' : String) : ResultMatch Q (.error (.fence m)) (.error (.fence m'))

namespace ResultMatch

variable {α β α' β' : Type} {Q : α → β → Prop} {Q' : α' → β' → Prop}

theorem bind {x : Except OutboxError α} {y : Except OutboxError β} {f : α → Except OutboxError α'}
    {g : β → Except OutboxError β'} (h : ResultMatch Q x y)
    (hfg : ∀ a b, Q a b → ResultMatch Q' (f a) (g b)) : ResultMatch Q' (x >>= f) (y >>= g) := by
  cases h with
  | ok hab => exact hfg _ _ hab
  | value m m' => exact .value m m'
  | delivery m m' => exact .delivery m m'
  | fence m m' => exact .fence m m'

theorem refl (x : Except OutboxError α) : ResultMatch Eq x x := by
  cases x with
  | ok a => exact .ok rfl
  | error e =>
    cases e with
    | value m => exact .value m m
    | delivery m => exact .delivery m m
    | fence m => exact .fence m m

theorem strengthen {x : Except OutboxError α} {y : Except OutboxError β} {Q₁ : α → β → Prop}
    (h : ResultMatch Q x y) (hq : ∀ a b, x = .ok a → y = .ok b → Q a b → Q₁ a b) :
    ResultMatch Q₁ x y := by
  cases h with
  | ok hab => exact .ok (hq _ _ rfl rfl hab)
  | value m m' => exact .value m m'
  | delivery m m' => exact .delivery m m'
  | fence m m' => exact .fence m m'

theorem of_map {f : α → α'} {x : Except OutboxError α} {y : Except OutboxError β}
    {Q' : α' → β → Prop} (h : ResultMatch Q' (f <$> x) y) :
    ResultMatch (fun a b => Q' (f a) b) x y := by
  cases x with
  | ok a =>
    cases h with
    | ok hab => exact .ok hab
  | error e =>
    cases h with
    | value m m' => exact .value m m'
    | delivery m m' => exact .delivery m m'
    | fence m m' => exact .fence m m'

theorem refuse {found found' : Bool} {e e' : OutboxError} (hsame : found = found')
    (herror : ResultMatch (fun _ _ => True) (.error e : Except OutboxError Unit)
      (.error e' : Except OutboxError Unit)) :
    ResultMatch (fun _ _ => True) (Outbox.refuse found e) (Outbox.refuse found' e') := by
  subst hsame
  cases found with
  | false => exact .ok trivial
  | true => exact herror

end ResultMatch

/-! ## Matching rows -/

variable {codec : Codec}

/-- The token of an epoch; before the first lease there is none. -/
def tokenAt (token : String → Nat → String) (outboxId : String) (epoch : Nat) : Option String :=
  if epoch = 0 then none else some (token outboxId epoch)

/-- The row has not come out of its first attempt. -/
def DeliveryRow.InFirstAttempt (row : DeliveryRow) : Prop :=
  (row.status = .pending ∧ row.leaseEpoch = 0) ∨ (row.status = .leased ∧ row.leaseEpoch = 1)

/-- The same delivery row, each with its own store's token.  The stream store enrols a row
when it is published, the primary store in its next claim: until the first attempt ends,
the time of the next may be earlier in the stream store. -/
def DeliveryMatch (codec : Codec) (a b : DeliveryRow) : Prop :=
  a.fencingToken = tokenAt (primaryStore codec).token a.outboxId a.leaseEpoch ∧
    ∃ next, b = { a with
      fencingToken := tokenAt (streamStore codec).token a.outboxId a.leaseEpoch
      nextAttemptAt := next } ∧
    next ≤ a.nextAttemptAt ∧ (next = a.nextAttemptAt ∨ a.InFirstAttempt)

/-- Matching rows under the policy of both stores; what waits for its first attempt is due. -/
structure RowMatch (codec : Codec) (policy : OutboxRetryPolicy) (clock : Int) (a b : DeliveryRow) :
    Prop where
  delivery : DeliveryMatch codec a b
  policy : a.retryPolicy = policy
  due : a.status = .pending → a.nextAttemptAt ≤ clock

/-- The same message; the stream store has no recording identity of its own. -/
def MessageMatch (m m' : OutboxMessage) : Prop :=
  m' = { m with recordingIdentity := m'.recordingIdentity }

/-- Source rows with the same place in the order, from which the stores read the same
message or none. -/
structure SourceMatch (codec : Codec) (o : SourceRow PrimaryContent) (o' : SourceRow StreamContent) :
    Prop where
  outboxId : o.fact.outboxId = o'.fact.outboxId
  scope : o.fact.scope = o'.fact.scope
  outboxOrdinal : o.fact.outboxOrdinal = o'.fact.outboxOrdinal
  deliveredAt : o.deliveredAt = o'.deliveredAt
  messages : ResultMatch MessageMatch (primaryMessage codec o.fact) (streamMessage codec o'.fact)

/-- Claims of the same row and epoch. -/
structure ClaimMatch (codec : Codec) (c c' : OutboxDeliveryClaim) : Prop where
  message : MessageMatch c.message c'.message
  delivery : DeliveryMatch codec c.delivery c'.delivery

/-- The tables match row by row. -/
structure DbAgree (codec : Codec) (policy : OutboxRetryPolicy) (clock : Int)
    (db : OutboxDb PrimaryContent) (db' : OutboxDb StreamContent) : Prop where
  source : Agree (SourceMatch codec) db.source db'.source
  deliveries : Agree (RowMatch codec policy clock) db.deliveries db'.deliveries

/-- Matching databases in which every source row has been enrolled, at the time of the clock
if not before, and which satisfy the invariant of the protocol. -/
structure DbMatch (codec : Codec) (policy : OutboxRetryPolicy) (clock : Int)
    (db : OutboxDb PrimaryContent) (db' : OutboxDb StreamContent) : Prop
    extends DbAgree codec policy clock db db' where
  sound : ∀ outboxId e, db.entry outboxId = some e →
    EntrySound (primaryStore codec).token (fun _ => True) e
  enrolled : db.Enrolled

section Rows

variable {a b : DeliveryRow} {c c' : OutboxDeliveryClaim} {policy : OutboxRetryPolicy}
  {clock now : Int} {limit : Nat}

section

variable (h : DeliveryMatch codec a b)
include h

theorem DeliveryMatch.outboxId : a.outboxId = b.outboxId := by
  obtain ⟨-, next, rfl, -⟩ := h
  rfl

theorem DeliveryMatch.status : a.status = b.status := by
  obtain ⟨-, next, rfl, -⟩ := h
  rfl

theorem DeliveryMatch.lapsed (now : Int) : a.lapsed now = b.lapsed now := by
  obtain ⟨-, next, rfl, -⟩ := h
  rfl

theorem DeliveryMatch.afterFailure (now : Int) :
    ResultMatch Eq (a.afterFailure now) (b.afterFailure now) := by
  obtain ⟨-, next, rfl, -⟩ := h
  exact .refl _

theorem DeliveryMatch.sameText (herror : a.lastError.isSome)
    (text : String) : (primaryStore codec).sameText a.lastError text =
      (streamStore codec).sameText b.lastError text := by
  obtain ⟨-, next, rfl, -⟩ := h
  obtain ⟨stored, hstored⟩ := Option.isSome_iff_exists.mp herror
  show (a.lastError.getD "None" == text) = (a.lastError == some text)
  rw [hstored]
  simp

end

section

variable (h : RowMatch codec policy clock a b)
include h

/-- The end of an attempt sets the time of the next one, which then is the same again. -/
theorem RowMatch.expired (now : Int) :
    RowMatch codec policy clock (a.expireFinal now) (b.expireFinal now) ∧
      RowMatch codec policy clock (a.expireRetry now) (b.expireRetry now) := by
  obtain ⟨⟨htoken, next, rfl, -⟩, hpolicy, -⟩ := h
  exact ⟨⟨⟨htoken, now, rfl, le_refl _, .inl rfl⟩, hpolicy, fun hstatus => by cases hstatus⟩,
    ⟨⟨htoken, now, rfl, le_refl _, .inl rfl⟩, hpolicy, fun hstatus => by cases hstatus⟩⟩

theorem RowMatch.deliverAt (now : Int) :
    RowMatch codec policy clock (a.deliverAt now) (b.deliverAt now) := by
  obtain ⟨⟨htoken, next, rfl, -⟩, hpolicy, -⟩ := h
  exact ⟨⟨htoken, now, rfl, le_refl _, .inl rfl⟩, hpolicy, fun hstatus => by cases hstatus⟩

theorem RowMatch.failWith {next : OutboxDeliveryStatus × Int × Option Int}
    (hstatus : next.1 ≠ .pending) (error : String) :
    RowMatch codec policy clock (a.failWith next error) (b.failWith next error) := by
  obtain ⟨⟨htoken, _, rfl, -⟩, hpolicy, -⟩ := h
  exact ⟨⟨htoken, next.2.1, rfl, le_refl _, .inl rfl⟩, hpolicy,
    fun hpending => absurd hpending hstatus⟩

/-- A lease keeps the time of the next attempt: where the stores differ on it, the attempt
is the first. -/
theorem RowMatch.leaseTo (hclaimable : a.claimable = true) (attemptCount : Nat)
    (workerId : String) (expiry : Int) :
    RowMatch codec policy clock
      (a.leaseTo attemptCount (a.leaseEpoch + 1)
        ((primaryStore codec).token a.outboxId (a.leaseEpoch + 1)) workerId expiry)
      (b.leaseTo attemptCount (a.leaseEpoch + 1)
        ((streamStore codec).token a.outboxId (a.leaseEpoch + 1)) workerId expiry) := by
  obtain ⟨⟨-, next, rfl, hle, hnext⟩, hpolicy, -⟩ := h
  refine ⟨⟨rfl, next, rfl, hle, hnext.imp_right ?_⟩, hpolicy, fun hstatus => by cases hstatus⟩
  rintro (⟨-, hepoch⟩ | ⟨hleased, -⟩)
  · exact .inr ⟨rfl, congrArg (· + 1) hepoch⟩
  · rcases claimable_iff.mp hclaimable with hstatus | hstatus
    all_goals
      rw [hleased] at hstatus
      cases hstatus

theorem RowMatch.dueAt : (a.claimable = true ∧ a.nextAttemptAt ≤ clock) ↔
    (b.claimable = true ∧ b.nextAttemptAt ≤ clock) := by
  obtain ⟨⟨-, next, rfl, hle, hnext⟩, -, hdue⟩ := h
  refine and_congr_right fun hclaimable => ⟨hle.trans, fun hb => ?_⟩
  rcases hnext with rfl | ⟨hpending, -⟩ | ⟨hleased, -⟩
  · exact hb
  · exact hdue hpending
  · rcases claimable_iff.mp hclaimable with hstatus | hstatus
    all_goals
      rw [hleased] at hstatus
      cases hstatus

end

theorem MessageMatch.outboxId {m m' : OutboxMessage} (h : MessageMatch m m') :
    m.outboxId = m'.outboxId := by
  rw [h]

theorem ClaimMatch.outboxId (h : ClaimMatch codec c c') : c.message.outboxId = c'.message.outboxId :=
  h.message.outboxId

theorem ClaimMatch.tokens (h : ClaimMatch codec c c') :
    c.delivery.fencingToken =
        some ((primaryStore codec).token c.message.outboxId c.delivery.leaseEpoch) ∧
      c'.delivery.fencingToken =
        some ((streamStore codec).token c.message.outboxId c.delivery.leaseEpoch) ∧
      c'.delivery.leaseEpoch = c.delivery.leaseEpoch ∧
      c'.delivery.claimedBy = c.delivery.claimedBy := by
  obtain ⟨htoken, next, hrow, -⟩ := h.delivery
  have hpositive : c.delivery.leaseEpoch ≠ 0 := by
    intro hzero
    have hsome := c.fenced
    rw [htoken, tokenAt, if_pos hzero] at hsome
    cases hsome
  rw [c.sameId, htoken, hrow]
  simp only [tokenAt, if_neg hpositive, and_self]

theorem DeliveryMatch.holdsFence (h : DeliveryMatch codec a b) (hclaim : ClaimMatch codec c c')
    (hid : a.outboxId = c.message.outboxId) : a.holdsFence c = b.holdsFence c' := by
  obtain ⟨htoken₁, htoken₂, hepoch, hclaimed⟩ := hclaim.tokens
  obtain ⟨htoken, next, rfl, -⟩ := h
  unfold DeliveryRow.holdsFence
  simp only [htoken, htoken₁, htoken₂, hepoch, hclaimed]
  by_cases hsame : a.leaseEpoch = c.delivery.leaseEpoch
  · rw [hsame, hid]
    by_cases hzero : c.delivery.leaseEpoch = 0
    · simp [tokenAt, hzero]
    · simp [tokenAt, hzero]
  · rw [beq_eq_false_iff_ne.mpr hsame]
    simp

theorem DeliveryMatch.sameToken (hprimary : Fences (primaryStore codec) limit)
    (hstream : Fences (streamStore codec) limit) (h : DeliveryMatch codec a b)
    (hclaim : ClaimMatch codec c c') (hid : a.outboxId = c.message.outboxId)
    (hpositive : a.leaseEpoch ≠ 0) (hepoch : a.leaseEpoch ≤ limit)
    (hclaimEpoch : c.delivery.leaseEpoch ≤ limit) :
    (primaryStore codec).sameToken a.fencingToken c.delivery.fencingToken =
      (streamStore codec).sameToken b.fencingToken c'.delivery.fencingToken := by
  obtain ⟨htoken₁, htoken₂, -, -⟩ := hclaim.tokens
  obtain ⟨htoken, next, rfl, -⟩ := h
  simp only [htoken, htoken₁, htoken₂, tokenAt, if_neg hpositive, hid]
  show ((primaryStore codec).token _ _ == (primaryStore codec).token _ _) =
    (some ((streamStore codec).token _ _) == some ((streamStore codec).token _ _))
  rw [Bool.eq_iff_iff, beq_iff_eq, beq_iff_eq, Option.some.injEq]
  constructor
  · intro hsame
    rw [hprimary.token _ _ _ hepoch hclaimEpoch hsame]
  · intro hsame
    rw [hstream.token _ _ _ hepoch hclaimEpoch hsame]

end Rows

/-! ## The statements -/

section Statements

variable {db : OutboxDb PrimaryContent} {db' : OutboxDb StreamContent}
  {policy : OutboxRetryPolicy} {clock : Int}

theorem DbAgree.ofTables {source : KeyedTable (SourceRow PrimaryContent) String _}
    {source' : KeyedTable (SourceRow StreamContent) String _}
    {deliveries deliveries' : KeyedTable DeliveryRow String _}
    (hsource : Agree (SourceMatch codec) source source')
    (hdeliveries : Agree (RowMatch codec policy clock) deliveries deliveries') :
    DbAgree codec policy clock ⟨source, deliveries⟩ ⟨source', deliveries'⟩ :=
  ⟨hsource, hdeliveries⟩

theorem DbMatch.moved {db₁ : OutboxDb PrimaryContent} {db₁' : OutboxDb StreamContent}
    (h : DbMatch codec policy clock db db')
    (hmoves : StoreMoves (primaryStore codec).token (fun _ => True) db db₁)
    (hagree : DbAgree codec policy clock db₁ db₁') : DbMatch codec policy clock db₁ db₁' :=
  ⟨hagree, hmoves.sound h.sound, h.enrolled.moved hmoves⟩

/-- A method of both stores: the tables it leaves agree, and the moves of one of them keep what
`DbMatch` asks for beyond that. -/
theorem DbMatch.result {α β : Type} {R : α → β → Prop}
    {x : Except OutboxError (α × OutboxDb PrimaryContent)}
    {y : Except OutboxError (β × OutboxDb StreamContent)} (h : DbMatch codec policy clock db db')
    (hmoves : ∀ {r db₁}, x = .ok (r, db₁) →
      StoreMoves (primaryStore codec).token (fun _ => True) db db₁)
    (hagree : ResultMatch (fun r r' => R r.1 r'.1 ∧ DbAgree codec policy clock r.2 r'.2) x y) :
    ResultMatch (fun r r' => R r.1 r'.1 ∧ DbMatch codec policy clock r.2 r'.2) x y := by
  refine hagree.strengthen ?_
  rintro ⟨r, db₁⟩ ⟨r', db₁'⟩ hreturned _ ⟨hresult, hdb⟩
  exact ⟨hresult, h.moved (hmoves hreturned) hdb⟩

theorem SourceMatch.discovered {o : SourceRow PrimaryContent} {o' : SourceRow StreamContent}
    (h : SourceMatch codec o o') (policy : OutboxRetryPolicy) (now : Int) :
    RowMatch codec policy now (discovered policy now o) (discovered policy now o') := by
  refine ⟨⟨rfl, _, ?_, le_refl _, .inl rfl⟩, rfl, ?_⟩
  · unfold Outbox.discovered
    rw [h.outboxId, h.deliveredAt]
    rfl
  · unfold Outbox.discovered
    cases o.deliveredAt with
    | none => exact fun _ => le_refl now
    | some time => exact fun hstatus => by cases hstatus

theorem DbMatch.discover (h : DbMatch codec policy clock db db') :
    DbMatch codec policy clock (db.discover policy clock) (db'.discover policy clock) := by
  refine h.moved (discover_moves policy clock) ⟨h.source, ?_⟩
  exact Agree.insertMissing (fun _ _ hab => hab.delivery.outboxId)
    (fun _ _ ho => ho.discovered policy clock) h.source h.deliveries

theorem DbMatch.expireLeases (h : DbMatch codec policy clock db db') (now : Int) :
    DbMatch codec policy clock (db.expireLeases now) (db'.expireLeases now) := by
  refine h.moved (expireLeases_moves now) ⟨h.source, ?_⟩
  have hselects : ∀ (p : DeliveryRow → Bool), (∀ a b, DeliveryMatch codec a b → p a = p b) →
      ∀ a b, RowMatch codec policy clock a b →
        (a.lapsed now && p a) = (b.lapsed now && p b) := by
    intro p hp a b hab
    rw [hab.delivery.lapsed now, hp a b hab.delivery]
  refine (h.deliveries.updateWhere (·.expireFinal_outboxId now)
    (·.expireFinal_outboxId now) (hselects _ ?_) ?_).updateWhere
      (·.expireRetry_outboxId now) (·.expireRetry_outboxId now)
      (hselects _ ?_) ?_
  · rintro a b ⟨-, next, rfl, -⟩
    rfl
  · exact fun a b hab _ => (hab.expired now).1
  · rintro a b ⟨-, next, rfl, -⟩
    rfl
  · exact fun a b hab _ => (hab.expired now).2

theorem DbAgree.delivery (h : DbAgree codec policy clock db db') (outboxId : String) :
    Option.Rel (RowMatch codec policy clock) (db.deliveries.find? outboxId)
      (db'.deliveries.find? outboxId) :=
  h.deliveries.find? (fun _ _ hab => hab.delivery.outboxId) outboxId

theorem DbAgree.candidates (h : DbAgree codec policy clock db db') :
    db.candidates clock = db'.candidates clock := by
  refine filterMap_eq_of_forall₂ h.source ?_
  intro o o' ho
  rw [ho.outboxId, ho.scope, ho.outboxOrdinal, ho.deliveredAt]
  have hrel := h.delivery o'.fact.outboxId
  generalize db.deliveries.find? o'.fact.outboxId = d at hrel ⊢
  generalize db'.deliveries.find? o'.fact.outboxId = d' at hrel ⊢
  cases hrel with
  | none => rfl
  | @some d d' hmatch =>
    have hdue := hmatch.dueAt
    obtain ⟨⟨-, next, rfl, -⟩, -⟩ := hmatch
    simp only [hdue]

theorem DbAgree.joinedRow (h : DbAgree codec policy clock db db') (outboxId : String) :
    ResultMatch (fun j j' => SourceMatch codec j.1 j'.1 ∧ RowMatch codec policy clock j.2 j'.2)
      (db.joinedRow (primaryStore codec) outboxId)
      (db'.joinedRow (streamStore codec) outboxId) := by
  have hsource := h.source.find? (fun _ _ hab => hab.outboxId) outboxId
  have hdelivery := h.delivery outboxId
  unfold OutboxDb.joinedRow
  generalize db.deliveries.find? outboxId = d at hdelivery ⊢
  generalize db'.deliveries.find? outboxId = d' at hdelivery ⊢
  generalize db.source.find? outboxId = o at hsource ⊢
  generalize db'.source.find? outboxId = o' at hsource ⊢
  cases hsource with
  | none => exact .delivery _ _
  | some hsourceMatch =>
    cases hdelivery with
    | none => exact .delivery _ _
    | some hdeliveryMatch => exact .ok ⟨hsourceMatch, hdeliveryMatch⟩

theorem DbMatch.joinedRow (h : DbMatch codec policy clock db db') (outboxId : String) :
    ResultMatch (fun j j' => RowMatch codec policy clock j.2 j'.2 ∧ j.2.outboxId = outboxId ∧
        DeliverySound (primaryStore codec).token j.2)
      (db.joinedRow (primaryStore codec) outboxId)
      (db'.joinedRow (streamStore codec) outboxId) := by
  refine (h.toDbAgree.joinedRow outboxId).strengthen ?_
  intro j j' hj _ hmatch
  obtain ⟨hsource, hdelivery⟩ := joinedRow_eq_ok hj
  have hsound := h.sound outboxId (j.1, some j.2) (entry_eq_some_iff.mpr ⟨hsource, hdelivery⟩)
  exact ⟨hmatch.2, KeyedTable.key_of_find? hdelivery, hsound.1⟩

theorem DeliveryMatch.selected {a b : DeliveryRow} {c c' : OutboxDeliveryClaim}
    (h : DeliveryMatch codec a b) (hclaim : ClaimMatch codec c c') :
    (a.outboxId == c.message.outboxId && a.holdsFence c) =
      (b.outboxId == c.message.outboxId && b.holdsFence c') := by
  rw [← h.outboxId]
  by_cases hid : a.outboxId = c.message.outboxId
  · rw [h.holdsFence hclaim hid]
  · rw [beq_eq_false_iff_ne.mpr hid, Bool.false_and, Bool.false_and]

end Statements

/-! ## The methods -/

section Methods

variable {db : OutboxDb PrimaryContent} {db' : OutboxDb StreamContent} {c c' : OutboxDeliveryClaim}
  {policy : OutboxRetryPolicy} {clock : Int} {limit : Nat}

theorem makeClaim_match {m m' : OutboxMessage} {d d' : DeliveryRow} (hm : MessageMatch m m')
    (hd : DeliveryMatch codec d d') :
    (∃ claim claim', makeClaim m d = .ok claim ∧ makeClaim m' d' = .ok claim' ∧
        ClaimMatch codec claim claim') ∨
      (∃ text, makeClaim m d = .error text ∧ makeClaim m' d' = .error text) := by
  obtain ⟨htoken, next, rfl, hnext⟩ := hd
  unfold makeClaim
  simp only [← hm.outboxId]
  by_cases hid : m.outboxId = d.outboxId
  · rw [dif_pos hid, dif_pos hid]
    by_cases hzero : d.leaseEpoch = 0
    · right
      refine ⟨_, dif_neg ?_, dif_neg ?_⟩
      · simp [htoken, tokenAt, hzero]
      · simp [tokenAt, hzero]
    · by_cases hleased : d.status = .leased
      · left
        refine ⟨_, _, dif_pos ⟨hleased, ?_⟩, dif_pos ⟨hleased, ?_⟩, hm, htoken, next, rfl, hnext⟩
        · simp [htoken, tokenAt, hzero]
        · simp [tokenAt, hzero]
      · right
        refine ⟨_, dif_neg ?_, dif_neg ?_⟩
        · exact fun h => hleased h.1
        · exact fun h => hleased h.1
  · rw [dif_neg hid, dif_neg hid]
    exact .inr ⟨_, rfl, rfl⟩

theorem DbMatch.claim (h : DbMatch codec policy clock db db') (workerId : String)
    (leaseDuration : Int) :
    ResultMatch (fun r r' => Option.Rel (ClaimMatch codec) r.1 r'.1 ∧
        DbMatch codec policy clock r.2 r'.2)
      (db.claim (primaryStore codec) policy workerId leaseDuration clock)
      (db'.claim (streamStore codec) policy workerId leaseDuration clock) := by
  have hready : DbMatch codec policy clock ((db.discover policy clock).expireLeases clock)
      ((db'.discover policy clock).expireLeases clock) := h.discover.expireLeases clock
  refine h.result (fun hclaimed => (claim_spec _ hclaimed).1) ?_
  refine (ResultMatch.refuse rfl (.value _ _)).bind fun _ _ _ => ?_
  refine (ResultMatch.refuse rfl (.value _ _)).bind fun _ _ _ => ?_
  dsimp only
  rw [← hready.toDbAgree.candidates]
  generalize (((db.discover policy clock).expireLeases clock).candidates clock |>.insertionSort
    Candidate.before).head? = head
  cases head with
  | none => exact .ok ⟨.none, hready.toDbAgree⟩
  | some candidate =>
    have hselects : ∀ a b, RowMatch codec policy clock a b →
        (a.outboxId == candidate.outboxId && a.claimable &&
            a.leaseEpoch == candidate.leaseEpoch) =
          (b.outboxId == candidate.outboxId && b.claimable &&
            b.leaseEpoch == candidate.leaseEpoch) := by
      rintro a b ⟨⟨-, next, rfl, -⟩, -⟩
      rfl
    have hleased := hready.deliveries.updateWhere
      (fun row => row.leaseTo_outboxId (candidate.attemptCount + 1) (candidate.leaseEpoch + 1)
        ((primaryStore codec).token candidate.outboxId (candidate.leaseEpoch + 1)) workerId
        (clock + leaseDuration))
      (fun row => row.leaseTo_outboxId (candidate.attemptCount + 1) (candidate.leaseEpoch + 1)
        ((streamStore codec).token candidate.outboxId (candidate.leaseEpoch + 1)) workerId
        (clock + leaseDuration)) hselects ?_
    · refine (ResultMatch.refuse ?_ (.delivery _ _)).bind fun _ _ _ => ?_
      · rw [hready.deliveries.rowcount hselects]
      have hdb := DbAgree.ofTables hready.source hleased
      refine (hdb.joinedRow candidate.outboxId).bind ?_
      rintro j j' ⟨hsource, hrow⟩
      refine hsource.messages.bind ?_
      intro m m' hm
      rcases makeClaim_match hm hrow.delivery with
        ⟨claim, claim', hclaim, hclaim', hmatch⟩ | ⟨text, herror, herror'⟩
      · simp only [hclaim, hclaim']
        exact .ok ⟨.some hmatch, hdb⟩
      · simp only [herror, herror']
        exact .delivery _ _
    · intro a b hab hselected
      simp only [Bool.and_eq_true, beq_iff_eq] at hselected
      obtain ⟨⟨hid, hclaimable⟩, hepoch⟩ := hselected
      rw [← hid, ← hepoch]
      exact hab.leaseTo hclaimable _ workerId _

theorem DbMatch.acknowledge (hprimary : Fences (primaryStore codec) policy.maxAttempts)
    (hstream : Fences (streamStore codec) policy.maxAttempts)
    (h : DbMatch codec policy clock db db') (hclaim : ClaimMatch codec c c')
    (hepoch : c.delivery.leaseEpoch ≤ policy.maxAttempts) (now : Int) :
    ResultMatch (fun r r' => DeliveryMatch codec r.1 r'.1 ∧ DbMatch codec policy clock r.2 r'.2)
      (db.acknowledge (primaryStore codec) c now)
      (db'.acknowledge (streamStore codec) c' now) := by
  have hready := h.expireLeases now
  refine h.result (fun hacknowledged => acknowledge_spec hacknowledged trivial) ?_
  unfold OutboxDb.acknowledge
  rw [← hclaim.outboxId]
  refine (hready.joinedRow c.message.outboxId).bind ?_
  rintro j j' ⟨hrow, hid, hsound⟩
  have hdelivery := hrow.delivery
  have hbounded : j.2.leaseEpoch ≤ policy.maxAttempts := hrow.policy ▸ hsound.bounded
  -- a delivered row has been leased, so both stores look for the token of its epoch
  have hreplay : (j.2.status == .delivered &&
        (primaryStore codec).sameToken j.2.fencingToken c.delivery.fencingToken) =
      (j'.2.status == .delivered &&
        (streamStore codec).sameToken j'.2.fencingToken c'.delivery.fencingToken) := by
    rw [← hdelivery.status]
    by_cases hstatus : j.2.status = .delivered
    · rw [hdelivery.sameToken hprimary hstream hclaim hid ?_ hbounded hepoch]
      intro hzero
      rw [hsound.pending.mpr hzero] at hstatus
      cases hstatus
    · rw [beq_eq_false_iff_ne.mpr hstatus, Bool.false_and, Bool.false_and]
  rw [hreplay]
  split
  · exact .ok ⟨hdelivery, hready.toDbAgree⟩
  · refine (ResultMatch.refuse ?_ (.fence _ _)).bind fun _ _ _ => ?_
    · rw [hdelivery.holdsFence hclaim hid]
    have hselects := fun a b (hab : RowMatch codec policy clock a b) =>
      hab.delivery.selected hclaim
    refine (ResultMatch.refuse ?_ (.fence _ _)).bind fun _ _ _ => ?_
    · rw [hready.deliveries.rowcount hselects]
    have hundelivered : ∀ a b, SourceMatch codec a b →
        (a.fact.outboxId == c.message.outboxId && a.deliveredAt.isNone) =
          (b.fact.outboxId == c.message.outboxId && b.deliveredAt.isNone) := by
      intro a b hab
      rw [hab.outboxId, hab.deliveredAt]
    refine (ResultMatch.refuse ?_ (.delivery _ _)).bind fun _ _ _ => ?_
    · rw [hready.source.rowcount hundelivered]
    have hsource := hready.source.updateWhere (·.deliverAt_outboxId now)
      (·.deliverAt_outboxId now) hundelivered
      fun a b hab _ => ⟨hab.outboxId, hab.scope, hab.outboxOrdinal, rfl, hab.messages⟩
    have hdeliveries := hready.deliveries.updateWhere (·.deliverAt_outboxId now)
      (·.deliverAt_outboxId now) hselects fun a b hab _ => hab.deliverAt now
    have hdb := DbAgree.ofTables hsource hdeliveries
    refine (hdb.joinedRow c.message.outboxId).bind ?_
    rintro w w' ⟨-, hwritten⟩
    exact .ok ⟨hwritten.delivery, hdb⟩

theorem DbMatch.recordFailure (hprimary : Fences (primaryStore codec) policy.maxAttempts)
    (hstream : Fences (streamStore codec) policy.maxAttempts)
    (h : DbMatch codec policy clock db db') (hclaim : ClaimMatch codec c c')
    (hepoch : c.delivery.leaseEpoch ≤ policy.maxAttempts) (error : String) (now : Int) :
    ResultMatch (fun r r' => DeliveryMatch codec r.1 r'.1 ∧ DbMatch codec policy clock r.2 r'.2)
      (db.recordFailure (primaryStore codec) c error now)
      (db'.recordFailure (streamStore codec) c' error now) := by
  have hready := h.expireLeases now
  refine h.result recordFailure_spec ?_
  refine (ResultMatch.refuse rfl (.value _ _)).bind fun _ _ _ => ?_
  rw [← hclaim.outboxId]
  generalize String.ofList (error.toList.take 1000) = text
  refine (hready.joinedRow c.message.outboxId).bind ?_
  rintro j j' ⟨hrow, hid, hsound⟩
  have hdelivery := hrow.delivery
  have hbounded : j.2.leaseEpoch ≤ policy.maxAttempts := hrow.policy ▸ hsound.bounded
  have hreplay : ((j.2.status == .retryWait || j.2.status == .deadLetter) &&
        (primaryStore codec).sameToken j.2.fencingToken c.delivery.fencingToken &&
        (primaryStore codec).sameText j.2.lastError text) =
      ((j'.2.status == .retryWait || j'.2.status == .deadLetter) &&
        (streamStore codec).sameToken j'.2.fencingToken c'.delivery.fencingToken &&
        (streamStore codec).sameText j'.2.lastError text) := by
    rw [← hdelivery.status]
    by_cases hstatus : j.2.status = .retryWait ∨ j.2.status = .deadLetter
    · rw [hdelivery.sameToken hprimary hstream hclaim hid ?_ hbounded hepoch,
        hdelivery.sameText (hsound.failed hstatus) text]
      intro hzero
      rw [hsound.pending.mpr hzero] at hstatus
      rcases hstatus with hstatus | hstatus <;> cases hstatus
    · rw [not_or] at hstatus
      rw [beq_eq_false_iff_ne.mpr hstatus.1, beq_eq_false_iff_ne.mpr hstatus.2]
      rfl
  rw [hreplay]
  split
  · exact .ok ⟨hdelivery, hready.toDbAgree⟩
  · refine (ResultMatch.refuse ?_ (.fence _ _)).bind fun _ _ _ => ?_
    · rw [hdelivery.holdsFence hclaim hid]
    have hfailed : ResultMatch (fun next next' => j.2.afterFailure now = .ok next ∧ next = next')
        (j.2.afterFailure now) (j'.2.afterFailure now) :=
      (hdelivery.afterFailure now).strengthen fun _ _ hnext _ heq => ⟨hnext, heq⟩
    refine hfailed.bind ?_
    rintro next _ ⟨hnext, rfl⟩
    have hpending : next.1 ≠ .pending := by
      rcases afterFailure_spec hnext with ⟨hstatus, -⟩ | ⟨hstatus, -⟩
      all_goals
        rw [hstatus]
        decide
    have hselects := fun a b (hab : RowMatch codec policy clock a b) =>
      hab.delivery.selected hclaim
    refine (ResultMatch.refuse ?_ (.fence _ _)).bind fun _ _ _ => ?_
    · rw [hready.deliveries.rowcount hselects]
    have hdeliveries := hready.deliveries.updateWhere
      (·.failWith_outboxId next text) (·.failWith_outboxId next text)
      hselects fun a b hab _ => hab.failWith hpending text
    have hdb := DbAgree.ofTables hready.source hdeliveries
    refine (hdb.joinedRow c.message.outboxId).bind ?_
    rintro w w' ⟨-, hwritten⟩
    exact .ok ⟨hwritten.delivery, hdb⟩

end Methods

end Robata.Outbox
