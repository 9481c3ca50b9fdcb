import Robata.Outbox.TwoStores

/-!
# One protocol over both stores

Sequences of publications, claims, acknowledgements and failures, over stores that have
been opened with one retry policy.  A caller names a claim by its place among the claims
it has been handed, so the same sequence can be run on both stores; as long as the clock
does not run backwards, the stores then return matching snapshots and reach matching
states.  The primary store is compared as it would be after enrolling its source rows,
which it leaves to its next claim.
-/

namespace Robata.Outbox

open Lib
open KeyedTable (Agree)

/-! ## Operation sequences -/

/-- An operation; `held` counts the claims handed out so far, the latest first. -/
inductive StoreOp (γ : Type)
  | publish (fact : OutboxFact γ) (createdAt : Int)
  | claim (workerId : String) (leaseDuration now : Int)
  | acknowledge (held : Nat) (now : Int)
  | recordFailure (held : Nat) (error : String) (now : Int)

/-- What the operation reads off the clock. -/
def StoreOp.time {γ : Type} : StoreOp γ → Int
  | .publish _ createdAt => createdAt
  | .claim _ _ now => now
  | .acknowledge _ now => now
  | .recordFailure _ _ now => now

/-- A store with the claims it has handed out. -/
structure StoreState (γ : Type) where
  db : OutboxDb γ
  claims : List OutboxDeliveryClaim

def StoreState.empty {γ : Type} : StoreState γ := ⟨⟨.empty, .empty⟩, []⟩

section Sequences

variable {γ : Type} (dialect : StoreDialect γ) (policy : OutboxRetryPolicy)

def StoreOp.perform (s : StoreState γ) :
    StoreOp γ → Except OutboxError (Option DeliveryRow × StoreState γ)
  | .publish fact createdAt => do
      let db ← s.db.append dialect fact policy createdAt
      .ok (none, { s with db := db })
  | .claim workerId leaseDuration now => do
      let claimed ← s.db.claim dialect policy workerId leaseDuration now
      .ok (claimed.1.map (·.delivery), ⟨claimed.2, claimed.1.toList ++ s.claims⟩)
  | .acknowledge held now =>
    match s.claims[held]? with
    | none => .ok (none, s)
    | some given => do
        let written ← s.db.acknowledge dialect given now
        .ok (some written.1, { s with db := written.2 })
  | .recordFailure held error now =>
    match s.claims[held]? with
    | none => .ok (none, s)
    | some given => do
        let written ← s.db.recordFailure dialect given error now
        .ok (some written.1, { s with db := written.2 })

/-- A sequence of operations: what each of them answered, and the state left.  An
operation that raises changes nothing. -/
def performAll (s : StoreState γ) :
    List (StoreOp γ) → List (Except OutboxError (Option DeliveryRow)) × StoreState γ
  | [] => ([], s)
  | op :: ops =>
    match op.perform dialect policy s with
    | .ok (snapshot, s') =>
      let rest := performAll s' ops
      (.ok snapshot :: rest.1, rest.2)
    | .error e =>
      let rest := performAll s ops
      (.error e :: rest.1, rest.2)

end Sequences

/-! ## Matching sequences -/

variable {codec : Codec}

/-- The same operation; what is published has the columns of its own store. -/
inductive OpMatch (codec : Codec) : StoreOp PrimaryContent → StoreOp StreamContent → Prop
  | publish {fact : OutboxFact PrimaryContent} {fact' : OutboxFact StreamContent}
      (createdAt : Int) (h : SourceMatch codec ⟨fact, none⟩ ⟨fact', none⟩) :
      OpMatch codec (.publish fact createdAt) (.publish fact' createdAt)
  | claim (workerId : String) (leaseDuration now : Int) :
      OpMatch codec (.claim workerId leaseDuration now) (.claim workerId leaseDuration now)
  | acknowledge (held : Nat) (now : Int) :
      OpMatch codec (.acknowledge held now) (.acknowledge held now)
  | recordFailure (held : Nat) (error : String) (now : Int) :
      OpMatch codec (.recordFailure held error now) (.recordFailure held error now)

/-- Stores that match once the primary one enrols its source rows, and the claims they have
handed out: each of them of a row that is enrolled. -/
structure StateMatch (codec : Codec) (policy : OutboxRetryPolicy) (clock : Int)
    (s : StoreState PrimaryContent) (s' : StoreState StreamContent) : Prop where
  agree : DbAgree codec policy clock (s.db.discover policy clock) s'.db
  sound : ∀ outboxId e, s.db.entry outboxId = some e →
    EntrySound (primaryStore codec).token (fun _ => True) e
  housed : ∀ outboxId, s.db.source.find? outboxId = none →
    s.db.deliveries.find? outboxId = none
  claims : List.Forall₂ (ClaimMatch codec) s.claims s'.claims
  held : ∀ c ∈ s.claims, (s.db.deliveries.find? c.message.outboxId).isSome ∧
    c.delivery.leaseEpoch ≤ policy.maxAttempts

section Matching

variable {policy : OutboxRetryPolicy} {clock now : Int} {s : StoreState PrimaryContent}
  {s' : StoreState StreamContent}

theorem StateMatch.empty (policy : OutboxRetryPolicy) (clock : Int) :
    StateMatch codec policy clock .empty .empty where
  agree := ⟨.nil, .nil⟩
  sound := fun _ _ h => by cases h
  housed := fun _ _ => rfl
  claims := .nil
  held := List.forall_mem_nil _

/-- The same row, enrolled at another time. -/
def EnrolledLater (clock now : Int) (a b : DeliveryRow) : Prop :=
  a = b ∨ (b.status = .pending ∧ b.leaseEpoch = 0 ∧ b.nextAttemptAt = clock ∧
    a = { b with nextAttemptAt := now })

theorem discover_later {γ : Type} (db : OutboxDb γ) (policy : OutboxRetryPolicy)
    (clock now : Int) :
    Agree (EnrolledLater clock now) (db.discover policy now).deliveries
      (db.discover policy clock).deliveries := by
  refine Agree.insertMissing (S := Eq) ?_ ?_ (List.forall₂_same.mpr fun _ _ => rfl)
    (.refl (fun _ => .inl rfl) _)
  · rintro a b (rfl | ⟨-, -, -, rfl⟩) <;> rfl
  · rintro o _ rfl
    unfold EnrolledLater discovered
    cases o.deliveredAt with
    | none => exact .inr ⟨rfl, rfl, rfl, rfl⟩
    | some time => exact .inl rfl

/-- Whoever waits for its first attempt is due at any later time too. -/
theorem RowMatch.later {a' a b : DeliveryRow} (h : RowMatch codec policy clock a b)
    (hle : clock ≤ now) (hlater : EnrolledLater clock now a' a) :
    RowMatch codec policy now a' b := by
  rcases hlater with rfl | ⟨hstatus, hepoch, htime, rfl⟩
  · exact ⟨h.delivery, h.policy, fun hstatus => (h.due hstatus).trans hle⟩
  · obtain ⟨⟨htoken, next, rfl, hnext, -⟩, hpolicy, -⟩ := h
    refine ⟨⟨htoken, next, rfl, ?_, .inr (.inl ⟨hstatus, hepoch⟩)⟩, hpolicy, fun _ => le_refl now⟩
    rw [htime] at hnext
    exact hnext.trans hle

theorem StateMatch.later (h : StateMatch codec policy clock s s') (hle : clock ≤ now) :
    StateMatch codec policy now s s' :=
  { h with
    agree := ⟨h.agree.source, (discover_later s.db policy clock now).trans h.agree.deliveries
      fun _ _ _ hlater hrow => hrow.later hle hlater⟩ }

variable (h : StateMatch codec policy now s s')
include h

theorem StateMatch.enrolled : DbMatch codec policy now (s.db.discover policy now) s'.db where
  toDbAgree := h.agree
  sound := (discover_moves policy now).sound h.sound
  enrolled := discover_enrolled policy now

/-- A method of both stores that has moved the entries of the primary one. -/
theorem StateMatch.moved {db₁ : OutboxDb PrimaryContent} {db₁' : OutboxDb StreamContent}
    (hmoves : StoreMoves (primaryStore codec).token (fun _ => True) s.db db₁)
    (hagree : DbAgree codec policy now (db₁.discover policy now) db₁') :
    StateMatch codec policy now ⟨db₁, s.claims⟩ ⟨db₁', s'.claims⟩ where
  agree := hagree
  sound := hmoves.sound h.sound
  housed := hmoves.housed h.housed
  claims := h.claims
  held := fun c hc => ⟨hmoves.delivery_isSome h.housed (h.held c hc).1, (h.held c hc).2⟩

/-- A publication of the primary store, which enrols nothing. -/
theorem StateMatch.appended {fact : OutboxFact PrimaryContent} {db₁ : OutboxDb PrimaryContent}
    {db₁' : OutboxDb StreamContent}
    (happended : s.db.append (primaryStore codec) fact policy now = .ok db₁)
    (hagree : DbAgree codec policy now (db₁.discover policy now) db₁') :
    StateMatch codec policy now ⟨db₁, s.claims⟩ ⟨db₁', s'.claims⟩ := by
  obtain ⟨hsound, housed⟩ := append_keeps happended h.sound h.housed
  obtain ⟨-, -, hothers, hnew⟩ := append_spec happended
  refine ⟨hagree, hsound, housed, h.claims, fun c hc => ?_⟩
  obtain ⟨hsome, hepoch⟩ := h.held c hc
  refine ⟨?_, hepoch⟩
  by_cases hid : c.message.outboxId = fact.outboxId
  · rw [hid] at hsome ⊢
    rcases hnew with hnew | hnew
    · rw [hnew]
      exact hsome
    · rw [hnew]
      rfl
  · rw [hothers _ hid]
    exact hsome

theorem StateMatch.publish {fact : OutboxFact PrimaryContent} {fact' : OutboxFact StreamContent}
    (hfact : SourceMatch codec ⟨fact, none⟩ ⟨fact', none⟩) :
    ResultMatch (fun db₁ db₁' => StateMatch codec policy now ⟨db₁, s.claims⟩ ⟨db₁', s'.claims⟩)
      (s.db.append (primaryStore codec) fact policy now)
      (s'.db.append (streamStore codec) fact' policy now) := by
  have hconflict : (s.db.source.rows.any fun row => row.fact.scope == fact.scope &&
        row.fact.outboxOrdinal == fact.outboxOrdinal) =
      s'.db.source.rows.any fun row => row.fact.scope == fact'.scope &&
        row.fact.outboxOrdinal == fact'.outboxOrdinal := by
    refine any_eq_of_forall₂ h.agree.source fun a b hab => ?_
    have hscope : fact.scope = fact'.scope := hfact.scope
    have hordinal : fact.outboxOrdinal = fact'.outboxOrdinal := hfact.outboxOrdinal
    rw [hab.scope, hab.outboxOrdinal, hscope, hordinal]
  have hsource : Option.Rel (Agree (SourceMatch codec)) (s.db.source.insert? ⟨fact, none⟩)
      (s'.db.source.insert? ⟨fact', none⟩) :=
    h.agree.source.insert? (fun _ _ hab => hab.outboxId) hfact
  have hdelivery := h.agree.deliveries.insert? (fun _ _ hab => hab.delivery.outboxId)
    (hfact.discovered policy now)
  suffices hagree : ResultMatch (fun db₁ db₁' => DbAgree codec policy now
      (db₁.discover policy now) db₁') (s.db.append (primaryStore codec) fact policy now)
      (s'.db.append (streamStore codec) fact' policy now) from
    hagree.strengthen fun _ _ happended _ hdb => h.appended happended hdb
  unfold OutboxDb.append
  rw [hconflict]
  cases s'.db.source.rows.any fun row => row.fact.scope == fact'.scope &&
      row.fact.outboxOrdinal == fact'.outboxOrdinal with
  | true => exact .delivery _ _
  | false =>
    cases hinsert : s.db.source.insert? ⟨fact, none⟩ with
    | none =>
      rw [hinsert] at hsource
      cases hinsert' : s'.db.source.insert? ⟨fact', none⟩ with
      | none =>
        simp only [hinsert, hinsert']
        exact .delivery _ _
      | some source' =>
        rw [hinsert'] at hsource
        cases hsource
    | some source =>
      obtain ⟨hfresh, hrows⟩ := KeyedTable.insert?_eq_some hinsert
      -- the stream store finds the row's place free, as the primary one will
      have hfree : (s.db.discover policy now).deliveries.find? fact.outboxId = none := by
        rw [find?_discover, h.housed _ hfresh, hfresh]
        rfl
      obtain ⟨deliveries, hdeliveries⟩ : ∃ deliveries, (s.db.discover policy now).deliveries.insert?
          (discovered policy now ⟨fact, none⟩) = some deliveries :=
        KeyedTable.insert?_of_free hfree
      have hdiscovered : (OutboxDb.discover { s.db with source := source } policy now).deliveries =
          deliveries := by
        show s.db.deliveries.insertMissing (discovered policy now) source.rows = deliveries
        rw [hrows, KeyedTable.insertMissing_append_singleton]
        show ((s.db.discover policy now).deliveries.insert? _).getD _ = deliveries
        rw [hdeliveries, Option.getD_some]
      rw [hinsert] at hsource
      rw [hdeliveries] at hdelivery
      cases hinsert' : s'.db.source.insert? ⟨fact', none⟩ with
      | none =>
        rw [hinsert'] at hsource
        cases hsource
      | some source' =>
        rw [hinsert'] at hsource
        cases hdeliveries' : s'.db.deliveries.insert? (discovered policy now ⟨fact', none⟩) with
        | none =>
          rw [hdeliveries'] at hdelivery
          cases hdelivery
        | some deliveries' =>
          rw [hdeliveries'] at hdelivery
          simp only [hinsert, hinsert', hdeliveries']
          cases hsource with
          | some hsourceAgree =>
            cases hdelivery with
            | some hdeliveryAgree =>
              refine .ok ⟨hsourceAgree, ?_⟩
              rw [hdiscovered]
              exact hdeliveryAgree

theorem StateMatch.claim (workerId : String) (leaseDuration : Int) :
    ResultMatch (fun r r' => Option.Rel (ClaimMatch codec) r.1 r'.1 ∧
        StateMatch codec policy now ⟨r.2, r.1.toList ++ s.claims⟩ ⟨r'.2, r'.1.toList ++ s'.claims⟩)
      (s.db.claim (primaryStore codec) policy workerId leaseDuration now)
      (s'.db.claim (streamStore codec) policy workerId leaseDuration now) := by
  have hclaimed := h.enrolled.claim workerId leaseDuration
  rw [claim_discover] at hclaimed
  refine hclaimed.strengthen ?_
  rintro ⟨claimed, db₁⟩ ⟨claimed', db₁'⟩ hreturned _ ⟨hmatch, hdb⟩
  obtain ⟨hmoves, hclaimOf⟩ := claim_spec (fun _ => True) hreturned
  have hagree : DbAgree codec policy now (db₁.discover policy now) db₁' := by
    rw [hdb.enrolled.discover]
    exact hdb.toDbAgree
  have hmoved := h.moved hmoves hagree
  refine ⟨hmatch, ?_⟩
  cases hmatch with
  | none => exact hmoved
  | @some c c' hmatch =>
    obtain ⟨⟨o, ho, -⟩, hdelivery, -⟩ := hclaimOf c rfl
    refine { hmoved with
      claims := .cons hmatch h.claims
      held := List.forall_mem_cons.mpr ⟨⟨?_, ?_⟩, hmoved.held⟩ }
    · rw [hdelivery]
      rfl
    · -- the row of the claim has the policy of the stores, and so its attempts
      have hrow := hdb.delivery c.message.outboxId
      rw [hdelivery] at hrow
      generalize db₁'.deliveries.find? c.message.outboxId = d' at hrow
      cases hrow with
      | some hrow =>
        have hsound := hdb.sound _ (o, some c.delivery) (entry_eq_some_iff.mpr ⟨ho, hdelivery⟩)
        exact hrow.policy ▸ hsound.1.bounded

variable (hprimary : Fences (primaryStore codec) policy.maxAttempts)
  (hstream : Fences (streamStore codec) policy.maxAttempts)
include hprimary hstream

theorem StateMatch.acknowledge {c c' : OutboxDeliveryClaim} (hclaim : ClaimMatch codec c c')
    (hheld : c ∈ s.claims) :
    ResultMatch (fun r r' => DeliveryMatch codec r.1 r'.1 ∧
        StateMatch codec policy now ⟨r.2, s.claims⟩ ⟨r'.2, s'.claims⟩)
      (s.db.acknowledge (primaryStore codec) c now)
      (s'.db.acknowledge (streamStore codec) c' now) := by
  obtain ⟨hsome, hepoch⟩ := h.held c hheld
  have hresult := h.enrolled.acknowledge hprimary hstream hclaim hepoch now
  rw [acknowledge_discover hsome] at hresult
  refine hresult.of_map.strengthen ?_
  rintro ⟨row, db₁⟩ ⟨row', db₁'⟩ hreturned _ ⟨hrow, hdb⟩
  exact ⟨hrow, h.moved (acknowledge_spec hreturned trivial) hdb.toDbAgree⟩

theorem StateMatch.recordFailure {c c' : OutboxDeliveryClaim} (hclaim : ClaimMatch codec c c')
    (hheld : c ∈ s.claims) (error : String) :
    ResultMatch (fun r r' => DeliveryMatch codec r.1 r'.1 ∧
        StateMatch codec policy now ⟨r.2, s.claims⟩ ⟨r'.2, s'.claims⟩)
      (s.db.recordFailure (primaryStore codec) c error now)
      (s'.db.recordFailure (streamStore codec) c' error now) := by
  obtain ⟨hsome, hepoch⟩ := h.held c hheld
  have hresult := h.enrolled.recordFailure hprimary hstream hclaim hepoch error now
  rw [recordFailure_discover hsome] at hresult
  refine hresult.of_map.strengthen ?_
  rintro ⟨row, db₁⟩ ⟨row', db₁'⟩ hreturned _ ⟨hrow, hdb⟩
  exact ⟨hrow, h.moved (recordFailure_spec hreturned) hdb.toDbAgree⟩

omit h in
theorem StateMatch.perform {op : StoreOp PrimaryContent} {op' : StoreOp StreamContent}
    (h : StateMatch codec policy op.time s s') (hop : OpMatch codec op op') :
    ResultMatch (fun r r' => Option.Rel (DeliveryMatch codec) r.1 r'.1 ∧
        StateMatch codec policy op.time r.2 r'.2)
      (op.perform (primaryStore codec) policy s) (op'.perform (streamStore codec) policy s') := by
  cases hop with
  | publish createdAt hfact =>
    refine (h.publish hfact).bind ?_
    intro db db' hdb
    exact .ok ⟨.none, hdb⟩
  | claim workerId leaseDuration now =>
    refine (h.claim workerId leaseDuration).bind ?_
    rintro ⟨claimed, db⟩ ⟨claimed', db'⟩ ⟨hclaim, hstate⟩
    cases hclaim with
    | none => exact .ok ⟨.none, hstate⟩
    | some hmatch => exact .ok ⟨.some hmatch.delivery, hstate⟩
  | acknowledge held now =>
    have hheld := forall₂_getElem? h.claims held
    unfold StoreOp.perform
    dsimp only
    cases hgiven : s.claims[held]? with
    | none =>
      rw [hgiven] at hheld
      generalize s'.claims[held]? = given' at hheld ⊢
      cases hheld
      exact .ok ⟨.none, h⟩
    | some c =>
      rw [hgiven] at hheld
      generalize s'.claims[held]? = given' at hheld ⊢
      cases hheld with
      | some hclaim =>
        refine (h.acknowledge hprimary hstream hclaim (List.mem_of_getElem? hgiven)).bind ?_
        rintro ⟨row, db⟩ ⟨row', db'⟩ ⟨hrow, hstate⟩
        exact .ok ⟨.some hrow, hstate⟩
  | recordFailure held error now =>
    have hheld := forall₂_getElem? h.claims held
    unfold StoreOp.perform
    dsimp only
    cases hgiven : s.claims[held]? with
    | none =>
      rw [hgiven] at hheld
      generalize s'.claims[held]? = given' at hheld ⊢
      cases hheld
      exact .ok ⟨.none, h⟩
    | some c =>
      rw [hgiven] at hheld
      generalize s'.claims[held]? = given' at hheld ⊢
      cases hheld with
      | some hclaim =>
        refine (h.recordFailure hprimary hstream hclaim (List.mem_of_getElem? hgiven) error).bind ?_
        rintro ⟨row, db⟩ ⟨row', db'⟩ ⟨hrow, hstate⟩
        exact .ok ⟨.some hrow, hstate⟩

/-- What the clock shows after a sequence of operations. -/
def lastTime {γ : Type} (clock : Int) (ops : List (StoreOp γ)) : Int :=
  ops.foldl (fun _ op => op.time) clock

omit h in
/-- Matching sequences: the answers match one by one, and so do the states left. -/
theorem StateMatch.performAll {ops : List (StoreOp PrimaryContent)}
    {ops' : List (StoreOp StreamContent)} (hops : List.Forall₂ (OpMatch codec) ops ops') :
    ∀ {clock : Int} {s : StoreState PrimaryContent} {s' : StoreState StreamContent},
      StateMatch codec policy clock s s' → (clock :: ops.map StoreOp.time).Pairwise (· ≤ ·) →
      List.Forall₂ (ResultMatch (Option.Rel (DeliveryMatch codec)))
          (performAll (primaryStore codec) policy s ops).1
          (performAll (streamStore codec) policy s' ops').1 ∧
        StateMatch codec policy (lastTime clock ops)
          (performAll (primaryStore codec) policy s ops).2
          (performAll (streamStore codec) policy s' ops').2 := by
  induction hops with
  | nil => exact fun h _ => ⟨.nil, h⟩
  | @cons op op' ops ops' hop _ ih =>
    intro clock s s' h htimes
    obtain ⟨hle, htimes⟩ := List.pairwise_cons.mp htimes
    have hready : StateMatch codec policy op.time s s' := h.later (hle _ List.mem_cons_self)
    have hperformed := hready.perform hprimary hstream hop
    unfold Outbox.performAll
    generalize op.perform (primaryStore codec) policy s = result at hperformed ⊢
    generalize op'.perform (streamStore codec) policy s' = result' at hperformed ⊢
    cases hperformed with
    | ok hanswer =>
      obtain ⟨hsnapshot, hstate⟩ := hanswer
      obtain ⟨hrest, hend⟩ := ih hstate htimes
      exact ⟨.cons (.ok hsnapshot) hrest, hend⟩
    | value m m' =>
      obtain ⟨hrest, hend⟩ := ih hready htimes
      exact ⟨.cons (.value m m') hrest, hend⟩
    | delivery m m' =>
      obtain ⟨hrest, hend⟩ := ih hready htimes
      exact ⟨.cons (.delivery m m') hrest, hend⟩
    | fence m m' =>
      obtain ⟨hrest, hend⟩ := ih hready htimes
      exact ⟨.cons (.fence m m') hrest, hend⟩

end Matching

/-! ## The protocol in every run -/

/-- What a state reachable in a run, and what follows it, satisfy. -/
structure RelaySafety {γ : Type} (dialect : StoreDialect γ) (limit : Nat) (db db' : RelayDb γ) :
    Prop where
  exactlyOnce : ExactlyOnce dialect db
  terminal : ∀ d ∈ db.store.deliveries.rows, d.status.isTerminal = true →
    d ∈ db'.store.deliveries.rows
  stale : StaleIgnored dialect db limit

/-- The tokens of the first epochs of a row differ. -/
def EpochTokens {γ : Type} (dialect : StoreDialect γ) (limit : Nat) : Prop :=
  ∀ outboxId epoch epoch', epoch ≤ limit → epoch' ≤ limit →
    dialect.token outboxId epoch = dialect.token outboxId epoch' → epoch = epoch'

section Runs

variable {limit : Nat}

theorem primary_fences (h : EpochTokens (primaryStore codec) limit) :
    Fences (primaryStore codec) limit where
  token := h
  text := fun _ _ hsame => beq_iff_eq.mp hsame

theorem stream_fences (h : EpochTokens (streamStore codec) limit) :
    Fences (streamStore codec) limit where
  token := h
  text := fun _ _ hsame => Option.some.inj (beq_iff_eq.mp hsame)

theorem EpochTokens.mono {γ : Type} {dialect : StoreDialect γ} {attempts : Nat}
    (h : EpochTokens dialect limit) (hle : attempts ≤ limit) : EpochTokens dialect attempts :=
  fun outboxId epoch epoch' hepoch hepoch' =>
    h outboxId epoch epoch' (hepoch.trans hle) (hepoch'.trans hle)

theorem relay_safety {γ : Type} {dialect : StoreDialect γ} (hfences : Fences dialect limit)
    {w w' : World (RelayDb γ) (RelayCall γ) (RelayCommand γ) RelayAnswer OutboxError
      (Option DeliveryRow)}
    (hw : RelayRun dialect (World.initial .empty) w) (hw' : RelayRun dialect w w') :
    RelaySafety dialect limit w.db w'.db := by
  obtain ⟨hsound, hgrows⟩ := relay_keeps hw hw'
  exact ⟨hsound.exactlyOnce, fun _ hd hterminal => hgrows.terminal hsound hd hterminal,
    hsound.staleIgnored hfences⟩

end Runs

namespace Repeat

/-- Names stand for themselves, and a payload is the name of its row. -/
def plainCodec : Codec where
  exactBytesSha256 := fun payload => "sha:" ++ String.ofList (payload.map fun b => Char.ofNat b.toNat)
  uuid5 := id
  parse := fun payload =>
    some ⟨String.ofList (payload.map fun b => Char.ofNat b.toNat), "recording", "assignment",
      "events", "assignment"⟩
  canonicalJsonBytes := fun record => record.outboxId.toList.map (·.toNat.toUInt8)

theorem epochTokens (limit : Nat) : EpochTokens (primaryStore plainCodec) limit ∧
    EpochTokens (streamStore plainCodec) limit := by
  have hrepr : ∀ m n : Nat, toString m = toString n → m = n := by
    intro m n h
    have hdigits := congrArg String.toList h
    rw [Nat.toString_eq_repr, Nat.toString_eq_repr, Nat.toList_repr, Nat.toList_repr] at hdigits
    rw [← @Nat.ofDigitChars_ten_toDigits m, hdigits, Nat.ofDigitChars_ten_toDigits]
  refine ⟨?_, ?_⟩
  · intro outboxId epoch epoch' _ _ h
    exact hrepr _ _ (String.append_right_inj _ |>.mp h)
  · intro outboxId epoch epoch' _ _ h
    exact hrepr _ _ (String.append_right_inj _ |>.mp h)

def policy : OutboxRetryPolicy := ⟨"1.0", 3, 1, 60, by decide, by decide, by decide, by decide⟩

def payload : Payload := [97]

def primaryFact : OutboxFact PrimaryContent :=
  ⟨"a", "run", 0, "recording", "assignment", payload, "sha:a"⟩

def streamFact : OutboxFact StreamContent :=
  ⟨"a", "run", 0, "WINDOW_RESULT", "events", "assignment", payload, "sha:a", 0⟩

def worker (workerId : String) (start : Int) : RelayWorker :=
  ⟨policy, workerId, 10, start, start + 1, start + 2, .none⟩

/-- The first worker stops after it has published, and its lease lapses. -/
def schedule {γ : Type} (fact : OutboxFact γ) : List (Choice (RelayCall γ)) :=
  [.spawn (.append fact policy 0), .advance 0, .spawn (.deliverOnce (worker "first" 1)),
    .advance 0, .advance 0, .crash 0, .spawn (.deliverOnce (worker "second" 20)), .advance 0,
    .advance 0, .advance 0]

def message (recordingIdentity : String) : OutboxMessage :=
  ⟨"a", "run", recordingIdentity, 0, "events", "assignment", payload, "sha:a"⟩

theorem facts_match : SourceMatch plainCodec ⟨primaryFact, none⟩ ⟨streamFact, none⟩ := by
  have hprimary : primaryMessage plainCodec primaryFact = .ok (message "recording") := by
    decide +kernel
  have hstream : streamMessage plainCodec streamFact = .ok (message "run") := by
    decide +kernel
  refine ⟨rfl, rfl, rfl, rfl, ?_⟩
  rw [hprimary, hstream]
  exact .ok rfl

/-- The row is claimed twice, and the first claim comes too late. -/
def operations {γ : Type} (fact : OutboxFact γ) : List (StoreOp γ) :=
  [.publish fact 0, .claim "first" 10 1, .claim "second" 10 20, .acknowledge 1 21,
    .acknowledge 0 22]

end Repeat

/-- The same answers up to the tokens. -/
def AnswerAlike (codec : Codec) (policy : OutboxRetryPolicy) (ops : List (StoreOp PrimaryContent))
    (ops' : List (StoreOp StreamContent)) : Prop :=
  List.Forall₂ (ResultMatch (Option.Rel fun a b : DeliveryRow =>
      b = { a with fencingToken := b.fencingToken }))
    (performAll (primaryStore codec) policy .empty ops).1
    (performAll (streamStore codec) policy .empty ops').1

/-- What a list of answers shows of its delivery rows. -/
def shown (answers : List (Except OutboxError (Option DeliveryRow))) :
    List (Option (Option (OutboxDeliveryStatus × Int))) :=
  answers.map fun answer => answer.toOption.map (·.map fun row => (row.status, row.nextAttemptAt))

theorem AnswerAlike.shown {ops : List (StoreOp PrimaryContent)}
    {ops' : List (StoreOp StreamContent)} {policy : OutboxRetryPolicy}
    (h : AnswerAlike codec policy ops ops') :
    shown (performAll (primaryStore codec) policy .empty ops).1 =
      shown (performAll (streamStore codec) policy .empty ops').1 := by
  unfold AnswerAlike at h
  generalize (performAll (primaryStore codec) policy .empty ops).1 = answers at h ⊢
  generalize (performAll (streamStore codec) policy .empty ops').1 = answers' at h ⊢
  induction h with
  | nil => rfl
  | @cons answer answer' _ _ hanswer _ ih =>
    refine congrArg₂ List.cons ?_ ih
    cases hanswer with
    | @ok row row' hrow =>
      cases hrow with
      | none => rfl
      | @some row row' hrow =>
        rw [hrow]
        rfl
    | value | delivery | fence => rfl

/-- A publication at ten, and a claim. -/
def thenClaimed {γ : Type} (fact : OutboxFact γ) (now : Int) : List (StoreOp γ) :=
  [.publish fact 10, .claim "worker" 10 now]

open Repeat in
theorem thenClaimed_match (now : Int) : List.Forall₂ (OpMatch plainCodec)
    (thenClaimed primaryFact now) (thenClaimed streamFact now) :=
  .cons (.publish 10 facts_match) (.cons (.claim "worker" 10 now) .nil)

end Robata.Outbox
