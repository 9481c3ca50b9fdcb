import Robata.Stream.StreamLedger

/-!
# The stream delivery authority

`SQLiteStreamDeliveryAuthority` on the stream database: the atomic commit of a window
reduction and the publication of a recording finalization.  Both write their outbox row in
the transaction that writes the published document.

A commit ends its work item with statements of its own, next to those of the scheduler.
-/

namespace Robata.Stream

open Lib
open Queue (OpaqueUuid Sha256Digest NonEmptyString WorkLedger WorkRow WorkAttempt WorkLease
  parseTimestamp formatTimestamp)
open Outbox (OutboxFact StreamContent OutboxRetryPolicy Payload streamStore)

structure StreamPublicationCommit where
  subjectKey : String
  (semanticSha256 exactSha256 : Sha256Digest)
  outboxId : String
  inserted : Bool

/-- The arguments of `commit_window_reduction`. -/
structure WindowReduction where
  lease : WorkLease
  terminalEvidence : StreamTerminalEvidence
  terminalMember : WindowTerminalMember
  result : StreamWindowResult
  causalEvidence : Option PreparedWindowReductionEvidence
  (topic messageKey : String)

/-- The result reference a terminal evidence stands under. -/
def terminalResultReference (evidence : StreamTerminalEvidence) : NonEmptyString where
  val := "stream-terminal-evidence:" ++ evidence.evidenceRef.artifactId
  nonempty := by
    intro h
    have hlist := congrArg String.toList h
    simp at hlist

/-- What the driver's error becomes on its way out of `operationName`. -/
def rejected (operationName : String) : StreamError :=
  .delivery ("stream delivery " ++ operationName ++ " failed: SQLite rejected durable work")

/-! ## The statements -/

section Statements

variable (codec : Codec) (db : StreamDb)

/-- `_require_live_running_lease`. -/
def liveRunningLease (row : WorkRow) (lease : WorkLease) (now : Int) : Bool :=
  row.state == .running && row.leaseEpoch == lease.leaseEpoch &&
    row.fencingToken == some lease.fencingToken && row.leasedBy == some lease.workerId &&
    row.leaseExpiresAt.any fun expires => decide (now < parseTimestamp expires)

/-- The columns a commit sets in `work_items`; `cancel_requested` is not among them. -/
def withResult (r : WorkRow) (resultReference : NonEmptyString) (resultSha256 : Sha256Digest)
    (now : Int) : WorkRow :=
  { r with
    state := .succeeded
    fencingToken := none
    leasedBy := none
    leaseExpiresAt := none
    retryNotBeforeAt := none
    terminalReasonCode := none
    terminalReasonDetail := none
    resultReference := some resultReference
    resultSha256 := some resultSha256
    completedAt := some (formatTimestamp now)
    updatedAt := formatTimestamp now
    rowVersion := r.rowVersion + 1 }

/-- The `WHERE` clause of the first statement. -/
def commitsAttempt (row : WorkRow) (lease : WorkLease) (a : WorkAttempt) : Bool :=
  a.workItemId == lease.workItemId && a.attemptNumber == row.attempt &&
    a.leaseEpoch == lease.leaseEpoch && a.fencingToken == lease.fencingToken &&
    a.outcome == .active

/-- The `WHERE` clause of the second statement. -/
def commitsItem (lease : WorkLease) (r : WorkRow) : Bool :=
  r.workItemId == lease.workItemId && r.state == .running && r.leaseEpoch == lease.leaseEpoch &&
    r.fencingToken == some lease.fencingToken && r.completedAt.isNone

/-- The two statements by which a commit ends its attempt and its work item. -/
def commitWork (s : WorkLedger) (row : WorkRow) (lease : WorkLease)
    (resultReference : NonEmptyString) (resultSha256 : Sha256Digest) (now : Int) :
    Except StreamError WorkLedger := do
  refuse (s.attempts.rowcount (commitsAttempt row lease) != 1)
    (.delivery "active work attempt is missing")
  refuse (s.items.rowcount (commitsItem lease) != 1)
    (.outboxFence "window result work fence is stale")
  .ok { s with
    attempts := s.attempts.updateWhere (commitsAttempt row lease)
      (·.withOutcome .succeeded none none now) fun _ => rfl
    items := s.items.updateWhere (commitsItem lease)
      (fun r => withResult r resultReference resultSha256 now) fun _ => rfl }

/-- The message of `_insert_outbox`. -/
def outboxFact (planKey : String) (ordinal : Nat) (outboxId kind topic messageKey : String)
    (payload : Payload) (createdAt : Int) : OutboxFact StreamContent where
  outboxId := outboxId
  scope := planKey
  outboxOrdinal := ordinal
  content := {
    messageKind := kind
    topic := topic
    messageKey := messageKey
    payload := payload
    payloadSha256 := codec.outbox.exactBytesSha256 payload
    createdAt := createdAt }

def insertOutbox (operationName : String) (fact : OutboxFact StreamContent)
    (policy : OutboxRetryPolicy) (createdAt : Int) : Except StreamError StreamDb :=
  match db.outbox.append (streamStore codec.outbox) fact policy createdAt with
  | .ok outbox => .ok { db with outbox := outbox }
  | .error _ => .error (rejected operationName)

/-- `_verify_outbox`; the time of creation is not compared. -/
def verifyOutbox (fact : OutboxFact StreamContent) : Except StreamError Unit :=
  refuse (!(db.outbox.source.find? fact.outboxId).any fun row =>
      row.fact.scope == fact.scope && row.fact.outboxOrdinal == fact.outboxOrdinal &&
        row.fact.content.messageKind == fact.content.messageKind &&
        row.fact.content.topic == fact.content.topic &&
        row.fact.content.messageKey == fact.content.messageKey &&
        row.fact.content.payload == fact.content.payload &&
        row.fact.content.payloadSha256 == fact.content.payloadSha256)
    (.deliveryConflict "stream outbox replay changed exact facts")

def verifyCausalReplay (planKey : String) (ordinal : Nat) (windowResultId : OpaqueUuid)
    (causal : Option PreparedWindowReductionEvidence) : Except StreamError Unit :=
  match causal, db.evidence.find? (planKey, ordinal) with
  | none, _ => .ok ()
  | some _, none =>
    .error (.deliveryConflict
      "cannot add causal evidence after a window result is already committed")
  | some evidence, some row =>
    refuse (row.windowResultId != windowResultId || row.evidence != evidence)
      (.deliveryConflict "causal evidence replay changed exact facts")

/-- The rows a result shares an identity with. -/
def resultRows (planKey : String) (ordinal : Nat) (workItemId : OpaqueUuid)
    (result : StreamWindowResult) : List WindowResultRow :=
  db.results.rows.filter fun r =>
    r.result.windowResultId == result.windowResultId ||
      r.result.windowResultKey == result.windowResultKey ||
      (r.planKey == planKey && r.expectedOrdinal == ordinal) || r.workItemId == workItemId

/-- `INSERT INTO stream_window_results`, and with causal evidence its row. -/
def insertResult (row : WindowResultRow) (causal : Option PreparedWindowReductionEvidence) :
    Except StreamError StreamDb :=
  match db.results.insert? row with
  | none => .error (rejected "commit_window_reduction")
  | some results =>
    match causal with
    | none => .ok { db with results := results }
    | some evidence =>
      if db.evidence.rows.any fun r => r.windowResultId == row.result.windowResultId then
        .error (rejected "commit_window_reduction")
      else
        match db.evidence.insert?
            ⟨row.planKey, row.expectedOrdinal, row.result.windowResultId, evidence⟩ with
        | none => .error (rejected "commit_window_reduction")
        | some commits => .ok { db with results := results, evidence := commits }

end Statements

/-! ## The methods -/

section Methods

variable (codec : Codec) (policy : OutboxRetryPolicy)

namespace WindowReduction

/-- The bytes that are published. -/
def payload (r : WindowReduction) : Payload :=
  codec.canonicalJsonBytes (.windowResult r.result)

/-- The identity of the outbox row. -/
def outboxId (r : WindowReduction) : String :=
  codec.outboxId "WINDOW_RESULT" r.result.windowResultKey

/-- The outbox row of the result. -/
def fact (r : WindowReduction) (planKey : String) (ordinal : Nat) (now : Int) :
    OutboxFact StreamContent :=
  outboxFact codec planKey ordinal (r.outboxId codec) "WINDOW_RESULT" r.topic r.messageKey
    (r.payload codec) now

def answer (r : WindowReduction) (inserted : Bool) : StreamPublicationCommit where
  subjectKey := r.result.windowResultKey
  semanticSha256 := r.result.windowResultSemanticSha256
  exactSha256 := codec.exactBytesSha256 (r.payload codec)
  outboxId := r.outboxId codec
  inserted := inserted

/-- The checks before the transaction. -/
def validate (r : WindowReduction) (now : Int) : Except StreamError Unit := do
  match r.causalEvidence.bind (causalDefect codec r.result) with
  | some text => .error (.deliveryConflict text)
  | none => .ok ()
  refuse (r.terminalEvidence.outcome.noncommittable ||
      r.terminalMember.terminalOutcome.noncommittable || r.result.terminalOutcome.noncommittable)
    (.deliveryConflict "failed or incomplete required window cannot be committed")
  refuse (r.topic == "") (.value "topic must be a nonempty string")
  refuse (r.messageKey == "") (.value "message_key must be a nonempty string")
  refuse (decide (now < parseTimestamp r.terminalEvidence.completedAt))
    (.deliveryConflict "terminal evidence completes after authority time")
  refuse (r.result.terminalOutcome != r.terminalEvidence.outcome ||
      r.terminalEvidence.evidenceRef.exactSha256 != codec.exactBytesSha256 (r.payload codec) ||
      r.terminalEvidence.evidenceRef.byteCount != (r.payload codec).length ||
      r.terminalEvidence.evidenceRef.schemaRef != r.result.schemaRef ||
      r.terminalMember.terminalOutcome != r.terminalEvidence.outcome ||
      r.terminalMember.terminalEvidenceRef != r.terminalEvidence.evidenceRef ||
      r.terminalMember.terminalWorkItemId != r.lease.workItemId)
    (.deliveryConflict "window result, terminal member, and terminal evidence are not one fact")

/-- The documents name the declared ordinal. -/
def matchesDeclaration (r : WindowReduction) (row : StreamWorkRow) (ordinal : Nat)
    (declaration : ExpectedWindowDeclaration) : Bool :=
  r.terminalMember.planKey == row.planKey && r.terminalMember.expectedOrdinal == ordinal &&
    r.terminalMember.windowKey == declaration.windowKey &&
    r.terminalMember.windowSemanticSha256 == declaration.windowSemanticSha256 &&
    r.terminalMember.terminalWorkLogicalKey == row.plan.workLogicalKey.val &&
    r.result.windowSubject.subjectKey == declaration.windowKey &&
    r.result.windowSubject.subjectSemanticSha256 == declaration.windowSemanticSha256 &&
    r.causalEvidence.all fun causal =>
      causal.inferencePlan.planKey == row.planKey &&
        causal.inferencePlan.expectedOrdinal == ordinal &&
        causal.inferencePlan.windowKey == declaration.windowKey &&
        causal.inferencePlan.windowSemanticSha256 == declaration.windowSemanticSha256 &&
        causal.inferencePlan.effectiveInterval == declaration.effectiveInterval

def verifyTerminalReplay (r : WindowReduction) (row : StreamWorkRow) (item : WorkRow)
    (window : ExpectedWindowRow) : Except StreamError Unit :=
  refuse (item.state != .succeeded || row.terminalEvidence != some r.terminalEvidence ||
      window.terminalMember != some r.terminalMember ||
      item.resultReference != some (terminalResultReference r.terminalEvidence) ||
      item.resultSha256 != some r.terminalEvidence.evidenceRef.exactSha256)
    (.deliveryConflict "window terminal replay changed authority facts")

def verifyWindowReplay (r : WindowReduction) (existing : WindowResultRow) (row : StreamWorkRow)
    (ordinal : Nat) : Except StreamError Unit :=
  refuse (existing.result != r.result || existing.planKey != row.planKey ||
      existing.expectedOrdinal != ordinal || existing.workItemId != r.lease.workItemId)
    (.deliveryConflict "window result replay changed exact facts")

/-- The transaction on a result that is stored already. -/
def replay (r : WindowReduction) (db : StreamDb) (existing : WindowResultRow) (row : StreamWorkRow)
    (item : WorkRow) (window : ExpectedWindowRow) (ordinal : Nat) (now : Int) :
    Except StreamError (StreamPublicationCommit × StreamDb) := do
  r.verifyWindowReplay existing row ordinal
  r.verifyTerminalReplay row item window
  verifyCausalReplay db row.planKey ordinal r.result.windowResultId r.causalEvidence
  verifyOutbox db (r.fact codec row.planKey ordinal now)
  .ok (r.answer codec false, db)

/-- The transaction on a result that is not stored. -/
def insert (r : WindowReduction) (db : StreamDb) (row : StreamWorkRow) (item : WorkRow)
    (window : ExpectedWindowRow) (ordinal : Nat) (now : Int) :
    Except StreamError (StreamPublicationCommit × StreamDb) := do
  refuse (!liveRunningLease item r.lease now)
    (.outboxFence "window result work lease is stale, expired, or inactive")
  refuse (row.pending.any (·.evidence != r.terminalEvidence))
    (.deliveryConflict "pending terminal evidence changed")
  refuse (window.terminalMember.any fun existing => existing != r.terminalMember)
    (.deliveryConflict "terminal member already differs")
  let work ← commitWork db.work item r.lease (terminalResultReference r.terminalEvidence)
    r.terminalEvidence.evidenceRef.exactSha256 now
  let accepted := ({ db with work := work }.setRow r.lease.workItemId
    (fun stored => { stored with terminalEvidence := some r.terminalEvidence, pending := none })
    fun _ => rfl).setMember row.planKey ordinal r.terminalMember
  let stored ← insertResult accepted ⟨row.planKey, ordinal, r.lease.workItemId, r.result⟩
    r.causalEvidence
  let published ← insertOutbox codec stored "commit_window_reduction"
    (r.fact codec row.planKey ordinal now) policy now
  .ok (r.answer codec true, published)

end WindowReduction

def commitWindowReduction (db : StreamDb) (r : WindowReduction) (now : Int) :
    Except StreamError (StreamPublicationCommit × StreamDb) := do
  r.validate codec now
  match db.rows.find? r.lease.workItemId, db.work.item? r.lease.workItemId with
  | some row, some item =>
    match row.expectedOrdinal with
    | none => .error (.delivery "persisted expected_ordinal must be an integer")
    | some ordinal => do
        refuse (row.plan.stage != .windowReduction)
          (.deliveryConflict "only WINDOW_REDUCTION may commit a result")
        match db.windows.find? (row.planKey, ordinal) with
        | none => .error (.delivery "window reduction declaration is missing")
        | some window => do
            refuse (!r.matchesDeclaration row ordinal window.declaration)
              (.deliveryConflict "window publication does not match its declared ordinal")
            match resultRows db row.planKey ordinal r.lease.workItemId r.result with
            | [] => r.insert codec policy db row item window ordinal now
            | [existing] => r.replay codec db existing row item window ordinal now
            | _ => .error (.deliveryConflict
                "window result identities resolve to different rows")
  | _, _ => .error (.delivery "window reduction work is not durable")

/-- The arguments of `publish_recording_finalization`. -/
structure FinalizationRequest where
  planKey : String
  finalization : RecordingFinalizationMap
  (topic messageKey : String)

namespace FinalizationRequest

/-- The bytes that are published. -/
def payload (r : FinalizationRequest) : Payload :=
  codec.canonicalJsonBytes (.finalization r.finalization)

/-- The identity of the outbox row. -/
def outboxId (r : FinalizationRequest) : String :=
  codec.outboxId "RECORDING_FINALIZATION" r.finalization.finalizationKey

/-- The outbox row of the finalization. -/
def fact (r : FinalizationRequest) (ordinal : Nat) (now : Int) : OutboxFact StreamContent :=
  outboxFact codec r.planKey ordinal (r.outboxId codec) "RECORDING_FINALIZATION" r.topic
    r.messageKey (r.payload codec) now

def answer (r : FinalizationRequest) (inserted : Bool) : StreamPublicationCommit where
  subjectKey := r.finalization.finalizationKey
  semanticSha256 := r.finalization.finalizationSemanticSha256
  exactSha256 := codec.exactBytesSha256 (r.payload codec)
  outboxId := r.outboxId codec
  inserted := inserted

/-- The rows a finalization shares an identity with. -/
def existing (r : FinalizationRequest) (db : StreamDb) : List FinalizationRow :=
  db.finalizations.rows.filter fun row => row.planKey == r.planKey ||
    row.finalization.finalizationKey == r.finalization.finalizationKey ||
    row.finalization.finalizationSemanticSha256 == r.finalization.finalizationSemanticSha256

/-- Every gate of the plan is closed. -/
def requireGates (r : FinalizationRequest) (db : StreamDb) (plan : StreamPlanRow) :
    Except StreamError Unit :=
  match plan.sealJson, plan.terminalClosureJson, plan.exportManifest with
  | some planSeal, some closure, some manifest => do
      refuse (planSeal.planKey != r.planKey || closure.planKey != r.planKey ||
          r.finalization.expectedPlanSealSemanticSha256 != planSeal.sealSemanticSha256 ||
          r.finalization.windowTerminalClosureSemanticSha256 != closure.terminalClosureDigest ||
          r.finalization.exportManifestSemanticSha256 != manifest.1)
        (.deliveryConflict "recording finalization does not bind to the closed stream plan")
      let windows := db.windowsOf r.planKey
      let ordinals := windows.map (·.ordinal)
      refuse (ordinals != List.range windows.length || windows.any (·.terminalMember.isNone))
        (.deliveryConflict "recording finalization requires every declared terminal member")
      let resultOrdinals := ((db.results.rows.filter (·.planKey == r.planKey)).map
        (·.expectedOrdinal)).insertionSort (· ≤ ·)
      refuse (resultOrdinals != ordinals)
        (.deliveryConflict
          "recording finalization requires one terminal result per declared window")
      let causalOrdinals := ((db.evidence.rows.filter (·.planKey == r.planKey)).map
        (·.expectedOrdinal)).insertionSort (· ≤ ·)
      refuse (causalOrdinals != ordinals)
        (.deliveryConflict
          "recording finalization requires causal evidence for every declared window")
  | _, _, _ => .error (.deliveryConflict
      "recording finalization requires seal, terminal closure, and export barrier")

end FinalizationRequest

def publishRecordingFinalization (db : StreamDb) (r : FinalizationRequest) (now : Int) :
    Except StreamError (StreamPublicationCommit × StreamDb) := do
  refuse (r.planKey == "") (.value "plan_key must be a nonempty string")
  refuse (r.topic == "") (.value "topic must be a nonempty string")
  refuse (r.messageKey == "") (.value "message_key must be a nonempty string")
  match db.plans.find? r.planKey with
  | none => .error (.delivery "stream plan is not durable")
  | some plan => do
      r.requireGates db plan
      let ordinal := (db.windowsOf r.planKey).length
      match r.existing db with
      | [] =>
        match db.finalizations.insert? ⟨r.planKey, r.finalization, r.outboxId codec⟩ with
        | none => .error (rejected "publish_recording_finalization")
        | some finalizations => do
            let published ← insertOutbox codec { db with finalizations := finalizations }
              "publish_recording_finalization" (r.fact codec ordinal now) policy now
            .ok (r.answer codec true, published)
      | [stored] => do
          refuse (stored.planKey != r.planKey || stored.finalization != r.finalization ||
              stored.outboxId != r.outboxId codec)
            (.deliveryConflict "finalization replay changed exact facts")
          verifyOutbox db (r.fact codec ordinal now)
          .ok (r.answer codec false, db)
      | _ => .error (.deliveryConflict "finalization replay changed exact facts")

end Methods

end Robata.Stream
