import Robata.Lib.Dictionary
import Robata.Lib.Method
import Robata.Retrieval.IndexRows

/-!
# The event index

`EventIndex`: append-only revisions, the history of the selections of every event, and one
membership for every projected revision.  The methods write as they go; `apply_projection` alone
restores the index when one of its steps raises.
-/

namespace Robata.Retrieval

open Contracts Lib
open Method (assign ofExcept)

structure IndexedRevision where
  (eventId revisionId : String)
  row : IndexedRow

/-- The replay receipt of one projected revision. -/
structure EventIndexMembership where
  (eventId eventRevisionId : String)
  revisionSemanticSha256 : Option Sha256Digest
  selectionDecisionId : Option String
  selectionSequence : Option Int

structure EventIndex where
  revisions : Dict String IndexedRevision
  byEvent : Dict String (List String)
  current : Dict String String
  selections : Dict String (List (String × Int))
  -- the event, the revision and the sequence of a decision
  selectionById : Dict String (String × String × Int)
  memberships : Dict (String × String) EventIndexMembership

namespace EventIndex

def empty : EventIndex := ⟨.empty, .empty, .empty, .empty, .empty, .empty⟩

end EventIndex

abbrev IndexMethod := Method EventIndex IndexFailure

/-- Raise an `EventIndexError` if the condition holds. -/
def raiseIndexIf (found : Bool) (text : String) : IndexMethod Unit :=
  Method.raiseIf found (.index text)

/-! ## Updates and selections -/

/-- The writes for a revision that the index does not have. -/
def addRevision (row : IndexedRow) (index : EventIndex) : EventIndex :=
  { index with
    revisions := index.revisions.set row.eventRevisionId ⟨row.eventId, row.eventRevisionId, row⟩
    byEvent := index.byEvent.set row.eventId
      ((index.byEvent.get? row.eventId).getD [] ++ [row.eventRevisionId]) }

/-- `self._selections.setdefault(event_id, [])`. -/
def openHistory (eventId : String) (index : EventIndex) : EventIndex :=
  match index.selections.get? eventId with
  | some _ => index
  | none => { index with selections := index.selections.set eventId [] }

/-- `len(self._selections.get(event_id, ())) + 1`. -/
def nextSequence (eventId : String) (index : EventIndex) : Int :=
  ((index.selections.get? eventId).getD []).length + 1

/-- Append to the history of the event and make the revision current. -/
def appendSelection (eventId revisionId decisionId : String) (sequence : Int)
    (index : EventIndex) : EventIndex :=
  { index with
    selections := index.selections.set eventId
      ((index.selections.get? eventId).getD [] ++ [(decisionId, sequence)])
    current := index.current.set eventId revisionId }

def recordDecision (eventId revisionId decisionId : String) (sequence : Int)
    (index : EventIndex) : EventIndex :=
  { index with
    selectionById := index.selectionById.set decisionId (eventId, revisionId, sequence) }

/-- `select_revision`, with `None` for a sequence that is not given. -/
def selectRevision (eventId revisionId decisionId : String) (sequence : JsonValue) :
    IndexMethod Unit := do
  raiseIndexIf (eventId == "") "event_id must be a non-empty string"
  raiseIndexIf (revisionId == "") "revision_id must be a non-empty string"
  raiseIndexIf (decisionId == "") "selection_decision_id must be a non-empty string"
  let index ← Method.self
  raiseIndexIf (!(index.revisions.get? revisionId).any (·.eventId == eventId))
    "selection must reference an owned revision"
  assign (openHistory eventId)
  let expected := nextSequence eventId index
  raiseIndexIf (!sequence.isNull && sequence.asInt? != some expected)
    ("selection_sequence must be " ++ toString expected)
  let prior := index.selectionById.get? decisionId
  raiseIndexIf (prior.any fun facts => (facts.1, facts.2.1) != (eventId, revisionId))
    "selection decision identity was reused for another revision"
  assign (appendSelection eventId revisionId decisionId expected)
  assign fun index => if prior.isNone then
      recordDecision eventId revisionId decisionId expected index
    else
      index

/-- Keep a revision that is new.  A known one has to be the same; `_apply_projected_revision`
asks first whether it belongs to the same event. -/
def storeRevision (asksOwner : Bool) (row : IndexedRow) : IndexMethod Unit := do
  let index ← Method.self
  match index.revisions.get? row.eventRevisionId with
  | some existing => do
      raiseIndexIf (asksOwner && existing.eventId != row.eventId)
        "an event revision identity cannot change event ownership"
      raiseIndexIf (existing.row.semanticDigest != row.semanticDigest)
        "an existing revision cannot be mutated"
  | none => assign (addRevision row)

section Services

variable (services : IndexServices)

/-- The selection that `update_index` makes of the row it has stored. -/
def selectLocally (row : IndexedRow) : IndexMethod Unit := do
  let index ← Method.self
  let decision ← ofExcept (external (services.semanticSha256
    [("event_id", .text row.eventId), ("revision_id", .text row.eventRevisionId)]))
  selectRevision row.eventId row.eventRevisionId
    ("local-" ++ String.ofList (decision.toList.take 32)) (.int (nextSequence row.eventId index))

def updateIndex (eventRevision : JsonObject) (select : Option Bool) : IndexMethod Unit := do
  let row ← ofExcept (normalise services eventRevision)
  storeRevision false row
  if select.getD (JsonObject.getD eventRevision "is_current").truthy then
    selectLocally services row
  else
    pure ()

/-! ## Projections -/

/-- The receipt of a stored revision: the one it has, or a new one. -/
def fileMembership (row : IndexedRow) : IndexMethod EventIndexMembership := do
  let index ← Method.self
  let key := (row.eventId, row.eventRevisionId)
  let prior := index.memberships.get? key
  raiseIndexIf (prior.any (·.revisionSemanticSha256 != row.revisionSemanticSha256))
    "event revision membership semantic identity changed"
  let receipt := prior.getD
    ⟨row.eventId, row.eventRevisionId, row.revisionSemanticSha256, none, none⟩
  assign fun index => { index with memberships := index.memberships.set key receipt }
  pure receipt

def applyProjectedRevision (revision : JsonObject) : IndexMethod EventIndexMembership := do
  let row ← ofExcept (normalise services revision)
  storeRevision true row
  fileMembership row

/-- A row of a projection, without its inline selection. -/
def splitRow : JsonValue → Except IndexFailure (JsonObject × Option JsonObject)
  | .object row =>
    match JsonObject.getD row "selection" with
    | .null => .ok (JsonObject.pop row "selection", none)
    | .object nested => .ok (JsonObject.pop row "selection", some nested)
    | _ => .error (.index "projected selection must be a mapping")
  | _ => .error (.index "each projected revision must be a mapping")

/-- The loop over the rows, which gathers the inline selections and the receipts. -/
def applyRows : List JsonValue → IndexMethod (List JsonObject × List EventIndexMembership)
  | [] => pure ([], [])
  | revision :: rest => do
      let (row, nested) ← ofExcept (splitRow revision)
      let receipt ← applyProjectedRevision services row
      let (selections, receipts) ← applyRows rest
      pure (nested.toList ++ selections, receipt :: receipts)

end Services

structure ProjectedSelection where
  (eventId revisionId decisionId : String)
  sequence : JsonValue

def readSelection : JsonValue → Except IndexFailure ProjectedSelection
  | .object selection => do
      let eventId ← requiredString selection "event_id"
      let revisionId ← requiredString selection "selected_revision_id"
      let decisionId ← requiredString selection "selection_decision_id"
      pure ⟨eventId, revisionId, decisionId, JsonObject.getD selection "selection_sequence"⟩
  | _ => .error (.index "each projected selection must be a mapping")

/-- A selection by a decision that the index does not know. -/
def selectFresh (s : ProjectedSelection) : IndexMethod Int := do
  let index ← Method.self
  let expected := nextSequence s.eventId index
  raiseIndexIf (!s.sequence.isNull && s.sequence.asInt?.isNone)
    "selection_sequence must be an integer"
  assign (openHistory s.eventId)
  raiseIndexIf (!s.sequence.isNull && s.sequence.asInt? != some expected)
    ("selection_sequence must be " ++ toString expected)
  assign (appendSelection s.eventId s.revisionId s.decisionId expected)
  assign (recordDecision s.eventId s.revisionId s.decisionId expected)
  pure expected

def applyIdempotentSelection (s : ProjectedSelection) : IndexMethod Int := do
  let index ← Method.self
  raiseIndexIf (!(index.revisions.get? s.revisionId).any (·.eventId == s.eventId))
    "selection must reference an owned revision"
  match index.selectionById.get? s.decisionId with
  | some (eventId, revisionId, sequence) => do
      raiseIndexIf ((eventId, revisionId) != (s.eventId, s.revisionId) ||
          (!s.sequence.isNull && !s.sequence.equalsInt sequence))
        "selection decision identity was replayed with different facts"
      pure sequence
  | none => selectFresh s

/-- The membership that a selection updates. -/
def selectedMembership (s : ProjectedSelection) (sequence : Int) (index : EventIndex) :
    EventIndexMembership :=
  let existing := (index.memberships.get? (s.eventId, s.revisionId)).getD
    ⟨s.eventId, s.revisionId,
      (index.revisions.get? s.revisionId).bind (·.row.revisionSemanticSha256), none, none⟩
  { existing with selectionDecisionId := some s.decisionId, selectionSequence := some sequence }

/-- The body of the loop over the selections. -/
def applySelection (selection : JsonValue) : IndexMethod EventIndexMembership := do
  let s ← ofExcept (readSelection selection)
  let sequence ← applyIdempotentSelection s
  let index ← Method.self
  let updated := selectedMembership s sequence index
  assign fun index =>
    { index with memberships := index.memberships.set (s.eventId, s.revisionId) updated }
  pure updated

/-- The loop over the selections. -/
def applySelections : List JsonValue → IndexMethod (List EventIndexMembership)
  | [] => pure []
  | selection :: rest => do
      let updated ← applySelection selection
      let others ← applySelections rest
      pure (updated :: others)

/-- The memberships of the touched revisions, in the order of their keys. -/
def touchedMemberships (pending : List EventIndexMembership) (index : EventIndex) :
    Except IndexFailure (List EventIndexMembership) :=
  let keys := (pending.map fun m => (m.eventId, m.eventRevisionId)).dedup.mergeSort
    fun a b => a.1 < b.1 || (a.1 == b.1 && a.2 ≤ b.2)
  keys.mapM fun key =>
    match index.memberships.get? key with
    | some m => .ok m
    | none => .error .key

/-- `self` as it was when the method was called, if the method raises. -/
def restoring {α : Type} (method : IndexMethod α) : IndexMethod α := fun index =>
  match method index with
  | (.ok a, index') => (.ok a, index')
  | (.error e, _) => (.error e, index)

/-- `projection.get(first, projection.get(second, projection.get(third, ())))`. -/
def firstOf (projection : JsonObject) (names : List String) : JsonValue :=
  (names.findSome? (JsonObject.get? projection)).getD (.list [])

/-- The rows and the selections of a projection, in any of its shapes. -/
def readProjection (services : IndexServices) (projection : JsonObject) :
    Except IndexFailure (List JsonValue × List JsonValue) := do
  let _ ← checkVersion projection
  let projection ← external <|
    if JsonObject.has projection "publications" ||
        JsonObject.has projection "action_event_publications" ||
        JsonObject.has projection "detail" then
      services.batchProjection projection
    else if JsonObject.has projection "payload" && JsonObject.has projection "revision" then
      services.revisionProjection projection
    else
      .ok projection
  if JsonObject.has projection "event_id" && JsonObject.has projection "event_revision_id" then
    pure ([.object projection], [])
  else
    match firstOf projection ["event_revisions", "revisions", "events"],
        firstOf projection ["current_selections", "selections", "current"] with
    | .list revisions, .list selections => pure (revisions, selections)
    | _, _ => .error (.index "projection revisions and selections must be sequences")

/-- The `try` block of `apply_projection`. -/
def applyProjectionBody (services : IndexServices) (revisions selections : List JsonValue) :
    IndexMethod (List EventIndexMembership) := do
  let (nested, receipts) ← applyRows services revisions
  let updated ← applySelections (nested.map .object ++ selections)
  let index ← Method.self
  ofExcept (touchedMemberships (receipts ++ updated) index)

def applyProjection (services : IndexServices) (projection : JsonObject) :
    IndexMethod (List EventIndexMembership) := do
  let (revisions, selections) ← ofExcept (readProjection services projection)
  restoring (applyProjectionBody services revisions selections)

end Robata.Retrieval
