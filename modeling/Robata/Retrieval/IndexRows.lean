import Robata.Contracts.JsonValues
import Robata.Lib.Transaction

/-!
# Rows of the event index

`_normalise`: an untrusted mapping becomes a row with validated fields, its search text and the
digest of its semantic fields.  The version of the projection is not among the digested fields.
-/

namespace Robata.Retrieval

open Contracts Lib

/-- What an index operation raises. -/
inductive IndexFailure
  | index (text : String)
  -- the two messages that show a value
  | unsupportedVersion (version : JsonValue)
  | unknownCameras (cameraIds : List String)
  | key
  | other (text : String)

/-- What the index uses of other modules: the digest of canonical JSON, the two Unicode case
mappings of `str`, and the two projections of canonical publications. -/
structure IndexServices where
  semanticSha256 : JsonObject → Except String Sha256Digest
  (casefold upper : String → String)
  (batchProjection revisionProjection : JsonObject → Except String JsonObject)

/-- Raise an `EventIndexError` if the condition holds. -/
def rejectIf (found : Bool) (text : String) : Except IndexFailure Unit :=
  if found then .error (.index text) else .ok ()

/-- An exception of another module. -/
def external {α : Type} : Except String α → Except IndexFailure α
  | .ok a => .ok a
  | .error text => .error (.other text)

/-- `EVENT_INDEX_PROJECTION_VERSION`. -/
def projectionVersionName : String := "canonical-event-index-projection-v1"

def projectionVersion (record : JsonObject) : Except IndexFailure JsonValue := do
  let primary := JsonObject.getD record "projection_version"
  let spelled := JsonObject.getD record "semantic_projection_version"
  rejectIf (!primary.isNull && !spelled.isNull && primary != spelled)
    "projection version spellings disagree"
  pure (if !primary.isNull then primary else spelled)

/-- A version that is present has to be the version of this index. -/
def checkVersion (record : JsonObject) : Except IndexFailure JsonValue := do
  let version ← projectionVersion record
  if !version.isNull && version != .text projectionVersionName then
    .error (.unsupportedVersion version)
  else
    pure version

def requiredString (record : JsonObject) (field : String) : Except IndexFailure String :=
  match JsonObject.getD record field with
  | .text value =>
    if value = "" then .error (.index (field ++ " must be a non-empty string")) else .ok value
  | _ => .error (.index (field ++ " must be a non-empty string"))

/-- The value of a text that matches `(?:0|-?[1-9][0-9]*)`. -/
def canonicalInteger? (text : String) : Option Int :=
  let magnitude? (digits : List Char) : Option Int :=
    match digits with
    | first :: _ =>
      if first != '0' && digits.all Char.isDigit then
        some (digits.foldl (fun n c => 10 * n + (c.toNat - '0'.toNat : Nat)) 0)
      else
        none
    | [] => none
  match text.toList with
  | ['0'] => some 0
  | '-' :: digits => (magnitude? digits).map fun n => -n
  | digits => magnitude? digits

def nanoseconds (value : JsonValue) (field : String) : Except IndexFailure Int := do
  let parsed ← match value with
    | .bool _ => .error (.index (field ++ " must be an integer"))
    | .int n => .ok n
    | .text digits =>
      match canonicalInteger? digits with
      | some n => .ok n
      | none => .error (.index (field ++ " must be a canonical integer"))
    | _ => .error (.index (field ++ " must be a canonical integer"))
  rejectIf (parsed < int64Min || int64Max < parsed) (field ++ " must fit in signed int64")
  pure parsed

/-- A digest field that is there and is not a digest. -/
def malformedDigest : JsonValue → Bool
  | .null => false
  | .text value => !isSha256 value
  | _ => true

/-- A text field that is there and is not a nonempty text. -/
def malformedText : JsonValue → Bool
  | .null => false
  | .text value => value == ""
  | _ => true

/-- `float(confidence)`, which the bounds follow. -/
def confidenceValue : JsonValue → Except IndexFailure JsonValue
  | .int n => do
      if 2 ^ 1024 - 2 ^ 970 ≤ n.natAbs then
        .error (.other "int too large to convert to float")
      rejectIf (n < 0 || 1 < n) "confidence_value must be within [0, 1]"
      pure (.float (some (n : Rat)))
  | .float q => do
      rejectIf (!q.any fun value => 0 ≤ value && value ≤ 1) "confidence_value must be within [0, 1]"
      pure (.float q)
  | _ => .error (.index "confidence_value must be numeric")

def cameraStatuses (value : JsonValue) : Except IndexFailure JsonObject := do
  let statuses ← match value with
    | .null => .ok []
    | .object entries => .ok entries
    | _ => .error (.index "camera_statuses must be a mapping")
  let known := CameraId.all.map CameraId.value
  let unknown := (statuses.map Prod.fst).filter fun key => !known.contains key
  if !unknown.isEmpty then .error (.unknownCameras (unknown.mergeSort fun a b => a ≤ b))
  else do
    rejectIf (statuses.any fun entry => entry.2.isNull || malformedText entry.2)
      "camera_statuses keys and values must be non-empty strings"
    pure statuses

/-- `usable_camera_count`, with its default. -/
def usableCameraCount (services : IndexServices) (value : JsonValue) (statuses : JsonObject) :
    Except IndexFailure Int := do
  let usable ← match value with
    | .null =>
      let supporting := statuses.countP fun entry =>
        ["PASS", "SUPPORTING", "PARTIAL", "USABLE"].contains
          (services.upper (entry.2.asText?.getD ""))
      .ok (supporting : Int)
    | .int n => .ok n
    | _ => .error (.index "usable_camera_count must be an integer in [0, 6]")
  rejectIf (usable < 0 || 6 < usable) "usable_camera_count must be an integer in [0, 6]"
  pure usable

/-- `str(record.get(field, ""))` of a field that holds a text or nothing. -/
def searchWord (record : JsonObject) (field : String) : String :=
  match JsonObject.get? record field with
  | none => ""
  | some (.text value) => value
  | some _ => "None"

/-- A normalised row, with the entries the index reads of it. -/
structure IndexedRow where
  record : JsonObject
  (eventId eventRevisionId : String)
  revisionSemanticSha256 : Option Sha256Digest
  searchText : String
  semanticDigest : Sha256Digest

def normalise (services : IndexServices) (source : JsonObject) :
    Except IndexFailure IndexedRow := do
  let version ← checkVersion source
  let record := if !version.isNull then
      JsonObject.pop (JsonObject.set source "projection_version" version)
        "semantic_projection_version"
    else
      source
  let eventId ← requiredString record "event_id"
  let eventRevisionId ← requiredString record "event_revision_id"
  let _ ← requiredString record "mcap_id"
  ["recording_identity", "revision_semantic_sha256", "payload_sha256", "lineage_sha256"].forM
    fun field => rejectIf (malformedDigest (JsonObject.getD record field))
      (field ++ " must be a lowercase SHA-256 digest")
  let startNs ← nanoseconds (JsonObject.getD record "start_ns") "start_ns"
  let endNs ← nanoseconds (JsonObject.getD record "end_ns") "end_ns"
  rejectIf (endNs ≤ startNs) "event interval must be non-empty"
  let record := JsonObject.set (JsonObject.set record "start_ns" (.int startNs)) "end_ns"
    (.int endNs)
  ["action_type", "active_hand", "object_class_id", "object_label"].forM
    fun field => rejectIf (malformedText (JsonObject.getD record field))
      (field ++ " must be non-empty when present")
  rejectIf (malformedText (JsonObject.getD record "text"))
    "text must be a non-empty string when present"
  let confidence := JsonObject.getD record "confidence_value"
  let record ← if confidence.isNull then pure record
    else (confidenceValue confidence).map fun value =>
      JsonObject.set record "confidence_value" value
  let statuses ← cameraStatuses (JsonObject.getD record "camera_statuses")
  let record := JsonObject.set record "camera_statuses" (.object statuses)
  let usable ← usableCameraCount services (JsonObject.getD record "usable_camera_count") statuses
  let record := JsonObject.set record "usable_camera_count" (.int usable)
  let record := ["revision_semantic_sha256", "payload_sha256", "lineage_sha256",
    "recording_identity"].foldl
      (fun row field => JsonObject.set row field (JsonObject.getD row field)) record
  let record := JsonObject.pop (JsonObject.pop record "is_current") "current"
  let searchText := services.casefold (" ".intercalate
    (["action_type", "active_hand", "object_class_id", "object_label", "text"].map
      (searchWord record)))
  let record := JsonObject.set record "_search_text" (.text searchText)
  let digest ← external (services.semanticSha256 (record.filter fun entry =>
    !entry.1.startsWith "_" &&
      !(["projection_version", "semantic_projection_version"].contains entry.1)))
  pure
    { record := JsonObject.set record "_semantic_digest" (.text digest)
      eventId := eventId
      eventRevisionId := eventRevisionId
      revisionSemanticSha256 := (JsonObject.getD record "revision_semantic_sha256").asText?
      searchText := searchText
      semanticDigest := digest }

end Robata.Retrieval
