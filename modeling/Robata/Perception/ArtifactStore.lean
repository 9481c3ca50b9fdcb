import Robata.Lib.ExclusiveFiles

/-!
# The local perception artifact store

`LocalPerceptionArtifactStore`: an artifact is an object file named by the digest of its
bytes, and a reference file, named by the digest of its logical key, that holds the digest of
the object.  Each of the two files is created exclusively and written in a later step.

The digest and the JSON form of a reference are parameters, and so are the directories that
a kind names under the two roots: the store puts no condition on the text of a kind.
-/

namespace Robata.Perception

open Lib

/-- What the store raises, with its texts. -/
inductive ArtifactError
  | value (message : String)
  | runtime (message : String)
  | key (message : String)
  | fileNotFound

def localPerceptionArtifactIndexVersion : String := "local-perception-artifact-index-v1"

structure LocalPerceptionArtifactReference where
  (kind logicalKey exactSha256 : String)

/-- The texts found in a decoded reference document. -/
structure ReferenceDocument where
  (indexVersion kind logicalKey exactSha256 : Option String)
  deriving DecidableEq

/-- The entries `_put_logical_reference` writes. -/
def LocalPerceptionArtifactReference.document (r : LocalPerceptionArtifactReference) :
    ReferenceDocument where
  indexVersion := some localPerceptionArtifactIndexVersion
  kind := some r.kind
  logicalKey := some r.logicalKey
  exactSha256 := some r.exactSha256

/-- The files below the root of a store. -/
inductive ArtifactPath
  -- `<kind>/<first two digits>/<digest>.json`
  | object (directory exactSha256 : String)
  -- `_logical/<kind>/<digest of the key>.ref`
  | logical (directory keySha256 : String)
  deriving DecidableEq

/-- The parameters of a store. -/
structure ArtifactLayout where
  sha256 : List UInt8 → String
  (objectDirectory logicalDirectory : String → String)
  canonicalJsonBytes : ReferenceDocument → List UInt8
  -- `json.loads`, which refuses a text that is not JSON
  jsonLoads : List UInt8 → Option ReferenceDocument

structure ArtifactPut where
  (kind logicalKey : String)
  payload : List UInt8

/-- The arguments that `put` accepts. -/
def ArtifactPut.Valid (a : ArtifactPut) : Prop :=
  a.kind ≠ "" ∧ a.logicalKey ≠ "" ∧ a.payload ≠ []

instance (a : ArtifactPut) : Decidable a.Valid :=
  inferInstanceAs (Decidable (_ ∧ _ ∧ _))

/-- `logical_key.encode("utf-8")`. -/
def utf8 (text : String) : List UInt8 := text.toByteArray.data.toList

theorem utf8_injective : Function.Injective utf8 := by
  intro a b h
  apply String.toByteArray_inj.mp
  cases ha : a.toByteArray
  cases hb : b.toByteArray
  simp only [utf8, ha, hb] at h
  rw [Array.toList_inj.mp h]

namespace ArtifactLayout

variable (S : ArtifactLayout)

def artifactPath (kind exactSha256 : String) : ArtifactPath :=
  .object (S.objectDirectory kind) exactSha256

def logicalReferencePath (kind logicalKey : String) : ArtifactPath :=
  .logical (S.logicalDirectory kind) (S.sha256 (utf8 logicalKey))

def putLogicalReference (reference : LocalPerceptionArtifactReference) :
    FileProg ArtifactPath ArtifactError Unit :=
  publish (.runtime "perception logical key already points to different exact bytes")
    (S.logicalReferencePath reference.kind reference.logicalKey)
    (S.canonicalJsonBytes reference.document)

def put (a : ArtifactPut) : FileProg ArtifactPath ArtifactError String := do
  Prog.ofExcept (if a.Valid then .ok ()
    else .error (.value "artifact kind, logical key, and payload must be nonempty"))
  let digest := S.sha256 a.payload
  publish (.runtime "perception CAS digest conflicts with existing bytes")
    (S.artifactPath a.kind digest) a.payload
  S.putLogicalReference ⟨a.kind, a.logicalKey, digest⟩
  pure digest

/-- A digest is 64 lowercase hexadecimal characters. -/
def isDigest (text : String) : Bool :=
  text.length == 64 && text.toList.all fun c => "0123456789abcdef".toList.contains c

/-- The checks `reference` makes of a decoded document. -/
def checkedReference (kind logicalKey : String) (document : ReferenceDocument) :
    Except ArtifactError LocalPerceptionArtifactReference :=
  if document.indexVersion = some localPerceptionArtifactIndexVersion ∧
      document.kind = some kind ∧ document.logicalKey = some logicalKey then
    match document.exactSha256 with
    | some exactSha256 =>
      if isDigest exactSha256 then .ok ⟨kind, logicalKey, exactSha256⟩
      else .error (.runtime "perception artifact logical reference has an invalid digest")
    | none => .error (.runtime "perception artifact logical reference has an invalid digest")
  else .error (.runtime "perception artifact logical reference is inconsistent")

def reference (kind logicalKey : String) :
    FileProg ArtifactPath ArtifactError LocalPerceptionArtifactReference := do
  Prog.ofExcept (if kind = "" ∨ logicalKey = "" then
    .error (.value "artifact kind and logical key must be nonempty") else .ok ())
  let text ← readOr (.key "perception artifact logical reference is unavailable")
    (S.logicalReferencePath kind logicalKey)
  match S.jsonLoads text with
  | none => Prog.ofExcept (.error (.key "perception artifact logical reference is unavailable"))
  | some document => Prog.ofExcept (checkedReference kind logicalKey document)

def read (kind logicalKey : String) : FileProg ArtifactPath ArtifactError (List UInt8) := do
  let reference ← S.reference kind logicalKey
  let payload ← readOr (.runtime "perception CAS object is missing")
    (S.artifactPath kind reference.exactSha256)
  Prog.ofExcept (if S.sha256 payload = reference.exactSha256 then .ok payload
    else .error (.runtime "perception CAS object failed exact-byte verification"))

end ArtifactLayout

inductive ArtifactCall
  | put (a : ArtifactPut)
  | read (kind logicalKey : String)

/-- What a call returns. -/
inductive ArtifactAnswer
  | digest (exactSha256 : String)
  | payload (bytes : List UInt8)

/-- The steps of a call. -/
def ArtifactLayout.method (S : ArtifactLayout) :
    ArtifactCall → FileProg ArtifactPath ArtifactError ArtifactAnswer
  | .put a => do
      let digest ← S.put a
      pure (.digest digest)
  | .read kind logicalKey => do
      let payload ← S.read kind logicalKey
      pure (.payload payload)

end Robata.Perception
