import Mathlib.Data.Prod.Lex
import Mathlib.Data.String.Basic
import Robata.Lib.Buckets
import Robata.Lib.Dictionary
import Robata.Lib.Method
import Robata.Lib.Sorting
import Robata.Lib.Walks

/-!
# The upcaster graph

`SchemaUpcasterGraph`: registrations are edges between pinned schema versions, and the graph is
accepted when they form no cycle and join no two versions twice.  A loop or a recursion takes a
bound on its rounds that it does not exceed.

A transform is a function of its payload; of a registration the pins and the edge are kept.
-/

namespace Robata.Upcasting

open Lib List

structure SchemaRef where
  (schemaId version artifactId sha256 : String)
deriving DecidableEq

def SchemaRef.key (ref : SchemaRef) : String ×ₗ String := toLex (ref.schemaId, ref.version)

def SchemaRef.text (ref : SchemaRef) : String := ref.schemaId ++ "@" ++ ref.version

structure UpcasterCatalogEntry where
  upcasterId : String
  (source target : SchemaRef)
  (codeSha256 runtimeSha256 : String)
deriving DecidableEq

/-- What registration and upcasting raise. -/
inductive UpcastError
  | notFound (ref : SchemaRef)
  | pinMismatch (ref expected : SchemaRef)
  | schemaIds
  | duplicateId (upcasterId : String)
  | duplicateEdge (source target : SchemaRef)
  | cycle (ref : SchemaRef)
  | ambiguity (source target : SchemaRef)
  | unknownImplementations (ids : List String)
  | implementationKey (upcasterId : String)
  | codeDigest (upcasterId : String)
  | runtimeDigest (upcasterId : String)
  | pathNotFound (source target : SchemaRef)
  | noImplementation (upcasterId : String)
  | nondeterministic (upcasterId : String)
  | changedOutput (upcasterId : String)
  | canonicalization (message : String)
  | invalidPayload (message : String)
deriving DecidableEq

def UpcastError.message : UpcastError → String
  | notFound ref => "schema is not registered: " ++ ref.text
  | pinMismatch ref expected => "schema pin mismatch for " ++ ref.text ++ ": expected artifact " ++
      expected.artifactId ++ " and digest " ++ expected.sha256
  | schemaIds => "upcaster source and target must share schema_id"
  | duplicateId upcasterId => "duplicate upcaster_id: " ++ upcasterId
  | duplicateEdge source target =>
    "duplicate upcaster edge: " ++ source.version ++ "->" ++ target.version
  | cycle ref => "upcaster graph contains a cycle at " ++ ref.text
  | ambiguity source target =>
    "multiple upcaster paths connect " ++ source.text ++ " to " ++ target.text
  | unknownImplementations ids => "implementations have no catalog registration: [" ++
      ", ".intercalate (ids.map fun upcasterId => "'" ++ upcasterId ++ "'") ++ "]"
  | implementationKey upcasterId =>
    "implementation key does not match upcaster_id: " ++ upcasterId
  | codeDigest upcasterId => "code digest mismatch for upcaster " ++ upcasterId
  | runtimeDigest upcasterId => "runtime digest mismatch for upcaster " ++ upcasterId
  | pathNotFound source target =>
    "no registered upcast path from " ++ source.text ++ " to " ++ target.text
  | noImplementation upcasterId => "no implementation for upcaster " ++ upcasterId
  | nondeterministic upcasterId => "upcaster " ++ upcasterId ++ " is nondeterministic"
  | changedOutput upcasterId => "upcaster " ++ upcasterId ++
      " changed output across calls for the same canonical input"
  | canonicalization message => message
  | invalidPayload message => message

/-- `_registered_by_key`. -/
abbrev Registered := KeyedTable SchemaRef (String ×ₗ String) SchemaRef.key

/-- `SchemaRegistry.resolve_exact`, without software support. -/
def resolveExact (registry : Registered) (ref : SchemaRef) : Except UpcastError Unit :=
  match registry.find? ref.key with
  | none => .error (.notFound ref)
  | some registered => if ref ≠ registered then .error (.pinMismatch ref registered) else .ok ()

/-! ## Registration -/

section Registration

variable (registrations : List UpcasterCatalogEntry)

/-- One turn of the loop of `_validate_and_index`, with the registrations before. -/
def checkRegistration (registry : Registered) (before : List UpcasterCatalogEntry)
    (registration : UpcasterCatalogEntry) : Except UpcastError (List UpcasterCatalogEntry) := do
  resolveExact registry registration.source
  resolveExact registry registration.target
  if registration.source.schemaId ≠ registration.target.schemaId then .error .schemaIds
  else if registration.upcasterId ∈ before.map (·.upcasterId) then
    .error (.duplicateId registration.upcasterId)
  else if (registration.source, registration.target) ∈ before.map fun r => (r.source, r.target) then
    .error (.duplicateEdge registration.source registration.target)
  else .ok (before ++ [registration])

/-- `self._outgoing.get(node, ())`. -/
def outgoing (node : SchemaRef) : List UpcasterCatalogEntry :=
  sortedBy (·.upcasterId) (inBucket (·.source) registrations node)

/-- `sorted(nodes, key=lambda ref: ref.key)`. -/
def sortedNodes : List SchemaRef :=
  canonical SchemaRef.key (registrations.flatMap fun r => [r.source, r.target])

/-- `visit`. -/
def visit : Nat → Dict SchemaRef Nat → SchemaRef → Except UpcastError (Dict SchemaRef Nat)
  | 0, state, _ => .ok state
  | bound + 1, state, node =>
    let marker := (state.get? node).getD 0
    if marker = 1 then .error (.cycle node)
    else if marker = 2 then .ok state
    else do
      let state ← (outgoing registrations node).foldlM
        (fun state edge => visit bound state edge.target) (state.set node 1)
      return state.set node 2

def rejectCycles : Except UpcastError Unit := do
  let nodes := sortedNodes registrations
  let _ ← nodes.foldlM (visit registrations (nodes.length + 1)) KeyedTable.empty

/-- An edge out of a node: the counts and the queue afterwards. -/
def countEdge (node : SchemaRef) (s : Dict SchemaRef Nat × List SchemaRef)
    (edge : UpcasterCatalogEntry) : Dict SchemaRef Nat × List SchemaRef :=
  let previous := (s.1.get? edge.target).getD 0
  let pathCounts := s.1.set edge.target (min 2 (previous + (s.1.get? node).getD 0))
  (pathCounts, if previous = 0 then s.2 ++ [edge.target] else s.2)

/-- `path_counts` when the queue is empty. -/
def pathCounts : Nat → Dict SchemaRef Nat → List SchemaRef → Dict SchemaRef Nat
  | 0, counts, _ => counts
  | _, counts, [] => counts
  | bound + 1, counts, node :: queue =>
    let (counts, queue) := (outgoing registrations node).foldl (countEdge node) (counts, queue)
    pathCounts bound counts queue

/-- The targets that a source is joined to more than once. -/
def ambiguousTargets (source : SchemaRef) : List SchemaRef :=
  let counts := pathCounts registrations (registrations.length + 1)
    (Dict.set KeyedTable.empty source 1) [source]
  sortedBy SchemaRef.key ((counts.rows.filter (1 < ·.2)).map Prod.fst)

/-- The turn of a source in `_reject_ambiguous_paths`. -/
def rejectAmbiguousFrom (source : SchemaRef) : Except UpcastError Unit :=
  match ambiguousTargets registrations source with
  | [] => .ok ()
  | target :: _ => .error (.ambiguity source target)

def rejectAmbiguousPaths : Except UpcastError Unit :=
  (sortedNodes registrations).forM (rejectAmbiguousFrom registrations)

structure UpcasterImplementation (J : Type) where
  (upcasterId codeSha256 runtimeSha256 : String)
  transform : J → J

variable {J : Type} (implementations : Dict String (UpcasterImplementation J))

/-- The loop over the implementations, whose keys are registered. -/
def checkImplementation (entry : String × UpcasterImplementation J) : Except UpcastError Unit :=
  let (upcasterId, implementation) := entry
  if implementation.upcasterId ≠ upcasterId then .error (.implementationKey upcasterId)
  else
    match registrations.find? (·.upcasterId = upcasterId) with
    | none => .ok ()
    | some registration =>
      if implementation.codeSha256 ≠ registration.codeSha256 then .error (.codeDigest upcasterId)
      else if implementation.runtimeSha256 ≠ registration.runtimeSha256 then
        .error (.runtimeDigest upcasterId)
      else .ok ()

def checkImplementations : Except UpcastError Unit :=
  let ids := registrations.map (·.upcasterId)
  let unknown := sortedBy id ((implementations.rows.map Prod.fst).filter (· ∉ ids))
  if unknown ≠ [] then .error (.unknownImplementations unknown)
  else implementations.rows.forM (checkImplementation registrations)

def validateAndIndex (registry : Registered) : Except UpcastError Unit := do
  let _ ← registrations.foldlM (checkRegistration registry) []
  rejectCycles registrations
  rejectAmbiguousPaths registrations
  checkImplementations registrations implementations

end Registration

/-! ## Upcasting -/

section Paths

variable (registrations : List UpcasterCatalogEntry)

/-- An edge out of a node.  An edge to the target ends the search with its path. -/
def searchEdge (target : SchemaRef) (path : List UpcasterCatalogEntry)
    (s : List SchemaRef × List (SchemaRef × List UpcasterCatalogEntry))
    (edge : UpcasterCatalogEntry) : Except (List UpcasterCatalogEntry)
      (List SchemaRef × List (SchemaRef × List UpcasterCatalogEntry)) :=
  let candidate := path ++ [edge]
  if edge.target = target then .error candidate
  else if edge.target ∉ s.1 then .ok (s.1 ++ [edge.target], s.2 ++ [(edge.target, candidate)])
  else .ok s

/-- The loop of `resolve_path`. -/
def searchPath (target : SchemaRef) : Nat → List SchemaRef →
    List (SchemaRef × List UpcasterCatalogEntry) → Option (List UpcasterCatalogEntry)
  | 0, _, _ => none
  | _, _, [] => none
  | bound + 1, visited, (node, path) :: queue =>
    match (outgoing registrations node).foldlM (searchEdge target path) (visited, queue) with
    | .error candidate => some candidate
    | .ok (visited, queue) => searchPath target bound visited queue

def resolvePath (registry : Registered) (source target : SchemaRef) :
    Except UpcastError (List UpcasterCatalogEntry) := do
  resolveExact registry source
  resolveExact registry target
  if source = target then return []
  match searchPath registrations target (registrations.length + 1) [source] [(source, [])] with
  | some path => return path
  | none => .error (.pathNotFound source target)

end Paths

/-- What upcasting uses of hashing and of the schemas, with the messages that they raise. -/
structure PayloadRules (J : Type) where
  canonicalJson : J → Except String String
  sha256 : String → String
  validatePinned : SchemaRef → J → Except String Unit
  chainDigest : UpcasterCatalogEntry → String

structure SchemaUpcasterGraph (J : Type) where
  registry : Registered
  registrations : List UpcasterCatalogEntry
  implementations : Dict String (UpcasterImplementation J)
  rules : PayloadRules J

/-- `_determinism_seals`. -/
abbrev Seals := Dict (String × String) String

structure UpcastProvenance where
  originalDigest : String
  (source target : SchemaRef)
  (upcasterIds upcasterChainDigests : List String)

structure UpcastProjection (J : Type) where
  payload : J
  provenance : UpcastProvenance

namespace SchemaUpcasterGraph

variable {J : Type} (graph : SchemaUpcasterGraph J)

def canonical (payload : J) : Method Seals UpcastError String :=
  Method.ofExcept ((graph.rules.canonicalJson payload).mapError .canonicalization)

def validatePinned (ref : SchemaRef) (payload : J) : Method Seals UpcastError Unit :=
  Method.ofExcept ((graph.rules.validatePinned ref payload).mapError .invalidPayload)

def checkDeterminismSeal (registration : UpcasterCatalogEntry) (payload output : J) :
    Method Seals UpcastError Unit := do
  let key := (registration.upcasterId, graph.rules.sha256 (← graph.canonical payload))
  let outputDigest := graph.rules.sha256 (← graph.canonical output)
  let expectedDigest := ((← Method.self).get? key).getD outputDigest
  Method.assign (·.set key expectedDigest)
  Method.raiseIf (outputDigest ≠ expectedDigest) (.changedOutput registration.upcasterId)

/-- `_execute_registration`.  A transform cannot mutate a payload here. -/
def executeRegistration (payload : J) (registration : UpcasterCatalogEntry) :
    Method Seals UpcastError J :=
  match graph.implementations.get? registration.upcasterId with
  | none => Method.ofExcept (.error (.noImplementation registration.upcasterId))
  | some implementation => do
    let _ ← graph.canonical payload
    let first := implementation.transform payload
    let second := implementation.transform payload
    let firstText ← graph.canonical first
    let secondText ← graph.canonical second
    Method.raiseIf (firstText ≠ secondText) (.nondeterministic registration.upcasterId)
    graph.validatePinned registration.target first
    graph.checkDeterminismSeal registration payload first
    return first

def upcast (source target : SchemaRef) (payload : J) :
    Method Seals UpcastError (UpcastProjection J) := do
  let path ← Method.ofExcept (resolvePath graph.registrations graph.registry source target)
  graph.validatePinned source payload
  let originalDigest := graph.rules.sha256 (← graph.canonical payload)
  let current ← path.foldlM graph.executeRegistration payload
  return {
    payload := current
    provenance := {
      originalDigest
      source
      target
      upcasterIds := path.map (·.upcasterId)
      upcasterChainDigests := path.map graph.rules.chainDigest } }

end SchemaUpcasterGraph

end Robata.Upcasting
