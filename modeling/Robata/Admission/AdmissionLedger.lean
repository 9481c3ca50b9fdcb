import Robata.Admission.AdmissionModels
import Robata.Lib.Dictionary

/-!
# The admission ledger

`InMemoryAdmissionLedger`: the dictionaries of the ledger and the calls that write them.  Every
append checks first and writes last, so that a call that raises has written nothing.
-/

namespace Robata.Admission

open Contracts Lib

variable {hashing : AdmissionHashing}

structure AdmissionLedger (hashing : AdmissionHashing) where
  aliases : KeyedTable (SourceAliasObservation hashing) OpaqueUuid (·.aliasObservationId)
  aliasBindings : Dict (String × String) (Sha256Digest × Sha256Digest)
  sourceDecisions : KeyedTable (SourceAdmissionDecision hashing) NodeLogicalKey
    (·.decisionLogicalKey)
  sourceHistory : Dict Sha256Digest (List NodeLogicalKey)
  sourceCurrent : Dict Sha256Digest NodeLogicalKey
  contentRecording : Dict Sha256Digest Sha256Digest
  alignmentDecisions : KeyedTable (AlignmentAdmissionDecision hashing) NodeLogicalKey
    (·.decisionLogicalKey)
  alignmentHistory : Dict OpaqueUuid (List NodeLogicalKey)
  alignmentCurrent : Dict OpaqueUuid NodeLogicalKey

/-- `_verify_chain_append`, given the sequence and the logical key of the current decision. -/
def verifyChainAppend (current : Option (Nat × NodeLogicalKey)) (sequence : Nat)
    (predecessor : Option NodeLogicalKey) (isGenesis : Bool) (requiredGenesis : String) :
    Except AdmissionFailure Unit :=
  match current with
  | none =>
    if sequence != 0 || predecessor.isSome || !isGenesis then
      .error (.ledger ("first decision must be sequence 0 " ++ requiredGenesis))
    else
      .ok ()
  | some (currentSequence, currentKey) =>
    if sequence != currentSequence + 1 then
      .error (.ledger "decision sequence is not contiguous")
    else if predecessor != some currentKey then
      .error (.ledger "decision predecessor is stale")
    else
      .ok ()

/-- Raise an `AdmissionLedgerError` if the condition holds. -/
def refuseIf (found : Bool) (text : String) : Except AdmissionFailure Unit :=
  if found then .error (.ledger text) else .ok ()

@[simp] theorem refuseIf_eq_ok {found : Bool} {text : String} {u : Unit} :
    refuseIf found text = .ok u ↔ found = false := by
  cases found <;> simp [refuseIf]

namespace AdmissionLedger

/-- A new ledger. -/
def empty : AdmissionLedger hashing :=
  ⟨.empty, .empty, .empty, .empty, .empty, .empty, .empty, .empty, .empty⟩

variable (ledger : AdmissionLedger hashing)

def currentSource (recordingIdentity : Sha256Digest) : Option (SourceAdmissionDecision hashing) :=
  (ledger.sourceCurrent.get? recordingIdentity).bind ledger.sourceDecisions.find?

def currentAlignment (readyManifestId : OpaqueUuid) : Option (AlignmentAdmissionDecision hashing) :=
  (ledger.alignmentCurrent.get? readyManifestId).bind ledger.alignmentDecisions.find?

def observeAlias (observation : SourceAliasObservation hashing) :
    Except AdmissionFailure (SourceAliasObservation hashing × AdmissionLedger hashing) := do
  let key := (observation.sourceUri, observation.sourceVersion)
  let binding := (observation.sourceContentSha256, observation.recordingIdentity)
  refuseIf ((ledger.aliasBindings.get? key).any (· != binding))
    "source alias/version resolved to different content"
  match ledger.aliases.find? observation.aliasObservationId with
  | some existing => pure (existing, ledger)
  | none => pure (observation,
      { ledger with
        aliasBindings := ledger.aliasBindings.set key binding
        aliases := ledger.aliases.upsert observation })

/-- The checks that `append_source_decision` makes of a decision it does not have yet. -/
def sourceGuards (decision : SourceAdmissionDecision hashing) : Except AdmissionFailure Unit := do
  refuseIf ((ledger.contentRecording.get? decision.sourceContentSha256).any
      (· != decision.recordingIdentity))
    "source content is bound to another recording identity"
  let current := ledger.currentSource decision.recordingIdentity
  verifyChainAppend (current.map fun c => (c.sequence, c.decisionLogicalKey)) decision.sequence
    decision.predecessorLogicalKey (decision.outcome == .pending) "PENDING"
  refuseIf (current.any (·.sourceContentSha256 != decision.sourceContentSha256))
    "recording identity cannot change source content"

/-- The writes of `append_source_decision`. -/
def recordSource (decision : SourceAdmissionDecision hashing) : AdmissionLedger hashing :=
  let history := (ledger.sourceHistory.get? decision.recordingIdentity).getD []
  { ledger with
    contentRecording :=
      ledger.contentRecording.set decision.sourceContentSha256 decision.recordingIdentity
    sourceDecisions := ledger.sourceDecisions.upsert decision
    sourceHistory := ledger.sourceHistory.set decision.recordingIdentity
      (history ++ [decision.decisionLogicalKey])
    sourceCurrent :=
      ledger.sourceCurrent.set decision.recordingIdentity decision.decisionLogicalKey }

def appendSourceDecision (decision : SourceAdmissionDecision hashing) :
    Except AdmissionFailure (SourceAdmissionDecision hashing × AdmissionLedger hashing) :=
  match ledger.sourceDecisions.find? decision.decisionLogicalKey with
  | some existing => .ok (existing, ledger)
  | none => do
      ledger.sourceGuards decision
      pure (decision, ledger.recordSource decision)

/-- `self._source_decisions[key]`. -/
def sourceDecision (key : NodeLogicalKey) :
    Except AdmissionFailure (SourceAdmissionDecision hashing) :=
  match ledger.sourceDecisions.find? key with
  | some decision => .ok decision
  | none => .error (.key key)

/-- A READY decision for the manifest. -/
def selectsManifest (readyManifestId : OpaqueUuid) (decision : SourceAdmissionDecision hashing) :
    Bool :=
  decision.outcome == .ready && decision.readyManifestId == some readyManifestId

def sourceForReadyManifest (readyManifestId : OpaqueUuid) :
    Except AdmissionFailure (Option (SourceAdmissionDecision hashing)) := do
  let selected ← ledger.sourceCurrent.values.mapM ledger.sourceDecision
  let found := selected.filter (selectsManifest readyManifestId)
  refuseIf (1 < found.length) "READY manifest is selected by multiple source identities"
  pure found.head?

/-- The checks that `append_alignment_decision` makes of a decision it does not have yet. -/
def alignmentGuards (decision : AlignmentAdmissionDecision hashing) :
    Except AdmissionFailure Unit := do
  let owningSource ← ledger.sourceForReadyManifest decision.readyManifestId
  match owningSource with
  | none =>
    .error (.ledger "alignment cohort requires a currently selected READY manifest")
  | some source => do
      refuseIf (source.readyManifestSemanticSha256 != some decision.readyManifestSemanticSha256)
        "alignment cohort READY digest mismatch"
      let current := ledger.currentAlignment decision.readyManifestId
      verifyChainAppend (current.map fun c => (c.sequence, c.decisionLogicalKey)) decision.sequence
        decision.predecessorLogicalKey (decision.outcome == .notScheduled) "NOT_SCHEDULED"

/-- The writes of `append_alignment_decision`. -/
def recordAlignment (decision : AlignmentAdmissionDecision hashing) : AdmissionLedger hashing :=
  let history := (ledger.alignmentHistory.get? decision.readyManifestId).getD []
  { ledger with
    alignmentDecisions := ledger.alignmentDecisions.upsert decision
    alignmentHistory := ledger.alignmentHistory.set decision.readyManifestId
      (history ++ [decision.decisionLogicalKey])
    alignmentCurrent :=
      ledger.alignmentCurrent.set decision.readyManifestId decision.decisionLogicalKey }

def appendAlignmentDecision (decision : AlignmentAdmissionDecision hashing) :
    Except AdmissionFailure (AlignmentAdmissionDecision hashing × AdmissionLedger hashing) :=
  match ledger.alignmentDecisions.find? decision.decisionLogicalKey with
  | some existing => .ok (existing, ledger)
  | none => do
      ledger.alignmentGuards decision
      pure (decision, ledger.recordAlignment decision)

/-- `_primary_evaluation`. -/
def refusal (recordingIdentity : Sha256Digest) (policy : PrimaryAdmissionPolicy hashing)
    (source : Option (SourceAdmissionDecision hashing))
    (alignment : Option (AlignmentAdmissionDecision hashing)) (reasonCode : String) :
    PrimaryAdmissionEvaluation where
  recordingIdentity := recordingIdentity
  readyManifestId := source.bind (·.readyManifestId)
  readyManifestSemanticSha256 := source.bind (·.readyManifestSemanticSha256)
  sourceOutcome := source.map (·.outcome)
  alignmentOutcome := alignment.map (·.outcome)
  alignmentId := alignment.bind (·.alignmentId)
  alignmentSemanticSha256 := alignment.bind (·.alignmentSemanticSha256)
  policyVersion := policy.version
  policySha256 := policy.semanticSha256
  admissible := false
  reasonCode := reasonCode

def evaluatePrimary (recordingIdentity : Sha256Digest) (policy : PrimaryAdmissionPolicy hashing) :
    Except AdmissionFailure PrimaryAdmissionEvaluation :=
  match ledger.currentSource recordingIdentity with
  | none => (refusal recordingIdentity policy none none "SOURCE_NOT_DISCOVERED").check
  | some source =>
    if source.outcome ≠ .ready then
      (refusal recordingIdentity policy (some source) none "SOURCE_NOT_READY").check
    else
      match source.readyManifestId with
      | none => .error .assertion
      | some readyManifestId =>
        match ledger.currentAlignment readyManifestId with
        | none =>
          (refusal recordingIdentity policy (some source) none "ALIGNMENT_NOT_IN_COHORT").check
        | some alignment =>
          if alignment.outcome ∉ policy.admissibleAlignmentOutcomes then
            (refusal recordingIdentity policy (some source) (some alignment)
              "ALIGNMENT_NOT_ADMISSIBLE").check
          else
            PrimaryAdmissionEvaluation.check
              { recordingIdentity := recordingIdentity
                readyManifestId := source.readyManifestId
                readyManifestSemanticSha256 := source.readyManifestSemanticSha256
                sourceOutcome := some source.outcome
                alignmentOutcome := some alignment.outcome
                alignmentId := alignment.alignmentId
                alignmentSemanticSha256 := alignment.alignmentSemanticSha256
                policyVersion := policy.version
                policySha256 := policy.semanticSha256
                admissible := true
                reasonCode := "ADMISSIBLE" }

end AdmissionLedger

end Robata.Admission
