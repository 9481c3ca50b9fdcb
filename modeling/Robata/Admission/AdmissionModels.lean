import Robata.Contracts.Common
import Robata.Lib.Transaction

/-!
# Admission decisions

The records of the two admission ledgers.  A decision is identified by the digest of a
projection of its fields; its validator recomputes the digest, the logical key and the
decision id.  The two projections leave out the ids of the artifacts they select and keep
their digests.
-/

namespace Robata.Admission

open Contracts Lib

/-- What the ledger and its records raise. -/
inductive AdmissionFailure
  | value (text : String)
  | ledger (text : String)
  | key (name : String)
  | assertion
  deriving DecidableEq

/-- Raise a `ValueError` if the condition holds. -/
def invalidIf (found : Bool) (text : String) : Except AdmissionFailure Unit :=
  if found then .error (.value text) else .ok ()

def requirePair (name : String) (identity : Option OpaqueUuid) (digest : Option Sha256Digest) :
    Except AdmissionFailure Unit :=
  invalidIf (identity.isNone != digest.isNone) (name ++ " ID and digest must be supplied together")

/-- `NonEmptyString | None`. -/
def nonEmpty (text : Option String) : Except AdmissionFailure Unit :=
  invalidIf (text == some "") "String should have at least 1 character"

@[simp] theorem invalidIf_eq_ok {found : Bool} {text : String} {u : Unit} :
    invalidIf found text = .ok u ↔ found = false := by
  cases found <;> simp [invalidIf]

@[simp] theorem requirePair_eq_ok {name : String} {identity : Option OpaqueUuid}
    {digest : Option Sha256Digest} {u : Unit} :
    requirePair name identity digest = .ok u ↔ identity.isNone = digest.isNone := by
  simp [requirePair]

inductive SourceAdmissionOutcome
  | pending
  | ready
  | invalid
  | failedValidation
  | quarantined
  deriving DecidableEq

inductive AlignmentAdmissionOutcome
  | notScheduled
  | queued
  | running
  | valid
  | degraded
  | invalid
  | failed
  | cancelled
  deriving DecidableEq

namespace SourceAdmissionOutcome

def value : SourceAdmissionOutcome → String
  | pending => "PENDING"
  | ready => "READY"
  | invalid => "INVALID"
  | failedValidation => "FAILED_VALIDATION"
  | quarantined => "QUARANTINED"

end SourceAdmissionOutcome

namespace AlignmentAdmissionOutcome

def value : AlignmentAdmissionOutcome → String
  | notScheduled => "NOT_SCHEDULED"
  | queued => "QUEUED"
  | running => "RUNNING"
  | valid => "VALID"
  | degraded => "DEGRADED"
  | invalid => "INVALID"
  | failed => "FAILED"
  | cancelled => "CANCELLED"

/-- The outcomes that a policy may admit. -/
def allowed (o : AlignmentAdmissionOutcome) : Bool := o == valid || o == degraded

end AlignmentAdmissionOutcome

/-! ## Projections -/

structure SourceAliasProjection where
  (sourceUri sourceVersion : String)
  (sourceContentSha256 recordingIdentity : Sha256Digest)
  deriving DecidableEq

/-- The keys of `_source_decision_projection`. -/
structure SourceDecisionProjection where
  (recordingIdentity sourceContentSha256 : Sha256Digest)
  sequence : Nat
  outcome : SourceAdmissionOutcome
  (validationReportSemanticSha256 readyManifestSemanticSha256 : Option Sha256Digest)
  policyVersion : SchemaVersion
  policySha256 : Sha256Digest
  reasonCode : Option String
  predecessorLogicalKey : Option NodeLogicalKey
  deriving DecidableEq

/-- The keys of `_alignment_decision_projection`. -/
structure AlignmentDecisionProjection where
  readyManifestSemanticSha256 : Sha256Digest
  sequence : Nat
  outcome : AlignmentAdmissionOutcome
  (alignmentSemanticSha256 validationEvidenceSha256 : Option Sha256Digest)
  policyVersion : SchemaVersion
  policySha256 : Sha256Digest
  reasonCode : Option String
  predecessorLogicalKey : Option NodeLogicalKey
  deriving DecidableEq

structure PolicyProjection where
  version : SchemaVersion
  admissibleAlignmentOutcomes : List AlignmentAdmissionOutcome
  deriving DecidableEq

/-- The objects that are digested. -/
inductive AdmissionPayload
  | sourceAlias (projection : SourceAliasProjection)
  | sourceDecision (projection : SourceDecisionProjection)
  | alignmentDecision (projection : AlignmentDecisionProjection)
  | primaryPolicy (projection : PolicyProjection)
  deriving DecidableEq

/-- `semantic_sha256` and `_stable_uuid`. -/
structure AdmissionHashing where
  semanticSha256 : AdmissionPayload → Sha256Digest
  stableUuid : String → Sha256Digest → OpaqueUuid

/-! ## Source decisions -/

/-- The arguments of `create_source_admission_decision`, but for `decided_at`. -/
structure SourceDecisionValues where
  (recordingIdentity sourceContentSha256 : Sha256Digest)
  sequence : Nat
  outcome : SourceAdmissionOutcome
  validationReportId : Option OpaqueUuid
  validationReportSemanticSha256 : Option Sha256Digest
  readyManifestId : Option OpaqueUuid
  readyManifestSemanticSha256 : Option Sha256Digest
  policyVersion : SchemaVersion
  policySha256 : Sha256Digest
  reasonCode : Option String
  predecessorLogicalKey : Option NodeLogicalKey
  deriving DecidableEq

namespace SourceDecisionValues

variable (v : SourceDecisionValues)

/-- `_source_decision_projection`. -/
def projection : SourceDecisionProjection where
  recordingIdentity := v.recordingIdentity
  sourceContentSha256 := v.sourceContentSha256
  sequence := v.sequence
  outcome := v.outcome
  validationReportSemanticSha256 := v.validationReportSemanticSha256
  readyManifestSemanticSha256 := v.readyManifestSemanticSha256
  policyVersion := v.policyVersion
  policySha256 := v.policySha256
  reasonCode := v.reasonCode
  predecessorLogicalKey := v.predecessorLogicalKey

/-- The two ids that the projection leaves out. -/
def selectedIds : Option OpaqueUuid × Option OpaqueUuid := (v.validationReportId, v.readyManifestId)

/-- The evidence that an outcome requires and excludes. -/
def checkOutcome : Except AdmissionFailure Unit :=
  match v.outcome with
  | .pending =>
    invalidIf (v.validationReportId.isSome || v.readyManifestId.isSome)
      "PENDING source decisions cannot select evidence"
  | .ready =>
    invalidIf (v.validationReportId.isNone || v.readyManifestId.isNone)
      "READY requires selected validation and READY artifacts"
  | .invalid | .failedValidation => do
      invalidIf v.validationReportId.isNone "validation outcome requires a validation report"
      invalidIf v.readyManifestId.isSome "non-READY outcome cannot select a READY manifest"
  | .quarantined => do
      invalidIf v.readyManifestId.isSome "QUARANTINED cannot select a READY manifest"
      invalidIf v.reasonCode.isNone "QUARANTINED requires a reason code"

/-- The part of `validate_decision` before the digest. -/
def check : Except AdmissionFailure Unit := do
  nonEmpty v.reasonCode
  requirePair "validation report" v.validationReportId v.validationReportSemanticSha256
  requirePair "READY manifest" v.readyManifestId v.readyManifestSemanticSha256
  invalidIf (v.sequence == 0 && v.predecessorLogicalKey.isSome)
    "source decision genesis cannot have a predecessor"
  invalidIf (v.sequence != 0 && v.predecessorLogicalKey.isNone)
    "non-genesis source decision requires a predecessor"
  v.checkOutcome

end SourceDecisionValues

/-- One append-only source-content outcome selection.  The last field is what the validator of
the model checks. -/
structure SourceAdmissionDecision (hashing : AdmissionHashing) extends SourceDecisionValues where
  decisionId : OpaqueUuid
  decisionLogicalKey : NodeLogicalKey
  semanticSha256 : Sha256Digest
  decidedAt : String
  checked : toSourceDecisionValues.check = .ok ()
  digest : semanticSha256 = hashing.semanticSha256 (.sourceDecision toSourceDecisionValues.projection)
  logicalKey : decisionLogicalKey = "source-admission-decision:" ++ semanticSha256
  identity : decisionId = hashing.stableUuid "source-admission-decision" semanticSha256
  deriving DecidableEq

def createSourceAdmissionDecision (hashing : AdmissionHashing) (values : SourceDecisionValues)
    (decidedAt : String) : Except AdmissionFailure (SourceAdmissionDecision hashing) :=
  let digest := hashing.semanticSha256 (.sourceDecision values.projection)
  match h : values.check with
  | .error e => .error e
  | .ok () => .ok
      { toSourceDecisionValues := values
        decisionId := hashing.stableUuid "source-admission-decision" digest
        decisionLogicalKey := "source-admission-decision:" ++ digest
        semanticSha256 := digest
        decidedAt := decidedAt
        checked := h
        digest := rfl
        logicalKey := rfl
        identity := rfl }

/-! ## Alignment decisions -/

/-- The arguments of `create_alignment_admission_decision`, but for `decided_at`. -/
structure AlignmentDecisionValues where
  readyManifestId : OpaqueUuid
  readyManifestSemanticSha256 : Sha256Digest
  sequence : Nat
  outcome : AlignmentAdmissionOutcome
  alignmentId : Option OpaqueUuid
  (alignmentSemanticSha256 validationEvidenceSha256 : Option Sha256Digest)
  policyVersion : SchemaVersion
  policySha256 : Sha256Digest
  reasonCode : Option String
  predecessorLogicalKey : Option NodeLogicalKey
  deriving DecidableEq

namespace AlignmentDecisionValues

variable (v : AlignmentDecisionValues)

/-- `_alignment_decision_projection`. -/
def projection : AlignmentDecisionProjection where
  readyManifestSemanticSha256 := v.readyManifestSemanticSha256
  sequence := v.sequence
  outcome := v.outcome
  alignmentSemanticSha256 := v.alignmentSemanticSha256
  validationEvidenceSha256 := v.validationEvidenceSha256
  policyVersion := v.policyVersion
  policySha256 := v.policySha256
  reasonCode := v.reasonCode
  predecessorLogicalKey := v.predecessorLogicalKey

/-- The two ids that the projection leaves out. -/
def selectedIds : OpaqueUuid × Option OpaqueUuid := (v.readyManifestId, v.alignmentId)

/-- The evidence that an outcome requires and excludes. -/
def checkOutcome : Except AdmissionFailure Unit :=
  match v.outcome with
  | .notScheduled | .queued =>
    invalidIf (v.alignmentId.isSome || v.validationEvidenceSha256.isSome)
      (v.outcome.value ++ " cannot select alignment evidence")
  | .running => do
      invalidIf v.alignmentId.isNone "RUNNING requires an alignment derivation"
      invalidIf v.validationEvidenceSha256.isSome
        "RUNNING cannot carry terminal validation evidence"
  | .valid | .degraded | .invalid =>
    invalidIf (v.alignmentId.isNone || v.validationEvidenceSha256.isNone)
      "terminal alignment verdict requires derivation and evidence"
  | .failed | .cancelled =>
    invalidIf v.reasonCode.isNone (v.outcome.value ++ " requires a reason code")

/-- The part of `validate_decision` before the digest. -/
def check : Except AdmissionFailure Unit := do
  nonEmpty v.reasonCode
  requirePair "alignment" v.alignmentId v.alignmentSemanticSha256
  invalidIf (v.sequence == 0 && v.predecessorLogicalKey.isSome)
    "alignment decision genesis cannot have a predecessor"
  invalidIf (v.sequence != 0 && v.predecessorLogicalKey.isNone)
    "non-genesis alignment decision requires a predecessor"
  v.checkOutcome

end AlignmentDecisionValues

structure AlignmentAdmissionDecision (hashing : AdmissionHashing)
    extends AlignmentDecisionValues where
  decisionId : OpaqueUuid
  decisionLogicalKey : NodeLogicalKey
  semanticSha256 : Sha256Digest
  decidedAt : String
  checked : toAlignmentDecisionValues.check = .ok ()
  digest : semanticSha256 =
    hashing.semanticSha256 (.alignmentDecision toAlignmentDecisionValues.projection)
  logicalKey : decisionLogicalKey = "alignment-admission-decision:" ++ semanticSha256
  identity : decisionId = hashing.stableUuid "alignment-admission-decision" semanticSha256
  deriving DecidableEq

def createAlignmentAdmissionDecision (hashing : AdmissionHashing)
    (values : AlignmentDecisionValues) (decidedAt : String) :
    Except AdmissionFailure (AlignmentAdmissionDecision hashing) :=
  let digest := hashing.semanticSha256 (.alignmentDecision values.projection)
  match h : values.check with
  | .error e => .error e
  | .ok () => .ok
      { toAlignmentDecisionValues := values
        decisionId := hashing.stableUuid "alignment-admission-decision" digest
        decisionLogicalKey := "alignment-admission-decision:" ++ digest
        semanticSha256 := digest
        decidedAt := decidedAt
        checked := h
        digest := rfl
        logicalKey := rfl
        identity := rfl }

/-! ## Aliases, policies and evaluations -/

structure SourceAliasObservation (hashing : AdmissionHashing) extends SourceAliasProjection where
  aliasObservationId : OpaqueUuid
  semanticSha256 : Sha256Digest
  observedAt : String
  digest : semanticSha256 = hashing.semanticSha256 (.sourceAlias toSourceAliasProjection)
  identity : aliasObservationId = hashing.stableUuid "source-alias" semanticSha256

def createSourceAliasObservation (hashing : AdmissionHashing) (values : SourceAliasProjection)
    (observedAt : String) : SourceAliasObservation hashing :=
  let digest := hashing.semanticSha256 (.sourceAlias values)
  { toSourceAliasProjection := values
    aliasObservationId := hashing.stableUuid "source-alias" digest
    semanticSha256 := digest
    observedAt := observedAt
    digest := rfl
    identity := rfl }

structure PrimaryAdmissionPolicy (hashing : AdmissionHashing) where
  version : SchemaVersion
  semanticSha256 : Sha256Digest
  admissibleAlignmentOutcomes : List AlignmentAdmissionOutcome
  nonempty : admissibleAlignmentOutcomes ≠ []
  nodup : admissibleAlignmentOutcomes.Nodup
  allowed : ∀ o ∈ admissibleAlignmentOutcomes, o.allowed = true
  digest : semanticSha256 =
    hashing.semanticSha256 (.primaryPolicy ⟨version, admissibleAlignmentOutcomes⟩)

structure PrimaryAdmissionEvaluation where
  recordingIdentity : Sha256Digest
  readyManifestId : Option OpaqueUuid
  readyManifestSemanticSha256 : Option Sha256Digest
  sourceOutcome : Option SourceAdmissionOutcome
  alignmentOutcome : Option AlignmentAdmissionOutcome
  alignmentId : Option OpaqueUuid
  alignmentSemanticSha256 : Option Sha256Digest
  policyVersion : SchemaVersion
  policySha256 : Sha256Digest
  admissible : Bool
  reasonCode : String

namespace PrimaryAdmissionEvaluation

/-- `validate_selected_evidence`. -/
def check (e : PrimaryAdmissionEvaluation) :
    Except AdmissionFailure PrimaryAdmissionEvaluation := do
  requirePair "evaluated READY manifest" e.readyManifestId e.readyManifestSemanticSha256
  requirePair "evaluated alignment" e.alignmentId e.alignmentSemanticSha256
  invalidIf (e.admissible && (e.sourceOutcome != some .ready || e.readyManifestId.isNone ||
      !e.alignmentOutcome.any AlignmentAdmissionOutcome.allowed || e.alignmentId.isNone))
    "admissible evaluation requires selected READY and alignment"
  invalidIf (e.admissible && e.reasonCode != "ADMISSIBLE")
    "admissible evaluation requires ADMISSIBLE reason"
  pure e

end PrimaryAdmissionEvaluation

/-! ## What the validators ensure -/

variable {hashing : AdmissionHashing}

namespace SourceAdmissionDecision

variable (d : SourceAdmissionDecision hashing)

theorem create_values : createSourceAdmissionDecision hashing d.toSourceDecisionValues d.decidedAt =
    .ok d := by
  obtain ⟨values, _, _, _, decidedAt, hchecked, rfl, rfl, rfl⟩ := d
  unfold createSourceAdmissionDecision
  split
  · rename_i e h
    exact absurd (h.symm.trans hchecked) (by simp)
  · rfl

theorem eq_of_values {d e : SourceAdmissionDecision hashing}
    (hvalues : d.toSourceDecisionValues = e.toSourceDecisionValues)
    (hdecided : d.decidedAt = e.decidedAt) : d = e := by
  have hd := d.create_values
  rw [hvalues, hdecided, e.create_values] at hd
  exact (Except.ok.inj hd).symm

theorem paired : d.readyManifestId.isNone = d.readyManifestSemanticSha256.isNone := by
  have h := d.checked
  simp only [SourceDecisionValues.check, bind_eq_ok, requirePair_eq_ok] at h
  obtain ⟨_, _, _, _, _, hpair, _⟩ := h
  exact hpair

end SourceAdmissionDecision

namespace AlignmentAdmissionDecision

variable (d : AlignmentAdmissionDecision hashing)

theorem create_values :
    createAlignmentAdmissionDecision hashing d.toAlignmentDecisionValues d.decidedAt = .ok d := by
  obtain ⟨values, _, _, _, decidedAt, hchecked, rfl, rfl, rfl⟩ := d
  unfold createAlignmentAdmissionDecision
  split
  · rename_i e h
    exact absurd (h.symm.trans hchecked) (by simp)
  · rfl

theorem eq_of_values {d e : AlignmentAdmissionDecision hashing}
    (hvalues : d.toAlignmentDecisionValues = e.toAlignmentDecisionValues)
    (hdecided : d.decidedAt = e.decidedAt) : d = e := by
  have hd := d.create_values
  rw [hvalues, hdecided, e.create_values] at hd
  exact (Except.ok.inj hd).symm

theorem paired : d.alignmentId.isNone = d.alignmentSemanticSha256.isNone := by
  have h := d.checked
  simp only [AlignmentDecisionValues.check, bind_eq_ok, requirePair_eq_ok] at h
  obtain ⟨_, _, _, hpair, _⟩ := h
  exact hpair

theorem selects_alignment (h : d.outcome.allowed = true) : d.alignmentId.isSome = true := by
  have hcheck := d.checked
  simp only [AlignmentDecisionValues.check, bind_eq_ok] at hcheck
  obtain ⟨_, _, _, _, _, _, _, _, houtcome⟩ := hcheck
  cases hd : d.outcome <;> rw [hd] at h <;> try cases h
  all_goals
    simp only [AlignmentDecisionValues.checkOutcome, hd, invalidIf_eq_ok, Bool.or_eq_false_iff,
      Option.isNone_eq_false_iff] at houtcome
    exact houtcome.1

end AlignmentAdmissionDecision

end Robata.Admission
