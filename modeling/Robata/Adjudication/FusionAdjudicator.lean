import Mathlib.Algebra.Order.Ring.Unbundled.Rat
import Mathlib.Data.Prod.Lex
import Mathlib.Data.String.Basic
import Robata.Contracts.Common
import Robata.Lib.Dictionary
import Robata.Lib.Sorting

/-!
# Adjudication of fusion decisions

`FusionAdjudicator` of `adjudication.py`: decisions are taken in the order of falling confidence
and compared with those accepted so far; a decision that overlaps accepted ones is resolved with
them as one conflict.  Confidences are exact rationals.
-/

namespace Robata.Adjudication

open Contracts Lib

structure FusionDecision where
  eventId : OpaqueUuid
  interval : NanosecondInterval
  actionType : String
  confidence : ℚ
  ambiguityState : String
  supportingCameraCount : Nat
  evidenceDigest : Sha256Digest
  policyVersion : SchemaVersion
  productionEligible : Bool
  deriving DecidableEq

inductive ConflictResolutionStrategy
  | highestConfidence
  | abstainOnConflict
  | keepNonOverlapping
  deriving DecidableEq

def ConflictResolutionStrategy.value : ConflictResolutionStrategy → String
  | .highestConfidence => "HIGHEST_CONFIDENCE"
  | .abstainOnConflict => "ABSTAIN_ON_CONFLICT"
  | .keepNonOverlapping => "KEEP_NON_OVERLAPPING"

structure AdjudicationPolicy where
  version : SchemaVersion
  conflictResolutionStrategy : ConflictResolutionStrategy
  confidenceMargin : ℚ
  marginNonneg : 0 ≤ confidenceMargin
  marginUpper : confidenceMargin ≤ 1

structure AdjudicationResult where
  (finalDecisions abstained : List FusionDecision)
  rationale : String
  deriving DecidableEq

def Overlap (left right : FusionDecision) : Prop :=
  left.interval.startNs < right.interval.endNs ∧ right.interval.startNs < left.interval.endNs

instance decidableOverlap (left right : FusionDecision) : Decidable (Overlap left right) :=
  inferInstanceAs (Decidable (_ ∧ _))

theorem Overlap.symm {left right : FusionDecision} (h : Overlap left right) :
    Overlap right left := ⟨h.2, h.1⟩

/-- The key of the first `sorted`: falling confidence, then event ID and interval. -/
def decisionKey (decision : FusionDecision) : ℚ ×ₗ OpaqueUuid ×ₗ Int ×ₗ Int :=
  toLex (-decision.confidence, toLex (decision.eventId,
    toLex (decision.interval.startNs, decision.interval.endNs)))

/-- The key of `max`: rising confidence, then event ID. -/
def winnerKey (decision : FusionDecision) : ℚ ×ₗ OpaqueUuid :=
  toLex (decision.confidence, decision.eventId)

def resultKey (decision : FusionDecision) : Int ×ₗ OpaqueUuid :=
  toLex (decision.interval.startNs, decision.eventId)

/-- The loop that looks for two decisions under one event ID. -/
def checkReplays : List FusionDecision → Dict OpaqueUuid FusionDecision → Except String Unit
  | [], _ => .ok ()
  | decision :: rest, byId =>
    if (byId.get? decision.eventId).any fun existing => decide (existing ≠ decision) then
      .error "conflicting replay for one fusion event_id"
    else
      checkReplays rest (byId.set decision.eventId decision)

/-- `final`, `abstained` and `reasons` in the loop over the ordered decisions. -/
structure Adjudicated where
  (accepted abstained : List FusionDecision)
  reasons : List String

/-- `max` of the decision and its conflicts: the first of the greatest. -/
def winnerOf (decision : FusionDecision) (conflicts : List FusionDecision) : FusionDecision :=
  conflicts.foldl (fun best item => if winnerKey best < winnerKey item then item else best) decision

/-- Another candidate is within the margin of the winner. -/
def isClose (policy : AdjudicationPolicy) (winner : FusionDecision)
    (candidates : List FusionDecision) : Bool :=
  candidates.any fun candidate => decide (candidate ≠ winner) &&
    decide (|winner.confidence - candidate.confidence| ≤ policy.confidenceMargin)

/-- The policy abstains from the conflict. -/
def abstainsFrom (policy : AdjudicationPolicy) (decision : FusionDecision)
    (conflicts : List FusionDecision) : Bool :=
  decide (policy.conflictResolutionStrategy = .abstainOnConflict) ||
    (isClose policy (winnerOf decision conflicts) (decision :: conflicts) &&
      decide (0 < policy.confidenceMargin))

/-- A decision that overlaps accepted ones. -/
def resolveConflict (policy : AdjudicationPolicy) (s : Adjudicated) (decision : FusionDecision)
    (conflicts : List FusionDecision) : Adjudicated :=
  let winner := winnerOf decision conflicts
  if abstainsFrom policy decision conflicts then
    { accepted := s.accepted.filter fun item => item ∉ conflicts
      abstained := s.abstained ++ (conflicts ++ [decision])
      reasons := s.reasons ++ [decision.eventId ++ ":CONFLICT_ABSTAIN"] }
  else
    { accepted := (s.accepted.filter fun item => item ∉ conflicts) ++ [winner]
      abstained := s.abstained ++ (conflicts ++ [decision]).filter fun item => item ≠ winner
      reasons := s.reasons ++ [winner.eventId ++ ":CONFLICT_WINNER"] }

/-- One iteration of the loop over the ordered decisions. -/
def adjudicateOne (policy : AdjudicationPolicy) (s : Adjudicated) (decision : FusionDecision) :
    Adjudicated :=
  if decision ∈ s.abstained ∨ decision ∈ s.accepted then s
  else if decision.ambiguityState ≠ "RESOLVED" then
    { s with
      abstained := s.abstained ++ [decision]
      reasons := s.reasons ++ [decision.eventId ++ ":AMBIGUOUS"] }
  else
    let conflicts := s.accepted.filter fun candidate => Overlap decision candidate
    if conflicts = [] then { s with accepted := s.accepted ++ [decision] }
    else resolveConflict policy s decision conflicts

/-- The loop over the ordered decisions. -/
def adjudicateAll (policy : AdjudicationPolicy) (ordered : List FusionDecision) : Adjudicated :=
  ordered.foldl (adjudicateOne policy) { accepted := [], abstained := [], reasons := [] }

def rationaleOf (policy : AdjudicationPolicy) (finalCount abstainedCount : Nat)
    (reasons : List String) : String :=
  "policy=" ++ policy.version ++ ";strategy=" ++ policy.conflictResolutionStrategy.value ++
    ";final=" ++ toString finalCount ++ ";abstained=" ++ toString abstainedCount ++
    (if reasons = [] then ";no_conflicts" else ";" ++ ",".intercalate (sortedBy id reasons))

def adjudicate (decisions : List FusionDecision) (policy : AdjudicationPolicy) :
    Except String AdjudicationResult :=
  let ordered := sortedBy decisionKey decisions
  match checkReplays ordered KeyedTable.empty with
  | .error error => .error error
  | .ok () =>
    let s := adjudicateAll policy ordered
    let final := sortedBy resultKey s.accepted
    let abstained := sortedBy resultKey (Dict.index (·.eventId) s.abstained).values
    .ok
      { finalDecisions := final
        abstained
        rationale := rationaleOf policy final.length abstained.length s.reasons }

end Robata.Adjudication
