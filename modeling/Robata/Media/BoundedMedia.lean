import Robata.Contracts.Common
import Robata.Lib.KeyedTable
import Robata.Lib.Method
import Robata.Lib.Transaction

/-!
# The bounded single-pass media planner

`BoundedSinglePassMediaPlanner` takes the encoded packets of six cameras in one
traversal, in any interleaving of the cameras, and emits logical segments,
quality targets and windows as soon as a watermark allows it.  State that no
later window needs is pruned after every window.

Conventions of the embedding:

* a method keeps what it has written when it raises, see `Lib.Method`;
* the planner reads a camera state in place, so a method of a camera state is
  a method of the planner `onCamera`;
* `hashlib.sha256` and `semantic_sha256` are parameters, gathered in `Hashing`;
  an incremental hash is the list of bytes it has absorbed;
* the properties that serialise a segment or a window are left out: the planner
  does not read them.
-/

namespace Robata.Media

open Contracts Lib
open Method (assign ofExcept raiseIf)

/-- The exceptions of the planner; `validation` is the `ValidationError` of an
interval. -/
inductive MediaError
  | runtime (message : String)
  | value (message : String)
  | assertion (message : String)
  | validation

/-- Raise a `ValueError` when a check finds its condition. -/
def refuse (found : Bool) (message : String) : Except MediaError Unit :=
  if found then .error (.value message) else .ok ()

def nanosecondInterval (startNs endNs : Int) : Except MediaError NanosecondInterval :=
  match NanosecondInterval.make? startNs endNs with
  | some interval => .ok interval
  | none => .error .validation

inductive StreamPurpose
  | qaCoarse
  | qaDense
  | eventProposal
  | actionDense
  | boundaryRefinement

inductive CameraAbsenceReason
  | absent
  | late
  | black
  | frozen
  | degraded
  | corrupt
  | unavailable
  | gap
  | unknown

inductive WindowClosureReason
  | watermark
  | eos

/-! ## Policy -/

/-- 64 lowercase hexadecimal characters. -/
def isSha256Digest (value : String) : Bool :=
  value.length == 64 && value.toList.all fun c => c.isDigit || ('a' ≤ c && c ≤ 'f')

/-- Versioned bounds used by the local single-pass planner, with the checks of
`__post_init__`. -/
structure BoundedMediaPolicy where
  (sourceScopeDigest mappingSemanticSha256 alignmentSemanticSha256 : Sha256Digest)
  (sourceOriginNs segmentDurationNs windowWidthNs windowHopNs allowedLatenessNs : Int)
  ringDurationNs : Int
  ringMaxBytesPerCamera : Nat
  (qualityPeriodNs qualityTargetPhaseNs qualitySelectionToleranceNs : Int)
  windowPurpose : StreamPurpose
  (segmentationPolicyVersion windowPolicyVersion qualityPolicyVersion : String)
  digests : isSha256Digest sourceScopeDigest = true ∧
    isSha256Digest mappingSemanticSha256 = true ∧ isSha256Digest alignmentSemanticSha256 = true
  segmentDuration_pos : 0 < segmentDurationNs
  windowWidth_pos : 0 < windowWidthNs
  windowHop_pos : 0 < windowHopNs
  ringDuration_pos : 0 < ringDurationNs
  ringMaxBytes_pos : 0 < ringMaxBytesPerCamera
  qualityPeriod_pos : 0 < qualityPeriodNs
  sourceOrigin_nonneg : 0 ≤ sourceOriginNs
  allowedLateness_nonneg : 0 ≤ allowedLatenessNs
  qualityTargetPhase_nonneg : 0 ≤ qualityTargetPhaseNs
  qualitySelectionTolerance_nonneg : 0 ≤ qualitySelectionToleranceNs
  hop_le_width : windowHopNs ≤ windowWidthNs
  width_segments : segmentDurationNs ∣ windowWidthNs
  hop_segments : segmentDurationNs ∣ windowHopNs
  width_qualities : qualityPeriodNs ∣ windowWidthNs
  hop_qualities : qualityPeriodNs ∣ windowHopNs
  phase_lt_period : qualityTargetPhaseNs < qualityPeriodNs
  versions : segmentationPolicyVersion ≠ "" ∧ windowPolicyVersion ≠ "" ∧ qualityPolicyVersion ≠ ""

/-! ## Packets -/

/-- The projection that an absence is evidenced by. -/
structure AbsenceEvidence where
  cameraId : CameraId
  bounds : Int × Int
  reason : CameraAbsenceReason
  sourceScopeDigest : Sha256Digest
  windowPolicyVersion : String

/-- `hashlib.sha256` of exact bytes and `semantic_sha256` of a projection. -/
structure Hashing where
  sha256 : List UInt8 → Sha256Digest
  semanticSha256 : AbsenceEvidence → Sha256Digest

structure EncodedMediaPacket where
  traversalIndex : Nat
  cameraId : CameraId
  (sourceOrder sourceSequence : Nat)
  (sourceTimestampNs alignedTimestampNs : Int)
  sourceLocator : String
  payload : List UInt8
  isKeyframe : Bool
  locator_nonempty : sourceLocator ≠ ""
  payload_nonempty : payload ≠ []

structure PacketReference where
  traversalIndex : Nat
  cameraId : CameraId
  (sourceOrder sourceSequence : Nat)
  (sourceTimestampNs alignedTimestampNs : Int)
  sourceLocator : String
  payloadSha256 : Sha256Digest
  payloadBytes : Nat
  isKeyframe : Bool

namespace EncodedMediaPacket

def payloadBytes (packet : EncodedMediaPacket) : Nat := packet.payload.length

/-- `framing_bytes`: the length as eight big-endian bytes, then the payload. -/
def framingBytes (packet : EncodedMediaPacket) : List UInt8 :=
  (List.range 8).map (fun i => UInt8.ofNat (packet.payload.length / 256 ^ (7 - i))) ++
    packet.payload

def reference (H : Hashing) (packet : EncodedMediaPacket) : PacketReference where
  traversalIndex := packet.traversalIndex
  cameraId := packet.cameraId
  sourceOrder := packet.sourceOrder
  sourceSequence := packet.sourceSequence
  sourceTimestampNs := packet.sourceTimestampNs
  alignedTimestampNs := packet.alignedTimestampNs
  sourceLocator := packet.sourceLocator
  payloadSha256 := H.sha256 packet.payload
  payloadBytes := packet.payloadBytes
  isKeyframe := packet.isKeyframe

end EncodedMediaPacket

/-! ## Plans -/

structure SegmentPlan where
  cameraId : CameraId
  segmentOrdinal : Int
  (requestedInterval effectiveInterval : NanosecondInterval)
  packets : List PacketReference
  exactContentSha256 : Sha256Digest
  payloadBytes : Nat
  (captureScopeDigest mappingSemanticSha256 clockOrAlignmentSemanticSha256 : Sha256Digest)
  segmentationPolicyVersion : String

structure QualityTarget where
  cameraId : CameraId
  (bucketOrdinal requestedTargetNs : Int)
  packet : PacketReference
  deltaNs : Int
  policyVersion : String

structure QualityGap where
  cameraId : CameraId
  (bucketOrdinal requestedTargetNs : Int)
  interval : NanosecondInterval
  (reason policyVersion : String)

/-- A member of a camera window is a segment or an explicit absence. -/
inductive MemberContent
  | segment (plan : SegmentPlan)
  | absence (reason : CameraAbsenceReason) (evidenceSha256 : Sha256Digest)

structure WindowMember where
  cameraId : CameraId
  interval : NanosecondInterval
  content : MemberContent

structure CameraWindowPlan where
  cameraId : CameraId
  members : List WindowMember

structure BoundedWindowPlan where
  ordinal : Nat
  (requestedInterval effectiveInterval : NanosecondInterval)
  cameraPlans : List CameraWindowPlan
  qualityTargets : List QualityTarget
  qualityGaps : List QualityGap
  watermarkNs : Option Int
  closureReason : WindowClosureReason
  (captureScopeDigest mappingSemanticSha256 clockOrAlignmentSemanticSha256 : Sha256Digest)
  (windowPolicyVersion qualityPolicyVersion : String)
  purpose : StreamPurpose

structure CameraStreamFacts where
  cameraId : CameraId
  (packetCount payloadBytes : Nat)
  (firstTimestampNs lastTimestampNs : Option Int)
  (firstSequence lastSequence : Option Nat)
  sequenceGapCount : Nat

structure PlannerEmission where
  packet : PacketReference
  closedSegments : List SegmentPlan
  qualityTargets : List QualityTarget
  windows : List BoundedWindowPlan
  watermarkNs : Option Int

structure PlannerFinish where
  closedSegments : List SegmentPlan
  qualityTargets : List QualityTarget
  windows : List BoundedWindowPlan
  facts : List CameraStreamFacts

/-! ## State -/

structure SegmentBuilder where
  cameraId : CameraId
  ordinal : Int
  requestedInterval : NanosecondInterval
  packets : List PacketReference
  digest : List UInt8
  payloadBytes : Nat

def SegmentBuilder.append (H : Hashing) (builder : SegmentBuilder) (packet : EncodedMediaPacket) :
    SegmentBuilder :=
  { builder with
    packets := builder.packets ++ [packet.reference H]
    digest := builder.digest ++ packet.framingBytes
    payloadBytes := builder.payloadBytes + packet.payloadBytes }

/-- `dict[int, SegmentPlan]`. -/
abbrev SegmentTable := KeyedTable SegmentPlan Int (·.segmentOrdinal)

structure CameraState where
  ring : List EncodedMediaPacket
  (ringBytes evictedPacketCount maxRingBytes : Nat)
  currentSegment : Option SegmentBuilder
  segments : SegmentTable
  pendingBucket : Option Int
  pendingPacket : Option PacketReference
  (factsCount factsBytes : Nat)
  (firstTimestampNs lastTimestampNs : Option Int)
  (firstSequence lastSequence : Option Nat)
  sequenceGapCount : Nat
  (lastSourceOrder lastSourceSequence : Option Nat)
  (lastSourceTimestampNs lastAlignedTimestampNs : Option Int)
  qualityTargets : List QualityTarget

def CameraState.empty : CameraState where
  ring := []
  ringBytes := 0
  evictedPacketCount := 0
  maxRingBytes := 0
  currentSegment := none
  segments := KeyedTable.empty
  pendingBucket := none
  pendingPacket := none
  factsCount := 0
  factsBytes := 0
  firstTimestampNs := none
  lastTimestampNs := none
  firstSequence := none
  lastSequence := none
  sequenceGapCount := 0
  lastSourceOrder := none
  lastSourceSequence := none
  lastSourceTimestampNs := none
  lastAlignedTimestampNs := none
  qualityTargets := []

/-- The fields of `BoundedSinglePassMediaPlanner`. -/
structure Planner where
  states : CameraId → CameraState
  lastTraversalIndex : Option Nat
  maxEventTimeNs : Option Int
  nextWindowStartNs : Int
  windowOrdinal : Nat
  finished : Bool

/-- `__init__`. -/
def Planner.start (policy : BoundedMediaPolicy) : Planner where
  states := fun _ => .empty
  lastTraversalIndex := none
  maxEventTimeNs := none
  nextWindowStartNs := policy.sourceOriginNs
  windowOrdinal := 0
  finished := false

/-- A method of the state of one camera. -/
def onCamera {α : Type} (camera : CameraId) (x : Method CameraState MediaError α) :
    Method Planner MediaError α :=
  Method.within (·.states camera)
    (fun state s => { s with states := Function.update s.states camera state }) x

/-- The same method of one camera state after another. -/
def onCameras {α : Type} (x : Method CameraState MediaError (List α)) :
    List CameraId → Method Planner MediaError (List α)
  | [] => pure []
  | camera :: rest => do
      let first ← onCamera camera x
      let others ← onCameras x rest
      pure (first ++ others)

variable (H : Hashing) (policy : BoundedMediaPolicy)

/-! ## Packets of one camera -/

def validateCameraOrder (packet : EncodedMediaPacket) : Method CameraState MediaError Unit := do
  let state ← Method.self
  raiseIf (state.lastSourceOrder.any fun last => decide (packet.sourceOrder ≤ last))
    (.value (packet.cameraId.value ++ " source_order must be strictly increasing"))
  raiseIf (state.lastSourceSequence.any fun last => decide (packet.sourceSequence ≤ last))
    (.value (packet.cameraId.value ++ " source_sequence must be strictly increasing"))
  raiseIf
    (state.lastSourceTimestampNs.any fun last => decide (packet.sourceTimestampNs ≤ last))
    (.value (packet.cameraId.value ++ " source timestamps must be strictly increasing"))
  raiseIf
    (state.lastAlignedTimestampNs.any fun last => decide (packet.alignedTimestampNs ≤ last))
    (.value (packet.cameraId.value ++ " aligned timestamps must be strictly increasing"))

/-- Pop packets from the left of a ring while `drop` says so, which sees the
first packet and the byte count. -/
def evict (drop : EncodedMediaPacket → Nat → Bool) :
    List EncodedMediaPacket → Nat → Nat → List EncodedMediaPacket × Nat × Nat
  | [], bytes, evicted => ([], bytes, evicted)
  | packet :: rest, bytes, evicted =>
    if drop packet bytes then evict drop rest (bytes - packet.payloadBytes) (evicted + 1)
    else (packet :: rest, bytes, evicted)

/-- One of the eviction loops of `_append_ring`. -/
def CameraState.evict (drop : EncodedMediaPacket → Nat → Bool) (state : CameraState) :
    CameraState :=
  let out := Media.evict drop state.ring state.ringBytes state.evictedPacketCount
  { state with ring := out.1, ringBytes := out.2.1, evictedPacketCount := out.2.2 }

def appendRing (packet : EncodedMediaPacket) : Method CameraState MediaError Unit := do
  raiseIf (decide (policy.ringMaxBytesPerCamera < packet.payloadBytes))
    (.value "one encoded packet exceeds the per-camera ring byte bound")
  assign fun state =>
    { state with
      ring := state.ring ++ [packet]
      ringBytes := state.ringBytes + packet.payloadBytes
      maxRingBytes := max state.maxRingBytes (state.ringBytes + packet.payloadBytes) }
  assign fun state => state.evict fun first _ =>
    decide (first.alignedTimestampNs < packet.alignedTimestampNs - policy.ringDurationNs)
  assign fun state => state.evict fun _ bytes =>
    decide (policy.ringMaxBytesPerCamera < bytes)
  let state ← Method.self
  raiseIf (decide (policy.ringMaxBytesPerCamera < state.ringBytes))
    (.assertion "ring byte bound was not preserved")

def updateFacts (packet : EncodedMediaPacket) (state : CameraState) : CameraState :=
  { state with
    factsCount := state.factsCount + 1
    factsBytes := state.factsBytes + packet.payloadBytes
    firstTimestampNs := some (state.firstTimestampNs.getD packet.alignedTimestampNs)
    lastTimestampNs := some packet.alignedTimestampNs
    firstSequence := some (state.firstSequence.getD packet.sourceSequence)
    sequenceGapCount := match state.lastSequence with
      | none => state.sequenceGapCount
      | some last =>
        if last + 1 < packet.sourceSequence then
          state.sequenceGapCount + (packet.sourceSequence - last - 1)
        else state.sequenceGapCount
    lastSequence := some packet.sourceSequence
    lastSourceOrder := some packet.sourceOrder
    lastSourceSequence := some packet.sourceSequence
    lastSourceTimestampNs := some packet.sourceTimestampNs
    lastAlignedTimestampNs := some packet.alignedTimestampNs }

/-! ## Segments -/

/-- The logical segment a timestamp falls in. -/
def segmentOrdinalOf (timestampNs : Int) : Int :=
  (timestampNs - policy.sourceOriginNs) / policy.segmentDurationNs

def segmentStartNs (ordinal : Int) : Int :=
  policy.sourceOriginNs + ordinal * policy.segmentDurationNs

/-- The `SegmentPlan` that `_seal_segment` makes, with its validation. -/
def segmentPlan (builder : SegmentBuilder) : Except MediaError SegmentPlan :=
  match builder.packets with
  | [] => .error (.value "cannot seal an empty segment")
  | firstPacket :: rest => do
      let first := firstPacket.alignedTimestampNs
      let last := ((firstPacket :: rest).getLast (List.cons_ne_nil _ _)).alignedTimestampNs
      let effective ← nanosecondInterval (max builder.requestedInterval.startNs first)
        (min builder.requestedInterval.endNs (max (first + 1) (last + 1)))
      refuse (builder.packets.any (·.cameraId != builder.cameraId))
        "segment packet references must bind to their camera"
      refuse ((builder.packets.map (·.sourceOrder)).insertionSort (· ≤ ·) !=
          builder.packets.map (·.sourceOrder))
        "segment packet references must remain in source order"
      refuse (builder.payloadBytes != (builder.packets.map (·.payloadBytes)).sum)
        "segment payload byte count must reconcile to packet references"
      .ok
        { cameraId := builder.cameraId
          segmentOrdinal := builder.ordinal
          requestedInterval := builder.requestedInterval
          effectiveInterval := effective
          packets := builder.packets
          exactContentSha256 := H.sha256 builder.digest
          payloadBytes := builder.payloadBytes
          captureScopeDigest := policy.sourceScopeDigest
          mappingSemanticSha256 := policy.mappingSemanticSha256
          clockOrAlignmentSemanticSha256 := policy.alignmentSemanticSha256
          segmentationPolicyVersion := policy.segmentationPolicyVersion }

def sealSegment (builder : SegmentBuilder) : Method CameraState MediaError SegmentPlan := do
  let segment ← ofExcept (segmentPlan H policy builder)
  assign fun state => { state with segments := state.segments.upsert segment }
  pure segment

/-- `state.current_segment = current; current.append(packet)`. -/
def continueSegment (builder : SegmentBuilder) (packet : EncodedMediaPacket) :
    Method CameraState MediaError Unit :=
  assign fun state => { state with currentSegment := some (builder.append H packet) }

def appendSegment (packet : EncodedMediaPacket) :
    Method CameraState MediaError (List SegmentPlan) := do
  let ordinal := segmentOrdinalOf policy packet.alignedTimestampNs
  let requested ← ofExcept
    (nanosecondInterval (segmentStartNs policy ordinal) (segmentStartNs policy (ordinal + 1)))
  let fresh : SegmentBuilder := ⟨packet.cameraId, ordinal, requested, [], [], 0⟩
  let state ← Method.self
  match state.currentSegment with
  | none => do
      continueSegment H fresh packet
      pure []
  | some current => do
      raiseIf (decide (ordinal < current.ordinal))
        (.value "segment ordinals must be nondecreasing per camera")
      if ordinal = current.ordinal then do
        continueSegment H current packet
        pure []
      else do
        let closed ← sealSegment H policy current
        continueSegment H fresh packet
        pure [closed]

/-! ## Quality targets -/

/-- The quality bucket a timestamp falls in. -/
def qualityBucketOf (timestampNs : Int) : Int :=
  (timestampNs - policy.sourceOriginNs) / policy.qualityPeriodNs

def qualityStartNs (bucket : Int) : Int :=
  policy.sourceOriginNs + bucket * policy.qualityPeriodNs

/-- The instant a quality bucket asks for. -/
def qualityTargetNs (bucket : Int) : Int :=
  policy.sourceOriginNs + bucket * policy.qualityPeriodNs + policy.qualityTargetPhaseNs

def qualityCandidateKey (bucket : Int) (packet : PacketReference) : Int × Nat × Nat :=
  (|packet.alignedTimestampNs - qualityTargetNs policy bucket|, packet.sourceOrder,
    packet.traversalIndex)

/-- The order of the tuples `(int, int, int)`. -/
def keyLt (a b : Int × Nat × Nat) : Bool :=
  a.1 < b.1 || (a.1 == b.1 && (a.2.1 < b.2.1 || (a.2.1 == b.2.1 && decide (a.2.2 < b.2.2))))

/-- The target of a bucket and its selected packet, if it is near enough. -/
def qualityTarget (bucket : Int) (packet : PacketReference) : Option QualityTarget :=
  let delta := |packet.alignedTimestampNs - qualityTargetNs policy bucket|
  if policy.qualitySelectionToleranceNs < delta then none
  else
    some
      { cameraId := packet.cameraId
        bucketOrdinal := bucket
        requestedTargetNs := qualityTargetNs policy bucket
        packet := packet
        deltaNs := delta
        policyVersion := policy.qualityPolicyVersion }

/-- The targets `_finalize_quality` returns. -/
def pendingTarget (state : CameraState) : List QualityTarget :=
  match state.pendingBucket, state.pendingPacket with
  | some bucket, some packet => (qualityTarget policy bucket packet).toList
  | _, _ => []

def finalizeQuality : Method CameraState MediaError (List QualityTarget) := do
  let state ← Method.self
  assign fun state =>
    { state with
      pendingBucket := none
      pendingPacket := none
      qualityTargets := state.qualityTargets ++ pendingTarget policy state }
  pure (pendingTarget policy state)

/-- Start a bucket with its first packet. -/
def startBucket (bucket : Int) (packet : PacketReference) : Method CameraState MediaError Unit :=
  assign fun state =>
    { state with pendingBucket := some bucket, pendingPacket := some packet }

/-- The better of the pending packet and a new one. -/
def betterCandidate (bucket : Int) (candidate packet : PacketReference) : PacketReference :=
  if keyLt (qualityCandidateKey policy bucket packet) (qualityCandidateKey policy bucket candidate)
  then packet else candidate

def updateQuality (packet : EncodedMediaPacket) :
    Method CameraState MediaError (List QualityTarget) := do
  let bucket := qualityBucketOf policy packet.alignedTimestampNs
  let state ← Method.self
  match state.pendingBucket with
  | none => do
      startBucket bucket (packet.reference H)
      pure []
  | some pending => do
      raiseIf (decide (bucket < pending)) (.value "quality buckets must be nondecreasing")
      if bucket = pending then do
        raiseIf state.pendingPacket.isNone (.assertion "")
        assign fun state =>
          { state with
            pendingPacket := state.pendingPacket.map fun candidate =>
              betterCandidate policy bucket candidate (packet.reference H) }
        pure []
      else do
        let result ← finalizeQuality policy
        startBucket bucket (packet.reference H)
        pure result

/-! ## Windows -/

/-- `range(first, last + 1)`. -/
def bucketRange (first last : Int) : List Int :=
  (List.range (last + 1 - first).toNat).map fun k : Nat => first + k

def windowMember (state : CameraState) (camera : CameraId) (effectiveEndNs ordinal : Int) :
    Except MediaError WindowMember := do
  let interval ← nanosecondInterval (segmentStartNs policy ordinal)
    (min effectiveEndNs (segmentStartNs policy (ordinal + 1)))
  match state.segments.find? ordinal with
  | some segment => .ok ⟨camera, interval, .segment segment⟩
  | none =>
    let reason := if state.factsCount = 0 then .absent else .gap
    let evidence := H.semanticSha256
      { cameraId := camera
        bounds := interval.bounds
        reason := reason
        sourceScopeDigest := policy.sourceScopeDigest
        windowPolicyVersion := policy.windowPolicyVersion }
    .ok ⟨camera, interval, .absence reason evidence⟩

/-- The windows of one camera, with the checks of `CameraWindowPlan`. -/
def cameraWindowPlan (state : CameraState) (startNs effectiveEndNs : Int) (camera : CameraId) :
    Except MediaError CameraWindowPlan := do
  let members ← (bucketRange (segmentOrdinalOf policy startNs)
    (segmentOrdinalOf policy (effectiveEndNs - 1))).mapM
      (windowMember H policy state camera effectiveEndNs)
  refuse members.isEmpty "camera window plan requires at least one logical bucket"
  refuse ((members.zip members.tail).any fun pair =>
      pair.1.interval.endNs != pair.2.interval.startNs)
    "camera window members must be ordered and contiguous"
  .ok ⟨camera, members⟩

/-- The quality buckets of a window. -/
def qualityRange (startNs effectiveEndNs : Int) : List Int :=
  bucketRange (qualityBucketOf policy startNs) (qualityBucketOf policy (effectiveEndNs - 1))

/-- `selected.get(bucket)`: the last target of the bucket. -/
def selectedTarget (state : CameraState) (bucket : Int) : Option QualityTarget :=
  (state.qualityTargets.filter (·.bucketOrdinal == bucket)).getLast?

/-- The gap that stands for a bucket without a target. -/
def qualityGap (camera : CameraId) (effectiveEndNs bucket : Int) :
    Except MediaError QualityGap := do
  let interval ← nanosecondInterval (qualityStartNs policy bucket)
    (min effectiveEndNs (qualityStartNs policy (bucket + 1)))
  .ok
    { cameraId := camera
      bucketOrdinal := bucket
      requestedTargetNs := qualityTargetNs policy bucket
      interval := interval
      reason := "NO_DECODABLE_TARGET_WITHIN_TOLERANCE"
      policyVersion := policy.qualityPolicyVersion }

def cameraTargets (state : CameraState) (startNs effectiveEndNs : Int) : List QualityTarget :=
  (qualityRange policy startNs effectiveEndNs).filterMap fun bucket => selectedTarget state bucket

def cameraGaps (state : CameraState) (startNs effectiveEndNs : Int) (camera : CameraId) :
    Except MediaError (List QualityGap) :=
  ((qualityRange policy startNs effectiveEndNs).filter fun bucket =>
    (selectedTarget state bucket).isNone).mapM (qualityGap policy camera effectiveEndNs)

/-- `_quality_sort_key`, as an order. -/
def qualityTargetLe (a b : QualityTarget) : Bool :=
  a.cameraId.value < b.cameraId.value || (a.cameraId.value == b.cameraId.value &&
    (a.bucketOrdinal < b.bucketOrdinal || (a.bucketOrdinal == b.bucketOrdinal &&
      (a.requestedTargetNs < b.requestedTargetNs || (a.requestedTargetNs == b.requestedTargetNs &&
        decide (a.packet.sourceOrder ≤ b.packet.sourceOrder))))))

/-- `_quality_gap_sort_key`, as an order on camera and bucket. -/
def cameraBucketLe (a b : CameraId × Int) : Bool :=
  a.1.value < b.1.value || (a.1.value == b.1.value && decide (a.2 ≤ b.2))

def buildWindow (s : Planner) (startNs requestedEndNs : Int) (watermarkNs : Option Int)
    (reason : WindowClosureReason) (effectiveEndNs : Option Int) :
    Except MediaError BoundedWindowPlan := do
  let requested ← nanosecondInterval startNs requestedEndNs
  let effective ← nanosecondInterval startNs
    (max (startNs + 1) (effectiveEndNs.getD requestedEndNs))
  let cameraPlans ← CameraId.all.mapM fun camera =>
    cameraWindowPlan H policy (s.states camera) startNs effective.endNs camera
  let gaps ← CameraId.all.mapM fun camera =>
    cameraGaps policy (s.states camera) startNs effective.endNs camera
  let targets := CameraId.all.flatMap fun camera =>
    cameraTargets policy (s.states camera) startNs effective.endNs
  refuse (cameraPlans.map (·.cameraId) != CameraId.all)
    "bounded window must contain six ordered camera plans"
  refuse (decide (effective.startNs < requested.startNs ∨ requested.endNs < effective.endNs))
    "window effective interval must be inside requested interval"
  .ok
    { ordinal := s.windowOrdinal
      requestedInterval := requested
      effectiveInterval := effective
      cameraPlans := cameraPlans
      qualityTargets := targets.insertionSort fun a b => qualityTargetLe a b
      qualityGaps := gaps.flatten.insertionSort fun a b =>
        cameraBucketLe (a.cameraId, a.bucketOrdinal) (b.cameraId, b.bucketOrdinal)
      watermarkNs := watermarkNs
      closureReason := reason
      captureScopeDigest := policy.sourceScopeDigest
      mappingSemanticSha256 := policy.mappingSemanticSha256
      clockOrAlignmentSemanticSha256 := policy.alignmentSemanticSha256
      windowPolicyVersion := policy.windowPolicyVersion
      qualityPolicyVersion := policy.qualityPolicyVersion
      purpose := policy.windowPurpose }

def CameraState.prune (cutoff : Int) (state : CameraState) : CameraState :=
  { state with
    segments := state.segments.deleteWhere fun segment =>
      decide (segment.requestedInterval.endNs ≤ cutoff)
    qualityTargets := state.qualityTargets.filter fun target =>
      decide (cutoff < target.requestedTargetNs + policy.qualityPeriodNs) }

/-- The planner after a window: the next start is one hop further, and what lies
before it is pruned. -/
def Planner.advance (s : Planner) : Planner :=
  { s with
    states := fun camera =>
      (s.states camera).prune policy (s.nextWindowStartNs + policy.windowHopNs)
    nextWindowStartNs := s.nextWindowStartNs + policy.windowHopNs
    windowOrdinal := s.windowOrdinal + 1 }

/-- The loop of the two emitting methods: windows are built while the next start
plus `lead` does not pass `limit`. -/
def emitWindows (lead limit : Int) (hlead : 0 < lead)
    (build : Planner → Except MediaError BoundedWindowPlan) (s : Planner) :
    Except MediaError (List BoundedWindowPlan) × Planner :=
  if s.nextWindowStartNs + lead ≤ limit then
    match build s with
    | .error e => (.error e, s)
    | .ok window =>
      let out := emitWindows lead limit hlead build (s.advance policy)
      (out.1.map fun rest => window :: rest, out.2)
  else
    (.ok [], s)
termination_by (limit - s.nextWindowStartNs).toNat
decreasing_by
  have hhop := policy.windowHop_pos
  simp only [Planner.advance]
  omega

def emitWatermarkedWindows (watermarkNs : Option Int) :
    Method Planner MediaError (List BoundedWindowPlan) :=
  match watermarkNs with
  | none => pure []
  | some watermark =>
    emitWindows policy policy.windowWidthNs watermark policy.windowWidth_pos fun s =>
      buildWindow H policy s s.nextWindowStartNs (s.nextWindowStartNs + policy.windowWidthNs)
        (some watermark) .watermark none

def emitEosWindows (finalEndNs : Int) : Method Planner MediaError (List BoundedWindowPlan) :=
  emitWindows policy 1 finalEndNs Int.one_pos fun s =>
    buildWindow H policy s s.nextWindowStartNs (s.nextWindowStartNs + policy.windowWidthNs)
      none .eos (some (min (s.nextWindowStartNs + policy.windowWidthNs) finalEndNs))

/-! ## The two public methods -/

def watermarkNs (s : Planner) : Option Int := do
  let latest ← CameraId.all.mapM fun camera => (s.states camera).lastTimestampNs
  let earliest ← latest.min?
  some (earliest - policy.allowedLatenessNs)

def push (packet : EncodedMediaPacket) : Method Planner MediaError PlannerEmission := do
  let s ← Method.self
  raiseIf s.finished (.runtime "planner cannot accept packets after finish")
  raiseIf (s.lastTraversalIndex.any fun last => decide (packet.traversalIndex ≤ last))
    (.value "source traversal indexes must be strictly increasing")
  raiseIf (decide (packet.alignedTimestampNs < policy.sourceOriginNs))
    (.value "aligned packet timestamps cannot precede source_origin_ns")
  assign fun s => { s with lastTraversalIndex := some packet.traversalIndex }
  onCamera packet.cameraId (validateCameraOrder packet)
  onCamera packet.cameraId (appendRing policy packet)
  onCamera packet.cameraId (assign (updateFacts packet))
  let closedSegments ← onCamera packet.cameraId (appendSegment H policy packet)
  let qualityTargets ← onCamera packet.cameraId (updateQuality H policy packet)
  assign fun s =>
    { s with maxEventTimeNs := some (match s.maxEventTimeNs with
        | none => packet.alignedTimestampNs
        | some latest => max latest packet.alignedTimestampNs) }
  let s ← Method.self
  let watermark := watermarkNs policy s
  let windows ← emitWatermarkedWindows H policy watermark
  pure ⟨packet.reference H, closedSegments, qualityTargets, windows, watermark⟩

/-- The seal of the segment a camera is still building. -/
def sealCurrent : Method CameraState MediaError (List SegmentPlan) := do
  let state ← Method.self
  match state.currentSegment with
  | none => pure []
  | some builder => do
      let segment ← sealSegment H policy builder
      assign fun state => { state with currentSegment := none }
      pure [segment]

def CameraState.facts (camera : CameraId) (state : CameraState) : CameraStreamFacts where
  cameraId := camera
  packetCount := state.factsCount
  payloadBytes := state.factsBytes
  firstTimestampNs := state.firstTimestampNs
  lastTimestampNs := state.lastTimestampNs
  firstSequence := state.firstSequence
  lastSequence := state.lastSequence
  sequenceGapCount := state.sequenceGapCount

def finish (finalEndNs : Int) : Method Planner MediaError PlannerFinish := do
  let s ← Method.self
  raiseIf s.finished (.runtime "planner has already been finished")
  raiseIf (decide (finalEndNs ≤ policy.sourceOriginNs))
    (.value "final_end_ns must be after source_origin_ns")
  raiseIf (s.maxEventTimeNs.any fun latest => decide (finalEndNs ≤ latest))
    (.value "final_end_ns must be after every observed packet")
  assign fun s => { s with finished := true }
  let closedSegments ← onCameras (sealCurrent H policy) CameraId.all
  let qualityTargets ← onCameras (finalizeQuality policy) CameraId.all
  let windows ← emitEosWindows H policy finalEndNs
  let s ← Method.self
  pure
    { closedSegments := closedSegments.insertionSort fun a b =>
        decide (a.segmentOrdinal < b.segmentOrdinal) || (a.segmentOrdinal == b.segmentOrdinal &&
          decide (a.cameraId.value ≤ b.cameraId.value))
      qualityTargets := qualityTargets.insertionSort fun a b => qualityTargetLe a b
      windows := windows
      facts := CameraId.all.map fun camera => (s.states camera).facts camera }

/-- A traversal: every packet is pushed, and the windows are collected. -/
def pushAll : List EncodedMediaPacket → Method Planner MediaError (List BoundedWindowPlan)
  | [] => pure []
  | packet :: rest => do
      let emission ← push H policy packet
      let later ← pushAll rest
      pure (emission.windows ++ later)

end Robata.Media
