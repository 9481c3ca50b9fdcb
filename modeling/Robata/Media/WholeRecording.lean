import Mathlib.Data.List.MinMax
import Mathlib.Data.Prod.Lex
import Robata.Lib.Buckets
import Robata.Media.BoundedMedia

/-!
# The plan of a whole recording

What the planner is for, stated without a traversal: given all the packets of
each camera, window `i` starts `i` hops after the origin, a member of a camera is
the segment of all packets in its bucket, and a quality bucket selects the packet
of the least key.  A plan is read with its intervals as pairs of bounds, and
without the watermark that happened to close it.

The second half says when the plan of a window does not change any more: the
packets that come later lie behind its end.
-/

namespace Robata.Media

open Contracts Lib List

/-- The packets of each camera, in their order. -/
abbrev Recording := CameraId → List EncodedMediaPacket

/-- The recording that a traversal of packets amounts to. -/
def recordingOf (packets : List EncodedMediaPacket) : Recording := fun camera =>
  inBucket (·.cameraId) packets camera

/-! ## What a plan says -/

/-- A `SegmentPlan` with its intervals as bounds. -/
structure SegmentView where
  cameraId : CameraId
  segmentOrdinal : Int
  (requested effective : Int × Int)
  packets : List PacketReference
  exactContentSha256 : Sha256Digest
  payloadBytes : Nat
  (captureScopeDigest mappingSemanticSha256 clockOrAlignmentSemanticSha256 : Sha256Digest)
  segmentationPolicyVersion : String

/-- The content of a `WindowMember`. -/
inductive ContentView
  | segment (plan : SegmentView)
  | absence (reason : CameraAbsenceReason) (evidenceSha256 : Sha256Digest)

/-- A `WindowMember` with its interval as bounds. -/
structure MemberView where
  cameraId : CameraId
  bounds : Int × Int
  content : ContentView

/-- A `QualityGap` with its interval as bounds. -/
structure GapView where
  cameraId : CameraId
  (bucketOrdinal requestedTargetNs : Int)
  bounds : Int × Int
  (reason policyVersion : String)

/-- A `BoundedWindowPlan` with its intervals as bounds. -/
structure WindowView where
  ordinal : Nat
  (requested effective : Int × Int)
  cameraPlans : List (CameraId × List MemberView)
  qualityTargets : List QualityTarget
  qualityGaps : List GapView
  closureReason : WindowClosureReason
  (captureScopeDigest mappingSemanticSha256 clockOrAlignmentSemanticSha256 : Sha256Digest)
  (windowPolicyVersion qualityPolicyVersion : String)
  purpose : StreamPurpose

def SegmentPlan.view (plan : SegmentPlan) : SegmentView where
  cameraId := plan.cameraId
  segmentOrdinal := plan.segmentOrdinal
  requested := plan.requestedInterval.bounds
  effective := plan.effectiveInterval.bounds
  packets := plan.packets
  exactContentSha256 := plan.exactContentSha256
  payloadBytes := plan.payloadBytes
  captureScopeDigest := plan.captureScopeDigest
  mappingSemanticSha256 := plan.mappingSemanticSha256
  clockOrAlignmentSemanticSha256 := plan.clockOrAlignmentSemanticSha256
  segmentationPolicyVersion := plan.segmentationPolicyVersion

def MemberContent.view : MemberContent → ContentView
  | .segment plan => .segment plan.view
  | .absence reason evidence => .absence reason evidence

def WindowMember.view (member : WindowMember) : MemberView where
  cameraId := member.cameraId
  bounds := member.interval.bounds
  content := member.content.view

def QualityGap.view (gap : QualityGap) : GapView where
  cameraId := gap.cameraId
  bucketOrdinal := gap.bucketOrdinal
  requestedTargetNs := gap.requestedTargetNs
  bounds := gap.interval.bounds
  reason := gap.reason
  policyVersion := gap.policyVersion

def CameraWindowPlan.view (plan : CameraWindowPlan) : CameraId × List MemberView :=
  (plan.cameraId, plan.members.map (·.view))

def BoundedWindowPlan.view (plan : BoundedWindowPlan) : WindowView where
  ordinal := plan.ordinal
  requested := plan.requestedInterval.bounds
  effective := plan.effectiveInterval.bounds
  cameraPlans := plan.cameraPlans.map (·.view)
  qualityTargets := plan.qualityTargets
  qualityGaps := plan.qualityGaps.map (·.view)
  closureReason := plan.closureReason
  captureScopeDigest := plan.captureScopeDigest
  mappingSemanticSha256 := plan.mappingSemanticSha256
  clockOrAlignmentSemanticSha256 := plan.clockOrAlignmentSemanticSha256
  windowPolicyVersion := plan.windowPolicyVersion
  qualityPolicyVersion := plan.qualityPolicyVersion
  purpose := plan.purpose

/-! ## The window made from a source -/

variable (H : Hashing) (policy : BoundedMediaPolicy)

/-- What a window is assembled from: whether a camera has any packet, the segment
of each of its buckets, and the target of each of its quality buckets. -/
structure WindowSource where
  silent : CameraId → Bool
  segment : CameraId → Int → Option SegmentView
  target : CameraId → Int → Option QualityTarget

/-- The member of a camera for one bucket of a window that ends at `endNs`: its
segment, or an absence if there is none. -/
def WindowSource.member (source : WindowSource) (camera : CameraId) (endNs ordinal : Int) :
    MemberView :=
  let bounds := (segmentStartNs policy ordinal, min endNs (segmentStartNs policy (ordinal + 1)))
  let reason := if source.silent camera then CameraAbsenceReason.absent else .gap
  { cameraId := camera
    bounds := bounds
    content := match source.segment camera ordinal with
      | some segment => .segment segment
      | none => .absence reason (H.semanticSha256
          { cameraId := camera
            bounds := bounds
            reason := reason
            sourceScopeDigest := policy.sourceScopeDigest
            windowPolicyVersion := policy.windowPolicyVersion }) }

/-- The gap that stands for a quality bucket without a target. -/
def gapView (camera : CameraId) (endNs bucket : Int) : GapView where
  cameraId := camera
  bucketOrdinal := bucket
  requestedTargetNs := qualityTargetNs policy bucket
  bounds := (qualityStartNs policy bucket, min endNs (qualityStartNs policy (bucket + 1)))
  reason := "NO_DECODABLE_TARGET_WITHIN_TOLERANCE"
  policyVersion := policy.qualityPolicyVersion

def windowStartNs (i : Nat) : Int := policy.sourceOriginNs + i * policy.windowHopNs

/-- The segment buckets of a window. -/
def segmentRange (startNs endNs : Int) : List Int :=
  bucketRange (segmentOrdinalOf policy startNs) (segmentOrdinalOf policy (endNs - 1))

/-- Window `i` from a source, up to an effective end. -/
def WindowSource.window (source : WindowSource) (i : Nat) (endNs : Int)
    (closure : WindowClosureReason) : WindowView where
  ordinal := i
  requested := (windowStartNs policy i, windowStartNs policy i + policy.windowWidthNs)
  effective := (windowStartNs policy i, endNs)
  cameraPlans := CameraId.all.map fun camera =>
    (camera, (segmentRange policy (windowStartNs policy i) endNs).map
      (source.member H policy camera endNs))
  qualityTargets := (CameraId.all.flatMap fun camera =>
    (qualityRange policy (windowStartNs policy i) endNs).filterMap
      (source.target camera)).insertionSort fun a b => qualityTargetLe a b
  qualityGaps := (CameraId.all.flatMap fun camera =>
    ((qualityRange policy (windowStartNs policy i) endNs).filter fun bucket =>
      (source.target camera bucket).isNone).map (gapView policy camera endNs)).insertionSort
        fun a b => cameraBucketLe (a.cameraId, a.bucketOrdinal) (b.cameraId, b.bucketOrdinal)
  closureReason := closure
  captureScopeDigest := policy.sourceScopeDigest
  mappingSemanticSha256 := policy.mappingSemanticSha256
  clockOrAlignmentSemanticSha256 := policy.alignmentSemanticSha256
  windowPolicyVersion := policy.windowPolicyVersion
  qualityPolicyVersion := policy.qualityPolicyVersion
  purpose := policy.windowPurpose

/-! ## A recording as a source -/

/-- The packets of a recorded camera in one logical segment. -/
def segmentPackets (packets : List EncodedMediaPacket) (ordinal : Int) : List EncodedMediaPacket :=
  inBucket (fun packet => segmentOrdinalOf policy packet.alignedTimestampNs) packets ordinal

/-- The packets of a recorded camera in one quality bucket. -/
def qualityPackets (packets : List EncodedMediaPacket) (bucket : Int) : List EncodedMediaPacket :=
  inBucket (fun packet => qualityBucketOf policy packet.alignedTimestampNs) packets bucket

/-- The segment made of the packets of one bucket, if there are any. -/
def segmentOf (camera : CameraId) (ordinal : Int) : List EncodedMediaPacket → Option SegmentView
  | [] => none
  | first :: rest =>
    some
      { cameraId := camera
        segmentOrdinal := ordinal
        requested := (segmentStartNs policy ordinal, segmentStartNs policy (ordinal + 1))
        effective := (first.alignedTimestampNs,
          ((first :: rest).getLast (cons_ne_nil _ _)).alignedTimestampNs + 1)
        packets := (first :: rest).map (·.reference H)
        exactContentSha256 := H.sha256 ((first :: rest).flatMap (·.framingBytes))
        payloadBytes := ((first :: rest).map (·.payloadBytes)).sum
        captureScopeDigest := policy.sourceScopeDigest
        mappingSemanticSha256 := policy.mappingSemanticSha256
        clockOrAlignmentSemanticSha256 := policy.alignmentSemanticSha256
        segmentationPolicyVersion := policy.segmentationPolicyVersion }

/-- The segment of all packets of a camera in one bucket. -/
def wholeSegment (camera : CameraId) (packets : List EncodedMediaPacket) (ordinal : Int) :
    Option SegmentView :=
  segmentOf H policy camera ordinal (segmentPackets policy packets ordinal)

/-- `(|delta|, source_order, traversal_index)`, in the order of tuples. -/
def packetKey (bucket : Int) (packet : EncodedMediaPacket) : Int ×ₗ Nat ×ₗ Nat :=
  toLex (|packet.alignedTimestampNs - qualityTargetNs policy bucket|,
    toLex (packet.sourceOrder, packet.traversalIndex))

/-- The packet of least key in a quality bucket. -/
noncomputable def bestPacket (packets : List EncodedMediaPacket) (bucket : Int) :
    Option EncodedMediaPacket :=
  (qualityPackets policy packets bucket).argmin (packetKey policy bucket)

/-- The target of a quality bucket: its best packet, if within tolerance. -/
noncomputable def wholeTarget (packets : List EncodedMediaPacket) (bucket : Int) :
    Option QualityTarget :=
  (bestPacket policy packets bucket).bind fun packet =>
    qualityTarget policy bucket (packet.reference H)

/-- A whole recording as the source of its windows. -/
noncomputable def Recording.source (recording : Recording) : WindowSource where
  silent := fun camera => (recording camera).isEmpty
  segment := fun camera => wholeSegment H policy camera (recording camera)
  target := fun camera => wholeTarget H policy (recording camera)

/-- The watermark once every packet has been seen. -/
def wholeWatermark (recording : Recording) : Option Int := do
  let latest ← CameraId.all.mapM fun camera =>
    (recording camera).getLast?.map (·.alignedTimestampNs)
  let earliest ← latest.min?
  some (earliest - policy.allowedLatenessNs)

/-- A window ends by the watermark when the watermark passes its requested end. -/
def wholeClosure (recording : Recording) (i : Nat) : WindowClosureReason :=
  if (wholeWatermark policy recording).any fun watermark =>
      decide (windowStartNs policy i + policy.windowWidthNs ≤ watermark)
  then .watermark else .eos

/-- Window `i` of a recording that ends at `finalEndNs`. -/
noncomputable def wholeWindow (recording : Recording) (finalEndNs : Int) (i : Nat) : WindowView :=
  (Recording.source H policy recording).window H policy i
    (min (windowStartNs policy i + policy.windowWidthNs) finalEndNs)
    (wholeClosure policy recording i)

/-! ## Buckets of a window -/

section Buckets

variable {policy} {startNs endNs o : Int}

theorem segmentOrdinalOf_eq_iff {t : Int} :
    segmentOrdinalOf policy t = o ↔
      segmentStartNs policy o ≤ t ∧ t < segmentStartNs policy (o + 1) :=
  slot_eq_iff policy.segmentDuration_pos

theorem qualityBucketOf_eq_iff {t : Int} :
    qualityBucketOf policy t = o ↔
      qualityStartNs policy o ≤ t ∧ t < qualityStartNs policy (o + 1) :=
  slot_eq_iff policy.qualityPeriod_pos

theorem segmentOrdinalOf_mono (policy : BoundedMediaPolicy) {t u : Int} (h : t ≤ u) :
    segmentOrdinalOf policy t ≤ segmentOrdinalOf policy u :=
  Int.ediv_le_ediv policy.segmentDuration_pos (Int.sub_le_sub_right h _)

theorem qualityBucketOf_mono (policy : BoundedMediaPolicy) {t u : Int} (h : t ≤ u) :
    qualityBucketOf policy t ≤ qualityBucketOf policy u :=
  Int.ediv_le_ediv policy.qualityPeriod_pos (Int.sub_le_sub_right h _)

theorem mem_bucketRange {first last : Int} : o ∈ bucketRange first last ↔ first ≤ o ∧ o ≤ last := by
  unfold bucketRange
  rw [mem_map]
  constructor
  · rintro ⟨k, hk, rfl⟩
    rw [mem_range] at hk
    omega
  · intro h
    refine ⟨(o - first).toNat, ?_, ?_⟩
    · rw [mem_range]
      omega
    · omega

/-- A segment bucket of a window ends after the start of the window and starts
before its end. -/
theorem mem_segmentRange :
    o ∈ segmentRange policy startNs endNs ↔
      startNs < segmentStartNs policy (o + 1) ∧ segmentStartNs policy o < endNs := by
  unfold segmentRange
  rw [mem_bucketRange]
  unfold segmentOrdinalOf segmentStartNs
  rw [slot_le_iff policy.segmentDuration_pos, le_slot_iff policy.segmentDuration_pos]
  omega

theorem mem_qualityRange :
    o ∈ qualityRange policy startNs endNs ↔
      startNs < qualityStartNs policy (o + 1) ∧ qualityStartNs policy o < endNs := by
  unfold qualityRange
  rw [mem_bucketRange]
  unfold qualityBucketOf qualityStartNs
  rw [slot_le_iff policy.qualityPeriod_pos, le_slot_iff policy.qualityPeriod_pos]
  omega

/-- The requested end of a window is a segment boundary, so a segment that starts
before it has ended by it. -/
theorem segment_ends_in_window {i : Nat}
    (h : segmentStartNs policy o < windowStartNs policy i + policy.windowWidthNs) :
    segmentStartNs policy (o + 1) ≤ windowStartNs policy i + policy.windowWidthNs := by
  have hboundary : policy.segmentDurationNs ∣ i * policy.windowHopNs + policy.windowWidthNs :=
    Dvd.dvd.add (Dvd.dvd.mul_left policy.hop_segments _) policy.width_segments
  unfold segmentStartNs windowStartNs at *
  have hslot := slot_ends_by policy.segmentDuration_pos hboundary (o := o) (by omega)
  omega

theorem quality_ends_in_window {i : Nat}
    (h : qualityStartNs policy o < windowStartNs policy i + policy.windowWidthNs) :
    qualityStartNs policy (o + 1) ≤ windowStartNs policy i + policy.windowWidthNs := by
  have hboundary : policy.qualityPeriodNs ∣ i * policy.windowHopNs + policy.windowWidthNs :=
    Dvd.dvd.add (Dvd.dvd.mul_left policy.hop_qualities _) policy.width_qualities
  unfold qualityStartNs windowStartNs at *
  have hslot := slot_ends_by policy.qualityPeriod_pos hboundary (o := o) (by omega)
  omega

end Buckets

/-! ## Windows of equal sources -/

section Sources

variable {H policy} {source source' : WindowSource} {i : Nat} {endNs : Int}

theorem WindowSource.window_congr (closure : WindowClosureReason)
    (hsilent : ∀ camera, source.silent camera = source'.silent camera)
    (hsegment : ∀ camera, ∀ o ∈ segmentRange policy (windowStartNs policy i) endNs,
      source.segment camera o = source'.segment camera o)
    (htarget : ∀ camera, ∀ b ∈ qualityRange policy (windowStartNs policy i) endNs,
      source.target camera b = source'.target camera b) :
    source.window H policy i endNs closure = source'.window H policy i endNs closure := by
  have hmembers : ∀ camera, (segmentRange policy (windowStartNs policy i) endNs).map
        (source.member H policy camera endNs) =
      (segmentRange policy (windowStartNs policy i) endNs).map
        (source'.member H policy camera endNs) := by
    intro camera
    apply map_congr_left
    intro o ho
    simp only [WindowSource.member, hsegment camera o ho, hsilent camera]
  have htargets : ∀ camera, (qualityRange policy (windowStartNs policy i) endNs).filterMap
        (source.target camera) =
      (qualityRange policy (windowStartNs policy i) endNs).filterMap (source'.target camera) := by
    intro camera
    exact filterMap_congr (htarget camera)
  have hgaps : ∀ camera, ((qualityRange policy (windowStartNs policy i) endNs).filter fun bucket =>
        (source.target camera bucket).isNone) =
      (qualityRange policy (windowStartNs policy i) endNs).filter fun bucket =>
        (source'.target camera bucket).isNone := by
    intro camera
    apply filter_congr
    intro b hb
    rw [htarget camera b hb]
  simp only [WindowSource.window, hmembers, htargets, hgaps]

end Sources

/-! ## Packets that come later -/

section Later

variable {policy} {packets later : List EncodedMediaPacket} {o : Int}

theorem recordingOf_append (camera : CameraId) :
    recordingOf (packets ++ later) camera = recordingOf packets camera ++ recordingOf later camera :=
  inBucket_append

theorem segmentPackets_append
    (h : ∀ packet ∈ later, segmentStartNs policy (o + 1) ≤ packet.alignedTimestampNs) :
    segmentPackets policy (packets ++ later) o = segmentPackets policy packets o := by
  apply inBucket_append_later
  intro packet hpacket hbucket
  have hin := segmentOrdinalOf_eq_iff.mp hbucket
  have hbehind := h packet hpacket
  omega

theorem qualityPackets_append
    (h : ∀ packet ∈ later, qualityStartNs policy (o + 1) ≤ packet.alignedTimestampNs) :
    qualityPackets policy (packets ++ later) o = qualityPackets policy packets o := by
  apply inBucket_append_later
  intro packet hpacket hbucket
  have hin := qualityBucketOf_eq_iff.mp hbucket
  have hbehind := h packet hpacket
  omega

variable {H} {i : Nat}

/-- A window of cameras that all have begun does not change once all further
packets lie behind its requested end. -/
theorem window_append (closure : WindowClosureReason)
    (hbegun : ∀ camera, recordingOf packets camera ≠ [])
    (hbehind : ∀ packet ∈ later,
      windowStartNs policy i + policy.windowWidthNs ≤ packet.alignedTimestampNs) :
    (Recording.source H policy (recordingOf (packets ++ later))).window H policy i
        (windowStartNs policy i + policy.windowWidthNs) closure =
      (Recording.source H policy (recordingOf packets)).window H policy i
        (windowStartNs policy i + policy.windowWidthNs) closure := by
  have hlater : ∀ camera, ∀ packet ∈ recordingOf later camera,
      windowStartNs policy i + policy.windowWidthNs ≤ packet.alignedTimestampNs := by
    intro camera packet hpacket
    exact hbehind packet (mem_inBucket.mp hpacket).1
  apply WindowSource.window_congr
  · intro camera
    have hne := hbegun camera
    show isEmpty _ = isEmpty _
    rw [recordingOf_append, isEmpty_eq_false_iff.mpr hne]
    simp [hne]
  · intro camera o ho
    have hends := segment_ends_in_window (mem_segmentRange.mp ho).2
    show segmentOf H policy camera o _ = segmentOf H policy camera o _
    rw [recordingOf_append, segmentPackets_append]
    intro packet hpacket
    exact hends.trans (hlater camera packet hpacket)
  · intro camera b hb
    have hends := quality_ends_in_window (mem_qualityRange.mp hb).2
    show Option.bind (argmin _ _) _ = Option.bind (argmin _ _) _
    rw [recordingOf_append, qualityPackets_append]
    intro packet hpacket
    exact hends.trans (hlater camera packet hpacket)

end Later

/-! ## The watermark -/

section Watermark

variable {policy} {recording : Recording}

/-- The watermark has reached an instant when every camera has passed it by the
allowed lateness. -/
theorem le_wholeWatermark_iff {t : Int} :
    (∃ watermark, wholeWatermark policy recording = some watermark ∧ t ≤ watermark) ↔
      ∀ camera, ∃ last, (recording camera).getLast? = some last ∧
        t + policy.allowedLatenessNs ≤ last.alignedTimestampNs := by
  unfold wholeWatermark
  constructor
  · rintro ⟨watermark, h, ht⟩ camera
    obtain ⟨latest, hlatest, h⟩ := Option.bind_eq_some_iff.mp h
    obtain ⟨earliest, hearliest, h⟩ := Option.bind_eq_some_iff.mp h
    cases h
    have hmem := mem_map_of_mem (f := fun camera =>
      (recording camera).getLast?.map (·.alignedTimestampNs)) camera.mem_all
    rw [mapM_eq_some_iff.mp hlatest] at hmem
    obtain ⟨v, hv, hsome⟩ := mem_map.mp hmem
    obtain ⟨last, hlast, rfl⟩ := Option.map_eq_some_iff.mp hsome.symm
    have hle := (min?_eq_some_iff.mp hearliest).2 _ hv
    exact ⟨last, hlast, by omega⟩
  · intro h
    choose last hlast hbound using h
    have hlatest : (CameraId.all.mapM fun camera =>
        (recording camera).getLast?.map (·.alignedTimestampNs)) =
          some (CameraId.all.map fun camera => (last camera).alignedTimestampNs) := by
      rw [mapM_eq_some_iff, map_map]
      apply map_congr_left
      intro camera _
      rw [hlast camera]
      rfl
    cases hearliest : (CameraId.all.map fun camera => (last camera).alignedTimestampNs).min? with
    | none =>
      cases hearliest
    | some earliest =>
      obtain ⟨camera, -, hcamera⟩ := mem_map.mp (min?_eq_some_iff.mp hearliest).1
      have hle := hbound camera
      refine ⟨earliest - policy.allowedLatenessNs, ?_, by omega⟩
      rw [hlatest]
      simp only [Option.bind_eq_bind, Option.bind_some, hearliest]

/-- The watermark has passed the requested end of window `i`. -/
def Passed (policy : BoundedMediaPolicy) (recording : Recording) (i : Nat) : Prop :=
  ∃ watermark, wholeWatermark policy recording = some watermark ∧
    windowStartNs policy i + policy.windowWidthNs ≤ watermark

theorem wholeClosure_of_passed {i : Nat} (h : Passed policy recording i) :
    wholeClosure policy recording i = .watermark := by
  obtain ⟨watermark, hwatermark, hle⟩ := h
  simp [wholeClosure, hwatermark, hle]

theorem wholeClosure_of_not_passed {i : Nat} (h : ¬ Passed policy recording i) :
    wholeClosure policy recording i = .eos := by
  unfold wholeClosure
  cases hwatermark : wholeWatermark policy recording with
  | none => rfl
  | some watermark =>
    have hgt : ¬ windowStartNs policy i + policy.windowWidthNs ≤ watermark := by
      intro hle
      exact h ⟨watermark, hwatermark, hle⟩
    simp [hgt]


end Watermark

end Robata.Media
