import Robata.Media.WholeRecording

/-!
# Plans without traversal indexes

The traversal index of a packet says where it stood among the packets of all
cameras, so two interleavings of the same cameras give it different values.  It
is the last component of the key of a quality bucket; the source orders of a
camera are strictly increasing, so that component is never consulted.  Hence the
plan of a recording without traversal indexes is the plan of the recording,
without traversal indexes.
-/

namespace Robata.Media

open Contracts Lib List

/-- The order that `_validate_camera_order` keeps within a camera. -/
def Ordered (packets : List EncodedMediaPacket) : Prop :=
  packets.Pairwise fun a b =>
    a.alignedTimestampNs < b.alignedTimestampNs ∧ a.sourceOrder < b.sourceOrder

variable {packets : List EncodedMediaPacket}

theorem Ordered.concat_iff {packet : EncodedMediaPacket} :
    Ordered (packets ++ [packet]) ↔ Ordered packets ∧ ∀ q ∈ packets,
      q.alignedTimestampNs < packet.alignedTimestampNs ∧ q.sourceOrder < packet.sourceOrder := by
  unfold Ordered
  simp [pairwise_append]

theorem Ordered.le_last (h : Ordered packets) {last q : EncodedMediaPacket}
    (hlast : packets.getLast? = some last) (hq : q ∈ packets) :
    q.alignedTimestampNs ≤ last.alignedTimestampNs ∧ q.sourceOrder ≤ last.sourceOrder := by
  obtain ⟨before, rfl⟩ := getLast?_eq_some_iff.mp hlast
  rcases mem_append.mp hq with hbefore | hself
  · have hlt := (Ordered.concat_iff.mp h).2 q hbefore
    omega
  · rw [mem_singleton.mp hself]
    omega

theorem Ordered.concat {packet : EncodedMediaPacket} (h : Ordered packets)
    (hlast : ∀ last, packets.getLast? = some last →
      last.alignedTimestampNs < packet.alignedTimestampNs ∧ last.sourceOrder < packet.sourceOrder) :
    Ordered (packets ++ [packet]) := by
  rw [Ordered.concat_iff]
  refine ⟨h, ?_⟩
  intro q hq
  obtain ⟨last, hsome⟩ : ∃ last, packets.getLast? = some last :=
    ⟨_, getLast?_eq_some_getLast (ne_nil_of_mem hq)⟩
  have hle := h.le_last hsome hq
  have hlt := hlast last hsome
  omega

def EncodedMediaPacket.forget (packet : EncodedMediaPacket) : EncodedMediaPacket :=
  { packet with traversalIndex := 0 }

def PacketReference.forget (packet : PacketReference) : PacketReference :=
  { packet with traversalIndex := 0 }

def SegmentView.forget (segment : SegmentView) : SegmentView :=
  { segment with packets := segment.packets.map fun packet => packet.forget }

def ContentView.forget : ContentView → ContentView
  | .segment plan => .segment plan.forget
  | .absence reason evidence => .absence reason evidence

def MemberView.forget (member : MemberView) : MemberView :=
  { member with content := member.content.forget }

def QualityTarget.forget (target : QualityTarget) : QualityTarget :=
  { target with packet := target.packet.forget }

/-- A window plan without the traversal indexes of its packets. -/
def WindowView.forget (window : WindowView) : WindowView :=
  { window with
    cameraPlans := window.cameraPlans.map fun plan =>
      (plan.1, plan.2.map (·.forget))
    qualityTargets := window.qualityTargets.map fun target => target.forget }

/-- A recording without traversal indexes. -/
def Recording.forget (recording : Recording) : Recording := fun camera =>
  (recording camera).map (·.forget)

def WindowSource.forget (source : WindowSource) : WindowSource where
  silent := source.silent
  segment := fun camera o => (source.segment camera o).map (·.forget)
  target := fun camera b => (source.target camera b).map (·.forget)

variable {H : Hashing} {policy : BoundedMediaPolicy}

/-! ## Segments and targets -/

@[simp] theorem reference_forget (packet : EncodedMediaPacket) :
    packet.forget.reference H = (packet.reference H).forget := rfl

@[simp] theorem alignedTimestampNs_forget (packet : EncodedMediaPacket) :
    packet.forget.alignedTimestampNs = packet.alignedTimestampNs := rfl

theorem segmentOf_forget (camera : CameraId) (o : Int) (packets : List EncodedMediaPacket) :
    segmentOf H policy camera o (packets.map (·.forget)) =
      (segmentOf H policy camera o packets).map fun segment => segment.forget := by
  cases packets with
  | nil => rfl
  | cons first rest =>
    have hlast : ((first :: rest).map (·.forget)).getLast (by simp) =
        ((first :: rest).getLast (cons_ne_nil _ _)).forget := getLast_map _
    have hcontent : ((first :: rest).map (·.forget)).flatMap
        (·.framingBytes) = (first :: rest).flatMap fun packet => packet.framingBytes := by
      rw [flatMap_map]
      rfl
    simp only [segmentOf, map_cons, SegmentView.forget] at *
    rw [hlast, hcontent]
    simp [Function.comp_def, EncodedMediaPacket.forget, EncodedMediaPacket.payloadBytes,
      EncodedMediaPacket.reference, PacketReference.forget]

/-- Packets of different source orders compare without their traversal indexes. -/
theorem packetKey_forget_lt {a c : EncodedMediaPacket} (bucket : Int)
    (h : c.sourceOrder < a.sourceOrder) :
    packetKey policy bucket a.forget < packetKey policy bucket c.forget ↔
      packetKey policy bucket a < packetKey policy bucket c := by
  have hne : a.sourceOrder ≠ c.sourceOrder := by omega
  simp [packetKey, EncodedMediaPacket.forget, Prod.Lex.toLex_lt_toLex, hne]

theorem argmin_forget (policy : BoundedMediaPolicy) (bucket : Int) :
    ∀ {packets : List EncodedMediaPacket}, Ordered packets →
      (packets.map (·.forget)).argmin (packetKey policy bucket) =
        (packets.argmin (packetKey policy bucket)).map fun packet => packet.forget := by
  intro packets
  induction packets using reverseRecOn with
  | nil =>
    intro _
    rfl
  | append_singleton packets a ih =>
    intro hordered
    obtain ⟨hfirst, -, hlast⟩ := pairwise_append.mp hordered
    rw [map_append, map_singleton, argmin_concat, argmin_concat, ih hfirst]
    cases hbest : packets.argmin (packetKey policy bucket) with
    | none => rfl
    | some c =>
      have hc : c ∈ packets := argmin_mem hbest
      have hlt := (hlast c hc a mem_cons_self).2
      simp only [Option.map_some, packetKey_forget_lt bucket hlt]
      split <;> rfl

theorem qualityTarget_forget (bucket : Int) (packet : PacketReference) :
    qualityTarget policy bucket packet.forget =
      (qualityTarget policy bucket packet).map fun target => target.forget := by
  by_cases hfar : policy.qualitySelectionToleranceNs <
      |packet.alignedTimestampNs - qualityTargetNs policy bucket| <;>
    simp [qualityTarget, PacketReference.forget, QualityTarget.forget, hfar]

theorem Ordered.qualityPackets (h : Ordered packets) (policy : BoundedMediaPolicy) (bucket : Int) :
    Ordered (qualityPackets policy packets bucket) :=
  List.Pairwise.filter _ h

theorem source_forget {recording : Recording} (h : ∀ camera, Ordered (recording camera)) :
    Recording.source H policy recording.forget = (Recording.source H policy recording).forget := by
  unfold Recording.source
  congr 1
  · funext camera
    exact isEmpty_map
  · funext camera o
    show segmentOf H policy camera o (inBucket _ (List.map _ _) o) = _
    rw [inBucket_map, segmentOf_forget]
    rfl
  · funext camera b
    show Option.bind (argmin _ (inBucket _ (List.map _ _) b)) _ = _
    rw [inBucket_map]
    have hbest := argmin_forget policy b ((h camera).qualityPackets policy b)
    simp only [qualityPackets] at hbest
    simp only [alignedTimestampNs_forget, hbest, wholeTarget, bestPacket, qualityPackets,
      Option.bind_map, Option.map_bind, Function.comp_def, reference_forget, qualityTarget_forget]

/-! ## Windows -/

theorem member_forget (source : WindowSource) (camera : CameraId) (endNs o : Int) :
    source.forget.member H policy camera endNs o = (source.member H policy camera endNs o).forget := by
  unfold WindowSource.member MemberView.forget WindowSource.forget
  cases hsegment : source.segment camera o <;> simp [hsegment, ContentView.forget]

theorem targets_forget (source : WindowSource) (buckets : List Int) :
    (CameraId.all.flatMap fun camera => buckets.filterMap (source.forget.target camera)).insertionSort
        (fun a b => qualityTargetLe a b) =
      ((CameraId.all.flatMap fun camera => buckets.filterMap (source.target camera)).insertionSort
        fun a b => qualityTargetLe a b).map fun target => target.forget := by
  -- The sort key does not read the traversal index, so erasing commutes with sorting.
  rw [map_insertionSort (fun a b => (qualityTargetLe a b : Prop))
    (fun a b => (qualityTargetLe a b : Prop)) QualityTarget.forget]
  · rw [map_flatMap]
    simp only [map_filterMap]
    rfl
  · intro a _ b _
    rfl

theorem window_forget (source : WindowSource) (i : Nat) (endNs : Int)
    (closure : WindowClosureReason) :
    source.forget.window H policy i endNs closure =
      (source.window H policy i endNs closure).forget := by
  have hgap : ∀ camera b, (source.forget.target camera b).isNone =
      (source.target camera b).isNone := by
    intro camera b
    exact Option.isNone_map
  have hplans : (CameraId.all.map fun camera =>
        (camera, (segmentRange policy (windowStartNs policy i) endNs).map
          (source.forget.member H policy camera endNs))) =
      (CameraId.all.map fun camera =>
        (camera, (segmentRange policy (windowStartNs policy i) endNs).map
          (source.member H policy camera endNs))).map fun plan =>
            (plan.1, plan.2.map (·.forget)) := by
    simp [member_forget]
  simp only [WindowSource.window, WindowView.forget, hplans, targets_forget, hgap]

theorem wholeWatermark_forget (recording : Recording) :
    wholeWatermark policy recording.forget = wholeWatermark policy recording := by
  have hlast : ∀ camera, ((recording.forget camera).getLast?.map fun packet =>
      packet.alignedTimestampNs) =
        (recording camera).getLast?.map fun packet => packet.alignedTimestampNs := by
    intro camera
    show ((List.map _ _).getLast?.map _) = _
    rw [getLast?_map, Option.map_map]
    rfl
  simp only [wholeWatermark, hlast]

theorem wholeWindow_forget {recording : Recording} (h : ∀ camera, Ordered (recording camera))
    (finalEndNs : Int) (i : Nat) :
    wholeWindow H policy recording.forget finalEndNs i =
      (wholeWindow H policy recording finalEndNs i).forget := by
  unfold wholeWindow
  rw [source_forget h, window_forget]
  simp only [wholeClosure, wholeWatermark_forget]

end Robata.Media
