import Robata.Media.SinglePass

/-!
# The bounded rings

What the ring of a camera holds after any sequence of pushes, each of which may return or raise.  A
push that raises behind `_append_ring`, where a segment or a window has no 64-bit interval, has
taken its packet: it is in the ring and in the facts.
-/

namespace Robata.Media

open Contracts Lib List
open Function (update update_eq_self update_idem update_of_ne update_self)
open Method

variable {H : Hashing} {policy : BoundedMediaPolicy}

/-- The part of a camera state that the ring and its bounds are about. -/
structure RingView where
  ring : List EncodedMediaPacket
  (ringBytes evictedPacketCount factsCount : Nat)
  lastSourceOrder : Option Nat
  lastAlignedTimestampNs : Option Int

def CameraState.ringView (state : CameraState) : RingView :=
  ⟨state.ring, state.ringBytes, state.evictedPacketCount, state.factsCount, state.lastSourceOrder,
    state.lastAlignedTimestampNs⟩

def payloadSum (packets : List EncodedMediaPacket) : Nat := (packets.map (·.payloadBytes)).sum

/-- The packets that are within both bounds of the last of `taken`. -/
structure Fits (policy : BoundedMediaPolicy) (taken kept : List EncodedMediaPacket) : Prop where
  bytes : payloadSum kept ≤ policy.ringMaxBytesPerCamera
  recent : ∀ newest ∈ taken.getLast?, ∀ packet ∈ kept,
    newest.alignedTimestampNs - policy.ringDurationNs ≤ packet.alignedTimestampNs

/-- The ring is the longest run of the last packets that is within both bounds. -/
structure BoundedRing (policy : BoundedMediaPolicy) (taken : List EncodedMediaPacket)
    (view : RingView) : Prop where
  suffix : view.ring <:+ taken
  bytes : view.ringBytes = payloadSum view.ring
  fits : Fits policy taken view.ring
  newest : view.ring.getLast? = taken.getLast?
  counted : view.evictedPacketCount + view.ring.length = view.factsCount
  longest : ∀ kept, kept <:+ taken → Fits policy taken kept → kept <:+ view.ring

/-! ## Eviction -/

/-- What is left when a loop has evicted from the left: all that the loop keeps by itself. -/
structure Evicted (drop : EncodedMediaPacket → Nat → Bool) (ring : List EncodedMediaPacket)
    (evicted : Nat) (left : List EncodedMediaPacket × Nat × Nat) : Prop where
  suffix : left.1 <:+ ring
  bytes : left.2.1 = payloadSum left.1
  count : left.2.2 + left.1.length = evicted + ring.length
  stops : ∀ first ∈ left.1.head?, drop first (payloadSum left.1) = false
  keeps : ∀ kept, kept <:+ ring → (∀ first ∈ kept.head?, drop first (payloadSum kept) = false) →
    kept <:+ left.1

theorem evict_spec {drop : EncodedMediaPacket → Nat → Bool} {ring : List EncodedMediaPacket}
    {bytes evicted : Nat} (hbytes : bytes = payloadSum ring) :
    Evicted drop ring evicted (evict drop ring bytes evicted) := by
  induction ring generalizing bytes evicted with
  | nil => exact ⟨suffix_rfl, hbytes, rfl, fun _ h => (by cases h), fun _ h _ => h⟩
  | cons packet rest ih =>
    have hsum : payloadSum (packet :: rest) = packet.payloadBytes + payloadSum rest := rfl
    by_cases hdrop : drop packet bytes
    · have hrest : bytes - packet.payloadBytes = payloadSum rest := by omega
      have hleft := @ih _ (evicted + 1) hrest
      rw [evict, if_pos hdrop]
      refine ⟨hleft.suffix.trans (suffix_cons _ _), hleft.bytes, ?_, hleft.stops,
        fun kept h hkeep => ?_⟩
      · rw [hleft.count, length_cons]
        omega
      · rcases suffix_cons_iff.mp h with rfl | h
        · rw [hbytes] at hdrop
          cases (hkeep packet rfl).symm.trans hdrop
        · exact hleft.keeps kept h hkeep
    · rw [evict, if_neg hdrop]
      refine ⟨suffix_rfl, hbytes, rfl, ?_, fun _ h _ => h⟩
      rintro first ⟨⟩
      exact hbytes ▸ Bool.not_eq_true _ ▸ hdrop

variable {taken : List EncodedMediaPacket} {packet : EncodedMediaPacket} {state : CameraState}

/-- What else is kept about a camera that has taken packets. -/
structure RingInv (policy : BoundedMediaPolicy) (taken : List EncodedMediaPacket)
    (view : RingView) : Prop extends BoundedRing policy taken view where
  ordered : Ordered taken
  lastAligned : view.lastAlignedTimestampNs = taken.getLast?.map (·.alignedTimestampNs)
  lastOrder : view.lastSourceOrder = taken.getLast?.map (·.sourceOrder)

theorem RingInv.empty : RingInv policy [] CameraState.empty.ringView where
  suffix := suffix_rfl
  bytes := rfl
  fits := ⟨Nat.zero_le _, fun _ h => (by cases h)⟩
  newest := rfl
  counted := rfl
  longest := fun _ h _ => h
  ordered := .nil
  lastAligned := rfl
  lastOrder := rfl

theorem payloadSum_concat (packets : List EncodedMediaPacket) :
    payloadSum (packets ++ [packet]) = payloadSum packets + packet.payloadBytes := by
  unfold payloadSum
  rw [map_append, sum_append]
  rfl

/-- `_append_ring` refuses the packet at once, or takes it into the ring. -/
theorem appendRing_bounded (h : RingInv policy taken state.ringView)
    (hordered : Ordered (taken ++ [packet])) :
    wp (appendRing policy packet)
      (fun _ t => t.factsCount = state.factsCount ∧
        RingInv policy (taken ++ [packet]) (updateFacts packet t).ringView)
      (fun _ t => t = state) state := by
  unfold appendRing
  simp only [wp_bind, wp_raiseIf, wp_assign, wp_self]
  refine ⟨fun _ => trivial, fun hsmall => ?_⟩
  have hbytes : state.ringBytes + packet.payloadBytes = payloadSum (state.ring ++ [packet]) := by
    rw [payloadSum_concat]
    exact congrArg (· + _) h.bytes
  unfold CameraState.evict
  dsimp only
  have hyoung := @evict_spec (fun first _ =>
    decide (first.alignedTimestampNs < packet.alignedTimestampNs - policy.ringDurationNs)) _ _
      state.evictedPacketCount hbytes
  generalize evict _ _ _ _ = young at hyoung ⊢
  have hlight := @evict_spec (fun _ bytes => decide (policy.ringMaxBytesPerCamera < bytes)) _ _
    young.2.2 hyoung.bytes
  generalize evict _ _ _ _ = light at hlight ⊢
  have hring : state.ring ++ [packet] <:+ taken ++ [packet] := by
    obtain ⟨before, rfl⟩ := h.suffix
    exact ⟨before, (append_assoc ..).symm⟩
  have hlast : (taken ++ [packet]).getLast? = some packet := getLast?_concat
  -- a run of the last packets that is within both bounds stays
  have hlongest : ∀ kept, kept <:+ taken ++ [packet] → Fits policy (taken ++ [packet]) kept →
      kept <:+ light.1 := by
    intro kept hkept hfits
    rcases suffix_concat_iff.mp hkept with rfl | ⟨older, rfl, holder⟩
    · exact nil_suffix
    have hfitsOlder : Fits policy taken older := by
      refine ⟨?_, fun newest hnewest other hother => ?_⟩
      · have hsum := hfits.bytes
        rw [payloadSum_concat] at hsum
        omega
      · have hrecent := hfits.recent packet hlast other (mem_append_left _ hother)
        have hlater := ((Ordered.concat_iff.mp hordered).2 newest (mem_of_getLast? hnewest)).1
        omega
    obtain ⟨before, hbefore⟩ := h.longest older holder hfitsOlder
    refine hlight.keeps _ (hyoung.keeps _ ⟨before, ?_⟩ fun first hfirst => ?_) fun _ _ => ?_
    · rw [← append_assoc, hbefore]
      rfl
    · exact decide_eq_false (not_lt.mpr (hfits.recent packet hlast first (mem_of_mem_head? hfirst)))
    · exact decide_eq_false (not_lt.mpr hfits.bytes)
  have hself : [packet] <:+ light.1 := by
    refine hlongest _ (suffix_append _ _) ⟨not_lt.mp (of_decide_eq_false hsmall), ?_⟩
    intro newest hnewest other hother
    cases hlast.symm.trans hnewest
    rw [mem_singleton.mp hother]
    exact sub_le_self _ policy.ringDuration_pos.le
  have hbound : payloadSum light.1 ≤ policy.ringMaxBytesPerCamera := by
    obtain ⟨first, rest, hcons⟩ := exists_cons_of_ne_nil
      (ne_nil_of_mem (hself.subset mem_cons_self))
    exact not_lt.mp (of_decide_eq_false (hlight.stops first (by rw [hcons]; rfl)))
  have hrecent : ∀ other ∈ young.1,
      packet.alignedTimestampNs - policy.ringDurationNs ≤ other.alignedTimestampNs := by
    intro other hother
    have hsorted : Ordered young.1 := hordered.sublist (hyoung.suffix.trans hring).sublist
    have hstops := hyoung.stops
    cases hlist : young.1 with
    | nil =>
      rw [hlist] at hother
      cases hother
    | cons first rest =>
      rw [hlist] at hother hsorted hstops
      have hfirst := not_lt.mp (of_decide_eq_false (hstops first rfl))
      rcases mem_cons.mp hother with rfl | hrest
      · exact hfirst
      · exact hfirst.trans ((pairwise_cons.mp hsorted).1 other hrest).1.le
  refine ⟨fun hover => ?_, fun _ => ?_⟩
  · exact absurd (of_decide_eq_true hover) (not_lt.mpr (hlight.bytes.trans_le hbound))
  · refine ⟨rfl, ⟨(hlight.suffix.trans hyoung.suffix).trans hring, hlight.bytes, ⟨hbound, ?_⟩, ?_,
      ?_, hlongest⟩, hordered, ?_, ?_⟩
    · intro newest hnewest other hother
      cases hlast.symm.trans hnewest
      exact hrecent other (hlight.suffix.subset hother)
    · obtain ⟨before, hbefore⟩ := hself
      rw [hlast]
      show light.1.getLast? = _
      rw [← hbefore, getLast?_concat]
    · show light.2.2 + light.1.length = state.factsCount + 1
      rw [hlight.count, hyoung.count, length_append]
      exact congrArg (· + 1) h.counted
    · rw [hlast]
      rfl
    · rw [hlast]
      rfl

/-! ## Pushes -/

theorem sealSegment_keeps (builder : SegmentBuilder) :
    KeepsView CameraState.ringView (sealSegment H policy builder) :=
  .bind (fun _ => rfl) fun _ => .bind (fun _ => rfl) fun _ _ => rfl

theorem appendSegment_keeps (packet : EncodedMediaPacket) :
    KeepsView CameraState.ringView (appendSegment H policy packet) := by
  refine .bind (fun _ => rfl) fun requested => .bind (fun _ => rfl) fun state => ?_
  cases state.currentSegment with
  | none => exact .bind (fun _ => rfl) fun _ _ => rfl
  | some current =>
    refine .bind keepsView_raiseIf fun _ => ?_
    split
    · exact .bind (fun _ => rfl) fun _ _ => rfl
    · exact .bind (sealSegment_keeps _) fun _ => .bind (fun _ => rfl) fun _ _ => rfl

theorem updateQuality_keeps (packet : EncodedMediaPacket) :
    KeepsView CameraState.ringView (updateQuality H policy packet) := by
  refine .bind (fun _ => rfl) fun state => ?_
  cases state.pendingBucket with
  | none => exact .bind (fun _ => rfl) fun _ _ => rfl
  | some pending =>
    refine .bind keepsView_raiseIf fun _ => ?_
    split
    · exact .bind keepsView_raiseIf fun _ => .bind (fun _ => rfl) fun _ _ => rfl
    · exact .bind (.bind (fun _ => rfl) fun _ => .bind (fun _ => rfl) fun _ _ => rfl)
        fun _ => .bind (fun _ => rfl) fun _ _ => rfl

/-- The rings of all cameras. -/
def Planner.rings (s : Planner) (camera : CameraId) : RingView := (s.states camera).ringView

theorem onCamera_keeps {α : Type} {x : Method CameraState MediaError α}
    (hx : KeepsView CameraState.ringView x) (camera : CameraId) :
    KeepsView Planner.rings (onCamera camera x) := by
  intro s
  funext other
  show (update s.states camera (x (s.states camera)).2 other).ringView = _
  by_cases hother : other = camera
  · rw [hother, update_self]
    exact hx _
  · rw [update_of_ne hother]
    rfl

theorem emitWindows_keeps {lead limit : Int} {hlead : 0 < lead}
    {build : Planner → Except MediaError BoundedWindowPlan} :
    KeepsView Planner.rings (emitWindows policy lead limit hlead build) := by
  intro s
  fun_induction emitWindows policy lead limit hlead build s with
  | case1 => rfl
  | case2 s _ window _ out ih => exact ih
  | case3 => rfl

theorem emitWatermarkedWindows_keeps {watermark : Option Int} :
    KeepsView Planner.rings (emitWatermarkedWindows H policy watermark) := by
  cases watermark with
  | none => exact fun _ => rfl
  | some watermark => exact emitWindows_keeps

/-- What is kept about all cameras after the packets that have been taken. -/
def RingsInv (policy : BoundedMediaPolicy) (taken : List EncodedMediaPacket) (s : Planner) : Prop :=
  ∀ camera, RingInv policy (recordingOf taken camera) (s.rings camera)

theorem validateCameraOrder_bounded (h : RingInv policy taken state.ringView) :
    wp (validateCameraOrder packet) (fun _ t => t = state ∧ Ordered (taken ++ [packet]))
      (fun _ t => t = state) state := by
  have hkeeps : KeepsView id (validateCameraOrder packet) :=
    .bind (fun _ => rfl) fun _ => .bind keepsView_raiseIf fun _ => .bind keepsView_raiseIf fun _ =>
      .bind keepsView_raiseIf fun _ => keepsView_raiseIf
  refine wp_iff.mpr ⟨fun _ t hok => ?_, fun _ t herror => ?_⟩
  · obtain ⟨rfl, horder, haligned⟩ := validateCameraOrder_ok hok
    refine ⟨rfl, h.ordered.concat fun last hlast => ⟨haligned _ ?_, horder _ ?_⟩⟩
    · exact h.lastAligned.trans (by rw [hlast]; rfl)
    · exact h.lastOrder.trans (by rw [hlast]; rfl)
  · have hstate := hkeeps state
    rw [herror] at hstate
    exact hstate

/-- A planner has taken a packet behind those that were taken before. -/
def Takes (policy : BoundedMediaPolicy) (taken : List EncodedMediaPacket)
    (packet : EncodedMediaPacket) (s s' : Planner) : Prop :=
  RingsInv policy (taken ++ [packet]) s' ∧ (s'.rings packet.cameraId).factsCount =
    (s.rings packet.cameraId).factsCount + 1

/-- A push raises and leaves all rings as they are, or takes its packet. -/
theorem push_rings {s : Planner} (h : RingsInv policy taken s) :
    ((push H policy packet s).1.isOk = false ∧ (push H policy packet s).2.rings = s.rings) ∨
      Takes policy taken packet s (push H policy packet s).2 := by
  let seen : Planner := { s with lastTraversalIndex := some packet.traversalIndex }
  have hsame : { seen with
      states := update seen.states packet.cameraId (s.states packet.cameraId) } = seen := by
    rw [update_eq_self]
  suffices hpush : wp (push H policy packet) (fun _ => Takes policy taken packet s)
      (fun _ t => t.rings = s.rings ∨ Takes policy taken packet s t) s by
    unfold wp at hpush
    split at hpush <;> rename_i hrun <;> rw [hrun]
    · exact .inr hpush
    · exact hpush.imp_left fun hsame => ⟨rfl, hsame⟩
  unfold push
  rw [wp_bind, wp_self, wp_bind, wp_raiseIf]
  refine ⟨fun _ => .inl rfl, fun _ => ?_⟩
  rw [wp_bind, wp_raiseIf]
  refine ⟨fun _ => .inl rfl, fun _ => ?_⟩
  rw [wp_bind, wp_raiseIf]
  refine ⟨fun _ => .inl rfl, fun _ => ?_⟩
  rw [wp_bind, wp_assign, wp_bind]
  refine wp_within.mpr (wp_mono (validateCameraOrder_bounded (h packet.cameraId)) ?_ ?_)
  · rintro _ t ⟨rfl, hordered⟩
    rw [hsame, wp_bind]
    refine wp_within.mpr (wp_mono (appendRing_bounded (h packet.cameraId) hordered) ?_ ?_)
    · rintro _ t ⟨hcount, htaken⟩
      rw [wp_bind]
      refine wp_within.mpr ((wp_assign _).mpr ?_)
      -- whatever the rest of the push does, the packet stays in the ring and in the facts
      refine wp_mono (KeepsView.wp (P := Takes policy taken packet s)
        (.bind (onCamera_keeps (appendSegment_keeps _) _) fun _ =>
          .bind (onCamera_keeps (updateQuality_keeps _) _) fun _ => .bind (fun _ => rfl) fun _ =>
            .bind (fun _ => rfl) fun _ => .bind emitWatermarkedWindows_keeps fun _ _ => rfl) ?_)
        (fun _ _ htakes => htakes) fun _ _ => .inr
      intro t' ht'
      have hrings : t'.rings = fun camera =>
          (update s.states packet.cameraId (updateFacts packet t) camera).ringView := by
        refine ht'.trans (funext fun camera => ?_)
        show (update (update s.states _ t) _ (updateFacts packet (update s.states _ t _))
          camera).ringView = _
        rw [update_self, update_idem]
      refine ⟨fun camera => ?_, ?_⟩
      · rw [hrings]
        dsimp only
        by_cases hcamera : camera = packet.cameraId
        · rw [hcamera, update_self, recordingOf_concat_self]
          exact htaken
        · rw [update_of_ne hcamera, recordingOf_concat_ne (Ne.symm hcamera)]
          exact h camera
      · rw [hrings]
        dsimp only
        rw [update_self]
        exact congrArg (· + 1) hcount
    · rintro _ t rfl
      exact .inl ((congrArg Planner.rings hsame).trans rfl)
  · rintro _ t rfl
    exact .inl ((congrArg Planner.rings hsame).trans rfl)

/-! ## Runs -/

variable (H policy)

/-- A push, whatever it answers, and the packets that the facts have counted so far. -/
def pushCounted (run : Planner × List EncodedMediaPacket) (packet : EncodedMediaPacket) :
    Planner × List EncodedMediaPacket :=
  let s := (push H policy packet run.1).2
  (s, if (s.rings packet.cameraId).factsCount = (run.1.rings packet.cameraId).factsCount then run.2
    else run.2 ++ [packet])

def pushEach (packets : List EncodedMediaPacket) : Planner × List EncodedMediaPacket :=
  packets.foldl (pushCounted H policy) (Planner.start policy, [])

/-- The packets whose push has returned. -/
def returned : Planner → List EncodedMediaPacket → List EncodedMediaPacket
  | _, [] => []
  | s, packet :: rest =>
    let out := push H policy packet s
    if out.1.isOk then packet :: returned out.2 rest else returned out.2 rest

theorem pushCounted_rings {run : Planner × List EncodedMediaPacket}
    (h : RingsInv policy run.2 run.1) (packet : EncodedMediaPacket) :
    RingsInv policy (pushCounted H policy run packet).2 (pushCounted H policy run packet).1 ∧
      ((push H policy packet run.1).1.isOk = true →
        (pushCounted H policy run packet).2 = run.2 ++ [packet]) := by
  unfold pushCounted
  rcases @push_rings H policy _ packet _ h with ⟨hraised, hsame⟩ | ⟨htaken, hcount⟩
  · have hcount := congrArg RingView.factsCount (congrFun hsame packet.cameraId)
    dsimp only
    rw [if_pos hcount, hraised]
    refine ⟨fun camera => ?_, fun hok => (by cases hok)⟩
    rw [hsame]
    exact h camera
  · dsimp only
    rw [if_neg fun heq => (Nat.succ_ne_self _) (hcount.symm.trans heq)]
    exact ⟨htaken, fun _ => rfl⟩

theorem pushEach_rings (packets : List EncodedMediaPacket) :
    RingsInv policy (pushEach H policy packets).2 (pushEach H policy packets).1 := by
  induction packets using reverseRecOn with
  | nil => exact fun _ => .empty
  | append_singleton packets packet ih =>
    unfold pushEach at ih ⊢
    rw [foldl_concat]
    exact (pushCounted_rings H policy ih packet).1

/-- After any pushes the ring of a camera is the longest run of the last packets counted by its
facts that is within both bounds, and a push that returns has had its packet counted. -/
theorem ring_bounded (packets : List EncodedMediaPacket) :
    (∀ camera, BoundedRing policy (recordingOf (pushEach H policy packets).2 camera)
      ((pushEach H policy packets).1.rings camera)) ∧
    ∀ packet, (push H policy packet (pushEach H policy packets).1).1.isOk = true →
      (pushEach H policy (packets ++ [packet])).2 = (pushEach H policy packets).2 ++ [packet] := by
  have hinv := pushEach_rings H policy packets
  refine ⟨fun camera => (hinv camera).toBoundedRing, fun packet hok => ?_⟩
  have htaken := (pushCounted_rings H policy hinv packet).2 hok
  unfold pushEach at htaken ⊢
  rw [foldl_concat]
  exact htaken

/-- The first packet of a camera, whose segment ends behind the last 64-bit instant. -/
def lastInstant : EncodedMediaPacket :=
  { packetAt 0 .cam01 0 with alignedTimestampNs := int64Max }

theorem raised_packet_is_kept : ¬ ∀ (H : Hashing) (policy : BoundedMediaPolicy)
    (packets : List EncodedMediaPacket) (camera : CameraId),
    BoundedRing policy (recordingOf (returned H policy (Planner.start policy) packets) camera)
      ((pushEach H policy packets).1.rings camera) := by
  intro h
  have hle := (h shownHashing shortWindows [lastInstant] lastInstant.cameraId).suffix.length_le
  exact absurd hle (by decide +kernel)

end Robata.Media
