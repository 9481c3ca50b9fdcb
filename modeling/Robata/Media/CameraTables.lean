import Robata.Media.TraversalIndex

/-!
# The tables of one camera

The state of a camera that has taken the packets `packets`, in terms of the plan of
the whole recording.  `Retained` says that from a cutoff on its tables are complete,
the buckets being built apart; `Traversed` says that the buckets being built are
those of the last packet and hold all their packets so far.  A push keeps both, for
one more packet; pruning moves the cutoff; the end of the stream seals what is open.
-/

namespace Robata.Media

open Contracts Lib List
open Method (assign_eq_ok ofExcept_eq_ok pure_eq_ok raiseIf_eq_ok)
open Option (map_eq_some_iff map_some)

variable {H : Hashing} {policy : BoundedMediaPolicy}

theorem bounds_of_interval {startNs endNs : Int} {interval : NanosecondInterval}
    (h : nanosecondInterval startNs endNs = .ok interval) : interval.bounds = (startNs, endNs) := by
  unfold nanosecondInterval at h
  split at h
  · rename_i made hmade
    cases h
    exact NanosecondInterval.bounds_of_make? hmade
  · cases h

/-! ## What a camera state retains -/

variable (H policy) in
/-- What is known of the tables of a camera whose packets so far are `packets`:
from the cutoff on they are complete, the buckets being built apart. -/
structure Retained (camera : CameraId) (packets : List EncodedMediaPacket) (cutoff : Int)
    (state : CameraState) : Prop where
  count : state.factsCount = packets.length
  segments : ∀ o, cutoff < segmentStartNs policy (o + 1) →
    state.currentSegment.map (·.ordinal) ≠ some o →
      (state.segments.find? o).map (·.view) = wholeSegment H policy camera packets o
  targets : ∀ b, cutoff < qualityStartNs policy (b + 1) →
    selectedTarget state b =
      if state.pendingBucket = some b then none else wholeTarget H policy packets b
  targetNs : ∀ target ∈ state.qualityTargets,
    target.requestedTargetNs = qualityTargetNs policy target.bucketOrdinal

variable (H policy) in
/-- The builder of a segment holds all packets of its bucket. -/
structure BuildsSegment (camera : CameraId) (packets : List EncodedMediaPacket)
    (builder : SegmentBuilder) : Prop where
  camera_eq : builder.cameraId = camera
  requested : builder.requestedInterval.bounds =
    (segmentStartNs policy builder.ordinal, segmentStartNs policy (builder.ordinal + 1))
  packets_eq : builder.packets = (segmentPackets policy packets builder.ordinal).map (·.reference H)
  digest : builder.digest = (segmentPackets policy packets builder.ordinal).flatMap (·.framingBytes)
  payloadBytes : builder.payloadBytes =
    ((segmentPackets policy packets builder.ordinal).map (·.payloadBytes)).sum

variable (H policy) in
/-- What is known of a camera that is being traversed: the open buckets are those
of its last packet. -/
structure Traversed (camera : CameraId) (packets : List EncodedMediaPacket) (state : CameraState)
    : Prop where
  ordered : Ordered packets
  last : state.lastTimestampNs = packets.getLast?.map (·.alignedTimestampNs)
  lastAligned : state.lastAlignedTimestampNs = packets.getLast?.map (·.alignedTimestampNs)
  lastOrder : state.lastSourceOrder = packets.getLast?.map (·.sourceOrder)
  openSegment : state.currentSegment.map (·.ordinal) =
    packets.getLast?.map fun packet => segmentOrdinalOf policy packet.alignedTimestampNs
  builds : ∀ builder, state.currentSegment = some builder →
    BuildsSegment H policy camera packets builder
  openBucket : state.pendingBucket =
    packets.getLast?.map fun packet => qualityBucketOf policy packet.alignedTimestampNs
  pending : ∀ b, state.pendingBucket = some b →
    state.pendingPacket = (bestPacket policy packets b).map (·.reference H)

theorem Retained.empty (camera : CameraId) (cutoff : Int) :
    Retained H policy camera [] cutoff .empty where
  count := rfl
  segments := fun _ _ _ => rfl
  targets := fun _ _ => rfl
  targetNs := forall_mem_nil _

theorem Traversed.empty (camera : CameraId) : Traversed H policy camera [] .empty where
  ordered := List.Pairwise.nil
  last := rfl
  lastAligned := rfl
  lastOrder := rfl
  openSegment := rfl
  builds := fun _ h => absurd h (by simp [CameraState.empty])
  openBucket := rfl
  pending := fun _ h => absurd h (by simp [CameraState.empty])

/-! ## Pruning -/

section Prune

variable {camera : CameraId} {packets : List EncodedMediaPacket} {cutoff cutoff' : Int}
  {state : CameraState}

theorem Retained.prune (h : Retained H policy camera packets cutoff state)
    (hcutoff : cutoff ≤ cutoff') :
    Retained H policy camera packets cutoff' (state.prune policy cutoff') where
  count := h.count
  segments := by
    intro o ho hopen
    have hfind := h.segments o (by omega) hopen
    show ((state.segments.deleteWhere _).find? o).map _ = _
    rw [KeyedTable.find?_deleteWhere]
    cases hsegment : state.segments.find? o with
    | none =>
      rw [hsegment] at hfind
      exact hfind
    | some segment =>
      rw [hsegment] at hfind
      -- The stored segment has the bounds of its bucket, so it ends behind the cutoff.
      have hend : segment.requestedInterval.endNs = segmentStartNs policy (o + 1) := by
        unfold wholeSegment segmentOf at hfind
        split at hfind
        · cases hfind
        · have hview := Option.some.inj hfind
          have hrequested := congrArg (·.requested.2) hview
          exact hrequested
      rw [Option.filter_some, if_pos]
      · exact hfind
      · simp only [Bool.not_eq_true', decide_eq_false_iff_not]
        omega
  targets := by
    intro b hb
    have hselected := h.targets b (by omega)
    show (List.filter _ (List.filter _ state.qualityTargets)).getLast? = _
    rw [filter_filter]
    have hkeep : (state.qualityTargets.filter fun target =>
          target.bucketOrdinal == b &&
            decide (cutoff' < target.requestedTargetNs + policy.qualityPeriodNs)) =
        state.qualityTargets.filter fun target => target.bucketOrdinal == b := by
      apply filter_congr
      intro target htarget
      by_cases hbucket : target.bucketOrdinal = b
      · have hnonneg := policy.qualityTargetPhase_nonneg
        have htargetNs := h.targetNs target htarget
        rw [hbucket] at htargetNs
        unfold qualityStartNs at hb
        unfold qualityTargetNs at htargetNs
        have hlate : cutoff' < target.requestedTargetNs + policy.qualityPeriodNs := by
          linarith
        simp [hlate]
      · simp [hbucket]
    rw [hkeep]
    exact hselected
  targetNs := by
    intro target htarget
    exact h.targetNs target (mem_filter.mp htarget).1

theorem Traversed.prune (h : Traversed H policy camera packets state) :
    Traversed H policy camera packets (state.prune policy cutoff') where
  ordered := h.ordered
  last := h.last
  lastAligned := h.lastAligned
  lastOrder := h.lastOrder
  openSegment := h.openSegment
  builds := h.builds
  openBucket := h.openBucket
  pending := h.pending

end Prune

/-! ## Segments of a push -/

section Segments

variable {camera : CameraId} {packets : List EncodedMediaPacket} {packet : EncodedMediaPacket}
  {builder : SegmentBuilder} {state state' : CameraState} {o : Int}

theorem segmentPackets_concat_self (h : segmentOrdinalOf policy packet.alignedTimestampNs = o) :
    segmentPackets policy (packets ++ [packet]) o = segmentPackets policy packets o ++ [packet] :=
  inBucket_concat_self h

theorem segmentPackets_concat_ne (h : segmentOrdinalOf policy packet.alignedTimestampNs ≠ o) :
    segmentPackets policy (packets ++ [packet]) o = segmentPackets policy packets o :=
  inBucket_concat_ne h

theorem BuildsSegment.append (h : BuildsSegment H policy camera packets builder)
    (hordinal : segmentOrdinalOf policy packet.alignedTimestampNs = builder.ordinal) :
    BuildsSegment H policy camera (packets ++ [packet]) (builder.append H packet) where
  camera_eq := h.camera_eq
  requested := h.requested
  packets_eq := by
    simp [SegmentBuilder.append, segmentPackets_concat_self hordinal, h.packets_eq]
  digest := by
    simp [SegmentBuilder.append, segmentPackets_concat_self hordinal, h.digest]
  payloadBytes := by
    simp [SegmentBuilder.append, segmentPackets_concat_self hordinal, h.payloadBytes]

theorem BuildsSegment.fresh {requested : NanosecondInterval}
    (hrequested : requested.bounds = (segmentStartNs policy o, segmentStartNs policy (o + 1)))
    (hnone : segmentPackets policy packets o = []) :
    BuildsSegment H policy camera packets ⟨camera, o, requested, [], [], 0⟩ where
  camera_eq := rfl
  requested := hrequested
  packets_eq := by simp [hnone]
  digest := by simp [hnone]
  payloadBytes := by simp [hnone]

/-- What `_seal_segment` makes of a complete builder is the segment of its
bucket. -/
theorem BuildsSegment.segmentPlan_view (h : BuildsSegment H policy camera packets builder)
    (hordered : Ordered packets) {plan : SegmentPlan} (hplan : segmentPlan H policy builder = .ok plan) :
    plan.segmentOrdinal = builder.ordinal ∧
      wholeSegment H policy camera packets builder.ordinal = some plan.view := by
  have hpackets := h.packets_eq
  have hinside : ∀ q ∈ segmentPackets policy packets builder.ordinal,
      segmentStartNs policy builder.ordinal ≤ q.alignedTimestampNs ∧
        q.alignedTimestampNs < segmentStartNs policy (builder.ordinal + 1) := by
    intro q hq
    exact segmentOrdinalOf_eq_iff.mp (mem_inBucket.mp hq).2
  have hbucket : Ordered (segmentPackets policy packets builder.ordinal) :=
    List.Pairwise.filter _ hordered
  unfold segmentPlan at hplan
  unfold wholeSegment
  have hdigest := h.digest
  have hbytes := h.payloadBytes
  cases hmembers : segmentPackets policy packets builder.ordinal with
  | nil =>
    rw [hmembers] at hpackets
    rw [hpackets] at hplan
    cases hplan
  | cons first rest =>
    rw [hmembers] at hpackets hinside hbucket hdigest hbytes
    rw [hpackets] at hplan
    obtain ⟨effective, heffective, hplan⟩ := bind_eq_ok.mp hplan
    obtain ⟨_, -, hplan⟩ := bind_eq_ok.mp hplan
    obtain ⟨_, -, hplan⟩ := bind_eq_ok.mp hplan
    obtain ⟨_, -, hplan⟩ := bind_eq_ok.mp hplan
    cases hplan
    have hlast : (first :: rest).getLast (cons_ne_nil _ _) ∈ first :: rest :=
      getLast_mem _
    have hle : first.alignedTimestampNs ≤
        ((first :: rest).getLast (cons_ne_nil _ _)).alignedTimestampNs := by
      rcases mem_cons.mp hlast with heq | hrest
      · rw [heq]
      · exact ((pairwise_cons.mp hbucket).1 _ hrest).1.le
    have hlastRef : (first.reference H :: rest.map (·.reference H)).getLast (cons_ne_nil _ _) =
        ((first :: rest).getLast (cons_ne_nil _ _)).reference H :=
      getLast_map (l := first :: rest) _
    have hfirst := hinside first mem_cons_self
    have hend := hinside _ hlast
    have hstart : builder.requestedInterval.startNs = segmentStartNs policy builder.ordinal :=
      congrArg Prod.fst h.requested
    have hstop : builder.requestedInterval.endNs = segmentStartNs policy (builder.ordinal + 1) :=
      congrArg Prod.snd h.requested
    have heffectiveBounds := bounds_of_interval heffective
    rw [hlastRef] at heffectiveBounds
    have hbounds : effective.bounds = (first.alignedTimestampNs,
        ((first :: rest).getLast (cons_ne_nil _ _)).alignedTimestampNs + 1) := by
      rw [heffectiveBounds]
      show (max _ first.alignedTimestampNs, min _ (max (first.alignedTimestampNs + 1)
        (((first :: rest).getLast (cons_ne_nil _ _)).alignedTimestampNs + 1))) = _
      rw [Prod.mk.injEq]
      omega
    refine ⟨rfl, ?_⟩
    simp only [SegmentPlan.view, hbounds, h.requested, h.camera_eq, hdigest, hbytes]
    rfl

theorem appendSegment_ok {closed : List SegmentPlan}
    (h : appendSegment H policy packet state = (.ok closed, state'))
    (ho : segmentOrdinalOf policy packet.alignedTimestampNs = o) :
    ∃ requested : NanosecondInterval,
      requested.bounds = (segmentStartNs policy o, segmentStartNs policy (o + 1)) ∧
      ((state.currentSegment = none ∧
          state' = { state with
            currentSegment := some
              (SegmentBuilder.append H ⟨packet.cameraId, o, requested, [], [], 0⟩ packet) }) ∨
        (∃ current, state.currentSegment = some current ∧ o = current.ordinal ∧
          state' = { state with currentSegment := some (current.append H packet) }) ∨
        (∃ current plan, state.currentSegment = some current ∧ current.ordinal < o ∧
          segmentPlan H policy current = .ok plan ∧
          state' = { state with
            segments := state.segments.upsert plan
            currentSegment := some
              (SegmentBuilder.append H ⟨packet.cameraId, o, requested, [], [], 0⟩ packet) })) := by
  unfold appendSegment at h
  simp only [ho, Method.bind_eq_ok, ofExcept_eq_ok] at h
  obtain ⟨requested, _, ⟨hrequested, rfl⟩, _, _, ⟨rfl, rfl⟩, h⟩ := h
  refine ⟨requested, bounds_of_interval hrequested, ?_⟩
  cases hcurrent : state.currentSegment with
  | none =>
    left
    simp only [hcurrent] at h
    obtain ⟨_, _, rfl, _, rfl⟩ := h
    exact ⟨rfl, rfl⟩
  | some current =>
    right
    simp only [hcurrent, Method.bind_eq_ok, raiseIf_eq_ok, decide_eq_false_iff_not] at h
    obtain ⟨_, _, ⟨hnotBefore, rfl⟩, h⟩ := h
    split at h
    · rename_i hsame
      left
      obtain ⟨_, _, rfl, _, rfl⟩ := h
      exact ⟨current, rfl, hsame, rfl⟩
    · right
      simp only [sealSegment, continueSegment, Method.bind_eq_ok, ofExcept_eq_ok,
        assign_eq_ok, pure_eq_ok] at h
      obtain ⟨_, _, ⟨plan, _, ⟨hplan, rfl⟩, _, _, rfl, _, rfl⟩, _, _, rfl, _, rfl⟩ := h
      exact ⟨current, plan, rfl, by omega, hplan, rfl⟩

theorem segments_push {mid : CameraState} {closed : List SegmentPlan} {cutoff : Int}
    (ht : Traversed H policy camera packets state) (hr : Retained H policy camera packets cutoff state)
    (hcamera : packet.cameraId = camera)
    (h : appendSegment H policy packet mid = (.ok closed, state'))
    (hcurrent : mid.currentSegment = state.currentSegment) (hsegments : mid.segments = state.segments)
    (ho : segmentOrdinalOf policy packet.alignedTimestampNs = o) :
    ∃ builder segments, state' = { mid with currentSegment := some builder, segments := segments } ∧
      builder.ordinal = o ∧ BuildsSegment H policy camera (packets ++ [packet]) builder ∧
      ∀ k, cutoff < segmentStartNs policy (k + 1) → k ≠ o →
        (segments.find? k).map (·.view) = wholeSegment H policy camera (packets ++ [packet]) k := by
  have hother : ∀ k, k ≠ o → wholeSegment H policy camera (packets ++ [packet]) k =
      wholeSegment H policy camera packets k := by
    intro k hk
    unfold wholeSegment
    rw [segmentPackets_concat_ne (by omega)]
  have hfresh : ∀ requested : NanosecondInterval,
      requested.bounds = (segmentStartNs policy o, segmentStartNs policy (o + 1)) →
      segmentPackets policy packets o = [] →
      BuildsSegment H policy camera (packets ++ [packet])
        (SegmentBuilder.append H ⟨packet.cameraId, o, requested, [], [], 0⟩ packet) := by
    intro requested hrequested hnone
    rw [hcamera]
    exact (BuildsSegment.fresh hrequested hnone).append ho
  obtain ⟨requested, hrequested, hcases⟩ := appendSegment_ok h ho
  rw [hcurrent, hsegments] at hcases
  rcases hcases with ⟨hnone, rfl⟩ | ⟨current, hsome, hsame, rfl⟩ |
      ⟨current, plan, hsome, hlater, hplan, rfl⟩
  · -- The first packet of the camera.
    have hempty : packets = [] := by
      have hopen := ht.openSegment
      rw [hnone] at hopen
      simpa using hopen
    refine ⟨_, state.segments, by rw [← hsegments], rfl, hfresh requested hrequested ?_, ?_⟩
    · rw [hempty]
      rfl
    · intro k hk hne
      rw [hother k hne]
      exact hr.segments k hk (by rw [hnone]; exact Option.some_ne_none k ∘ Eq.symm)
  · -- The bucket of the last packet goes on.
    refine ⟨current.append H packet, state.segments, by rw [← hsegments], hsame.symm, ?_, ?_⟩
    · exact (ht.builds current hsome).append (ho.trans hsame)
    · intro k hk hne
      rw [hother k hne]
      apply hr.segments k hk
      rw [hsome, map_some]
      simp only [ne_eq, Option.some.injEq]
      omega
  · -- A later bucket begins: the one being built is complete.
    have hbuilds := ht.builds current hsome
    obtain ⟨hplanOrdinal, hview⟩ := hbuilds.segmentPlan_view ht.ordered hplan
    refine ⟨_, _, rfl, rfl, hfresh requested hrequested ?_, ?_⟩
    · apply inBucket_eq_nil
      intro q hq hbucket
      have hopen := ht.openSegment
      rw [hsome, map_some] at hopen
      obtain ⟨last, hlast, hlastOrdinal⟩ := map_eq_some_iff.mp hopen.symm
      have hmono := segmentOrdinalOf_mono policy (ht.ordered.le_last hlast hq).1
      omega
    · intro k hk hne
      rw [hother k hne, KeyedTable.find?_upsert, hplanOrdinal]
      by_cases hk' : k = current.ordinal
      · rw [if_pos hk', hk', hview]
        rfl
      · rw [if_neg hk']
        apply hr.segments k hk
        rw [hsome, map_some]
        simp only [ne_eq, Option.some.injEq]
        omega

end Segments

/-! ## Quality targets of a push -/

section Quality

variable {camera : CameraId} {packets : List EncodedMediaPacket} {packet : EncodedMediaPacket}
  {state state' : CameraState} {b : Int}

theorem keyLt_eq_true {a c : Int × Nat × Nat} :
    keyLt a c = true ↔ toLex (a.1, toLex (a.2.1, a.2.2)) < toLex (c.1, toLex (c.2.1, c.2.2)) := by
  rw [Prod.Lex.toLex_lt_toLex, Prod.Lex.toLex_lt_toLex]
  unfold keyLt
  rw [Bool.or_eq_true, Bool.and_eq_true, Bool.or_eq_true, Bool.and_eq_true]
  simp only [beq_iff_eq]
  exact or_congr decide_eq_true_iff (and_congr_right fun _ =>
    or_congr decide_eq_true_iff (and_congr_right fun _ => decide_eq_true_iff))

theorem keyLt_iff (a c : EncodedMediaPacket) :
    keyLt (qualityCandidateKey policy b (a.reference H))
        (qualityCandidateKey policy b (c.reference H)) = true ↔
      packetKey policy b a < packetKey policy b c :=
  keyLt_eq_true

theorem qualityPackets_concat_self (h : qualityBucketOf policy packet.alignedTimestampNs = b) :
    qualityPackets policy (packets ++ [packet]) b = qualityPackets policy packets b ++ [packet] :=
  inBucket_concat_self h

theorem qualityPackets_concat_ne (h : qualityBucketOf policy packet.alignedTimestampNs ≠ b) :
    qualityPackets policy (packets ++ [packet]) b = qualityPackets policy packets b :=
  inBucket_concat_ne h

theorem bestPacket_concat_ne (h : qualityBucketOf policy packet.alignedTimestampNs ≠ b) :
    bestPacket policy (packets ++ [packet]) b = bestPacket policy packets b := by
  unfold bestPacket
  rw [qualityPackets_concat_ne h]

variable (H packets) in
theorem bestPacket_concat_self (h : qualityBucketOf policy packet.alignedTimestampNs = b) :
    (bestPacket policy (packets ++ [packet]) b).map (·.reference H) =
      some (match (bestPacket policy packets b).map (·.reference H) with
        | none => packet.reference H
        | some candidate => betterCandidate policy b candidate (packet.reference H)) := by
  unfold bestPacket
  rw [qualityPackets_concat_self h, argmin_concat]
  cases argmin (packetKey policy b) (qualityPackets policy packets b) with
  | none => rfl
  | some candidate =>
    simp only [map_some, betterCandidate, keyLt_iff]
    split <;> rfl

theorem bestPacket_eq_none (h : ∀ q ∈ packets, qualityBucketOf policy q.alignedTimestampNs ≠ b) :
    bestPacket policy packets b = none := by
  have hnone : qualityPackets policy packets b = [] := inBucket_eq_nil h
  unfold bestPacket
  rw [hnone, argmin_nil]

theorem exists_bestPacket {q : EncodedMediaPacket} (hq : q ∈ packets)
    (hb : qualityBucketOf policy q.alignedTimestampNs = b) :
    ∃ best, bestPacket policy packets b = some best := by
  apply Option.ne_none_iff_exists'.mp
  intro hnone
  have hempty : qualityPackets policy packets b = [] := argmin_eq_none.mp hnone
  have hmem : q ∈ qualityPackets policy packets b := mem_inBucket.mpr ⟨hq, hb⟩
  rw [hempty] at hmem
  exact absurd hmem not_mem_nil

theorem updateQuality_ok {closed : List QualityTarget}
    (h : updateQuality H policy packet state = (.ok closed, state'))
    (hb : qualityBucketOf policy packet.alignedTimestampNs = b) :
    (state.pendingBucket = none ∧
        state' = { state with pendingBucket := some b, pendingPacket := some (packet.reference H) }) ∨
      (state.pendingBucket = some b ∧
        state' = { state with
          pendingPacket := state.pendingPacket.map fun candidate =>
            betterCandidate policy b candidate (packet.reference H) }) ∨
      (∃ pending, state.pendingBucket = some pending ∧ pending < b ∧
        state' = { state with
          pendingBucket := some b
          pendingPacket := some (packet.reference H)
          qualityTargets := state.qualityTargets ++ pendingTarget policy state }) := by
  unfold updateQuality at h
  simp only [hb, Method.bind_eq_ok] at h
  obtain ⟨_, _, ⟨rfl, rfl⟩, h⟩ := h
  cases hpending : state.pendingBucket with
  | none =>
    left
    simp only [hpending] at h
    obtain ⟨_, _, rfl, _, rfl⟩ := h
    exact ⟨rfl, rfl⟩
  | some pending =>
    right
    simp only [hpending, Method.bind_eq_ok, raiseIf_eq_ok, decide_eq_false_iff_not] at h
    obtain ⟨_, _, ⟨hnotBefore, rfl⟩, h⟩ := h
    split at h
    · rename_i hsame
      left
      simp only [Method.bind_eq_ok, raiseIf_eq_ok, assign_eq_ok] at h
      obtain ⟨_, _, ⟨-, rfl⟩, _, _, rfl, _, rfl⟩ := h
      exact ⟨congrArg some hsame.symm, by rw [hpending]⟩
    · right
      obtain ⟨_, _, ⟨_, _, ⟨rfl, rfl⟩, _, _, rfl, _, rfl⟩, _, _, rfl, _, rfl⟩ := h
      exact ⟨pending, rfl, by omega, rfl⟩

theorem Traversed.pendingTarget_eq (ht : Traversed H policy camera packets state)
    (hpending : state.pendingBucket = some b) :
    pendingTarget policy state = (wholeTarget H policy packets b).toList := by
  unfold pendingTarget wholeTarget
  rw [hpending, ht.pending b hpending]
  cases bestPacket policy packets b <;> rfl

theorem bucketOrdinal_of_wholeTarget {target : QualityTarget}
    (h : wholeTarget H policy packets b = some target) :
    target.bucketOrdinal = b ∧ target.requestedTargetNs = qualityTargetNs policy b := by
  obtain ⟨best, -, htarget⟩ := Option.bind_eq_some_iff.mp h
  unfold qualityTarget at htarget
  simp only at htarget
  split at htarget
  · cases htarget
  · cases htarget
    exact ⟨rfl, rfl⟩

/-- The targets after a bucket is finalised: its own is there, the others are as
they were. -/
theorem Retained.finalized {cutoff : Int} (ht : Traversed H policy camera packets state)
    (hr : Retained H policy camera packets cutoff state) (k : Int)
    (hk : cutoff < qualityStartNs policy (k + 1)) :
    ((state.qualityTargets ++ pendingTarget policy state).filter fun target =>
        target.bucketOrdinal == k).getLast? = wholeTarget H policy packets k := by
  have hselected := hr.targets k hk
  unfold selectedTarget at hselected
  cases hpending : state.pendingBucket with
  | none =>
    have hnone : pendingTarget policy state = [] := by simp [pendingTarget, hpending]
    rw [hnone, append_nil, hselected, hpending, if_neg (by simp)]
  | some pending =>
    rw [ht.pendingTarget_eq hpending, filter_append]
    rw [hpending] at hselected
    by_cases hbucket : pending = k
    · -- Nothing was stored for the bucket while it was pending.
      rw [if_pos (congrArg some hbucket), getLast?_eq_none_iff] at hselected
      rw [hselected, hbucket]
      cases htarget : wholeTarget H policy packets k with
      | none => rfl
      | some target =>
        have hordinal := (bucketOrdinal_of_wholeTarget htarget).1
        simp [hordinal]
    · rw [if_neg (by simpa using hbucket)] at hselected
      have hothers : ((wholeTarget H policy packets pending).toList.filter fun target =>
          target.bucketOrdinal == k) = [] := by
        cases htarget : wholeTarget H policy packets pending with
        | none => rfl
        | some target =>
          have hordinal := (bucketOrdinal_of_wholeTarget htarget).1
          simpa [hordinal] using hbucket
      rw [hothers, append_nil]
      exact hselected

theorem Retained.finalized_targetNs {cutoff : Int} (ht : Traversed H policy camera packets state)
    (hr : Retained H policy camera packets cutoff state) :
    ∀ target ∈ state.qualityTargets ++ pendingTarget policy state,
      target.requestedTargetNs = qualityTargetNs policy target.bucketOrdinal := by
  intro target htarget
  rcases mem_append.mp htarget with hold | hnew
  · exact hr.targetNs target hold
  · cases hpending : state.pendingBucket with
    | none => simp [pendingTarget, hpending] at hnew
    | some pending =>
      rw [ht.pendingTarget_eq hpending, Option.mem_toList] at hnew
      have hboth := bucketOrdinal_of_wholeTarget hnew
      rw [hboth.1, hboth.2]

theorem quality_push {mid : CameraState} {closed : List QualityTarget} {cutoff : Int}
    (ht : Traversed H policy camera packets state) (hr : Retained H policy camera packets cutoff state)
    (h : updateQuality H policy packet mid = (.ok closed, state'))
    (hbucket : mid.pendingBucket = state.pendingBucket)
    (hpacket : mid.pendingPacket = state.pendingPacket)
    (htargets : mid.qualityTargets = state.qualityTargets)
    (hb : qualityBucketOf policy packet.alignedTimestampNs = b) :
    ∃ targets, state' =
        { mid with
          pendingBucket := some b
          pendingPacket := (bestPacket policy (packets ++ [packet]) b).map fun packet =>
            packet.reference H
          qualityTargets := targets } ∧
      (∀ k, cutoff < qualityStartNs policy (k + 1) →
        (targets.filter (·.bucketOrdinal == k)).getLast? =
          if b = k then none else wholeTarget H policy (packets ++ [packet]) k) ∧
      ∀ target ∈ targets, target.requestedTargetNs = qualityTargetNs policy target.bucketOrdinal := by
  have hother : ∀ k, b ≠ k → wholeTarget H policy (packets ++ [packet]) k =
      wholeTarget H policy packets k := by
    intro k hk
    unfold wholeTarget
    rw [bestPacket_concat_ne (by omega)]
  have hbest := bestPacket_concat_self H packets hb
  have hopen := ht.openBucket
  rcases updateQuality_ok h hb with ⟨hnone, rfl⟩ | ⟨hsame, rfl⟩ | ⟨pending, hsome, hlater, rfl⟩
  · -- The first packet of the camera.
    rw [hbucket] at hnone
    have hempty : packets = [] := by
      rw [hnone] at hopen
      simpa using hopen.symm
    subst hempty
    refine ⟨state.qualityTargets, ?_, ?_, hr.targetNs⟩
    · rw [hbest, ← htargets]
      rfl
    · intro k hk
      have hselected := hr.targets k hk
      rw [hnone, if_neg (by simp)] at hselected
      unfold selectedTarget at hselected
      rw [hselected]
      split
      · rfl
      · rename_i hne
        exact (hother k hne).symm
  · -- The bucket of the last packet goes on.
    rw [hbucket] at hsame
    have hpending := ht.pending b hsame
    refine ⟨state.qualityTargets, ?_, ?_, hr.targetNs⟩
    · rw [hsame] at hopen
      obtain ⟨last, hlast, hlastBucket⟩ := map_eq_some_iff.mp hopen.symm
      obtain ⟨candidate, hcandidate⟩ :=
        exists_bestPacket (mem_of_getLast? hlast) hlastBucket
      rw [hpacket, hpending, hbest, hcandidate, ← htargets, ← hsame, ← hbucket]
      rfl
    · intro k hk
      have hselected := hr.targets k hk
      rw [hsame] at hselected
      unfold selectedTarget at hselected
      rw [hselected]
      by_cases hne : b = k
      · simp [hne]
      · simp only [Option.some.injEq, hne]
        exact (hother k hne).symm
  · -- A later bucket begins: the pending one is finalised.
    have hfinalized : mid.qualityTargets ++ pendingTarget policy mid =
        state.qualityTargets ++ pendingTarget policy state := by
      unfold pendingTarget
      rw [hbucket, hpacket, htargets]
    rw [hbucket] at hsome
    rw [hsome] at hopen
    obtain ⟨last, hlast, hlastBucket⟩ := map_eq_some_iff.mp hopen.symm
    have hfresh : bestPacket policy packets b = none := by
      apply bestPacket_eq_none
      intro q hq hqb
      have hmono := qualityBucketOf_mono policy (ht.ordered.le_last hlast hq).1
      omega
    refine ⟨_, ?_, ?_, Retained.finalized_targetNs ht hr⟩
    · rw [hbest, hfresh, ← hfinalized]
      rfl
    · intro k hk
      rw [Retained.finalized ht hr k hk]
      split
      · rename_i heq
        rw [← heq]
        unfold wholeTarget
        rw [hfresh]
        rfl
      · rename_i hne
        exact (hother k hne).symm

end Quality

/-! ## One push of one camera -/

section Push

variable {camera : CameraId} {packets : List EncodedMediaPacket} {packet : EncodedMediaPacket}
  {state state' : CameraState} {cutoff : Int}

theorem validateCameraOrder_ok {u : Unit} (h : validateCameraOrder packet state = (.ok u, state')) :
    state' = state ∧
      (∀ last, state.lastSourceOrder = some last → last < packet.sourceOrder) ∧
      ∀ last, state.lastAlignedTimestampNs = some last → last < packet.alignedTimestampNs := by
  unfold validateCameraOrder at h
  simp only [Method.bind_eq_ok, raiseIf_eq_ok] at h
  obtain ⟨_, _, ⟨rfl, rfl⟩, _, _, ⟨horder, rfl⟩, _, _, ⟨-, rfl⟩, _, _, ⟨-, rfl⟩, haligned, rfl⟩ := h
  refine ⟨rfl, ?_, ?_⟩
  · intro last hlast
    rw [hlast] at horder
    simpa using horder
  · intro last hlast
    rw [hlast] at haligned
    simpa using haligned

theorem appendRing_ok {u : Unit} (h : appendRing policy packet state = (.ok u, state')) :
    ∃ ring bytes evicted highest, state' =
      { state with
        ring := ring, ringBytes := bytes, evictedPacketCount := evicted, maxRingBytes := highest } := by
  unfold appendRing at h
  simp only [Method.bind_eq_ok, raiseIf_eq_ok, assign_eq_ok] at h
  obtain ⟨_, _, ⟨-, rfl⟩, _, _, rfl, _, _, rfl, _, _, rfl, _, _, ⟨rfl, rfl⟩, -, rfl⟩ := h
  exact ⟨_, _, _, _, rfl⟩

theorem camera_push {u v : Unit} {s₁ s₂ s₃ : CameraState} {closed : List SegmentPlan}
    {targets : List QualityTarget}
    (ht : Traversed H policy camera packets state) (hr : Retained H policy camera packets cutoff state)
    (hcamera : packet.cameraId = camera)
    (hvalidate : validateCameraOrder packet state = (.ok u, s₁))
    (hring : appendRing policy packet s₁ = (.ok v, s₂))
    (hsegment : appendSegment H policy packet (updateFacts packet s₂) = (.ok closed, s₃))
    (hquality : updateQuality H policy packet s₃ = (.ok targets, state')) :
    Traversed H policy camera (packets ++ [packet]) state' ∧
      Retained H policy camera (packets ++ [packet]) cutoff state' := by
  obtain ⟨rfl, horder, haligned⟩ := validateCameraOrder_ok hvalidate
  obtain ⟨ring, bytes, evicted, highest, rfl⟩ := appendRing_ok hring
  have hordered : Ordered (packets ++ [packet]) := by
    apply ht.ordered.concat
    intro last hlast
    constructor
    · exact haligned _ (by rw [ht.lastAligned, hlast]; rfl)
    · exact horder _ (by rw [ht.lastOrder, hlast]; rfl)
  obtain ⟨builder, segments, rfl, hordinal, hbuilds, hsegments⟩ :=
    segments_push ht hr hcamera hsegment rfl rfl rfl
  obtain ⟨kept, rfl, htargets, htargetNs⟩ := quality_push ht hr hquality rfl rfl rfl rfl
  constructor
  · exact
      { ordered := hordered
        last := by simp [updateFacts]
        lastAligned := by simp [updateFacts]
        lastOrder := by simp [updateFacts]
        openSegment := by simp [hordinal]
        builds := by
          intro current hcurrent
          cases hcurrent
          exact hbuilds
        openBucket := by simp
        pending := by
          intro b hb
          cases hb
          rfl }
  · exact
      { count := by simp [updateFacts, hr.count]
        segments := by
          intro o ho hopen
          apply hsegments o ho
          simpa [hordinal, eq_comm] using hopen
        targets := by
          intro b hb
          show getLast? _ = _
          rw [htargets b hb]
          simp only [Option.some.injEq]
        targetNs := htargetNs }

end Push

/-! ## The end of one camera -/

theorem camera_finish {camera : CameraId} {packets : List EncodedMediaPacket} {cutoff : Int}
    {state mid state' : CameraState} {closed : List SegmentPlan} {targets : List QualityTarget}
    (ht : Traversed H policy camera packets state) (hr : Retained H policy camera packets cutoff state)
    (hseal : sealCurrent H policy state = (.ok closed, mid))
    (hfinalize : finalizeQuality policy mid = (.ok targets, state')) :
    Retained H policy camera packets cutoff state' ∧ state'.currentSegment = none ∧
      state'.pendingBucket = none := by
  have hsealed : ∃ segments, mid = { state with currentSegment := none, segments := segments } ∧
      ∀ o, cutoff < segmentStartNs policy (o + 1) →
        (segments.find? o).map (·.view) = wholeSegment H policy camera packets o := by
    unfold sealCurrent at hseal
    simp only [Method.bind_eq_ok] at hseal
    obtain ⟨_, _, ⟨rfl, rfl⟩, hseal⟩ := hseal
    cases hcurrent : state.currentSegment with
    | none =>
      simp only [hcurrent] at hseal
      obtain ⟨-, rfl⟩ := hseal
      refine ⟨state.segments, by rw [← hcurrent], ?_⟩
      intro o ho
      exact hr.segments o ho (by rw [hcurrent]; simp)
    | some builder =>
      simp only [hcurrent, sealSegment, Method.bind_eq_ok, ofExcept_eq_ok, assign_eq_ok] at hseal
      obtain ⟨_, _, ⟨plan, _, ⟨hplan, rfl⟩, _, _, rfl, -, rfl⟩, _, _, rfl, -, rfl⟩ := hseal
      obtain ⟨hordinal, hview⟩ := (ht.builds builder hcurrent).segmentPlan_view ht.ordered hplan
      refine ⟨_, rfl, ?_⟩
      intro o ho
      rw [KeyedTable.find?_upsert, hordinal]
      by_cases hopen : o = builder.ordinal
      · rw [if_pos hopen, hopen, hview]
        rfl
      · rw [if_neg hopen]
        apply hr.segments o ho
        rw [hcurrent, map_some]
        simp only [ne_eq, Option.some.injEq]
        omega
  obtain ⟨segments, rfl, hsegments⟩ := hsealed
  obtain ⟨_, _, ⟨rfl, rfl⟩, _, _, rfl, -, rfl⟩ := hfinalize
  refine ⟨?_, rfl, rfl⟩
  exact
    { count := hr.count
      segments := fun o ho _ => hsegments o ho
      targets := by
        intro b hb
        exact Retained.finalized ht hr b hb
      targetNs := by
        have htargetNs := Retained.finalized_targetNs ht hr
        exact htargetNs }

end Robata.Media
