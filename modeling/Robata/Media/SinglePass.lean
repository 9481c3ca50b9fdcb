import Robata.Media.CameraTables

/-!
# The single-pass planner plans the whole recording

The windows that the pushes of a traversal and its `finish` emit are the windows
of the recording.  A window is assembled from the tables of the cameras; it is
emitted when the watermark has passed its end, so it reads no bucket that is being
built, and the packets that come later lie behind it.
-/

namespace Robata.Media

open Contracts Lib List
open Function (update update_of_ne update_self)
open Method (assign_eq_ok exists_of_isOk)
open Recording (forget source)

variable {H : Hashing} {policy : BoundedMediaPolicy}

/-! ## A window reads the tables of the planner -/

/-- The tables of the planner as the source of a window. -/
def Planner.source (s : Planner) : WindowSource where
  silent := fun camera => (s.states camera).factsCount == 0
  segment := fun camera o => ((s.states camera).segments.find? o).map (·.view)
  target := fun camera b => selectedTarget (s.states camera) b

variable {camera : CameraId} {s : Planner} {endNs : Int}

theorem windowMember_view {o : Int} {member : WindowMember}
    (h : windowMember H policy (s.states camera) camera endNs o = .ok member) :
    member.view = s.source.member H policy camera endNs o := by
  obtain ⟨interval, hinterval, h⟩ := bind_eq_ok.mp h
  have hbounds := bounds_of_interval hinterval
  unfold WindowSource.member Planner.source
  cases hfind : (s.states camera).segments.find? o with
  | some segment | none =>
    rw [hfind] at h
    cases h
    simp [WindowMember.view, MemberContent.view, hbounds, hfind]

theorem cameraWindowPlan_view {startNs : Int} {plan : CameraWindowPlan}
    (h : cameraWindowPlan H policy (s.states camera) startNs endNs camera = .ok plan) :
    plan.view = (camera, (segmentRange policy startNs endNs).map
      (s.source.member H policy camera endNs)) := by
  obtain ⟨members, hmembers, h⟩ := bind_eq_ok.mp h
  obtain ⟨_, -, h⟩ := bind_eq_ok.mp h
  obtain ⟨_, -, h⟩ := bind_eq_ok.mp h
  cases h
  have hviews : members.map (·.view) = (segmentRange policy startNs endNs).map
      (s.source.member H policy camera endNs) :=
    mapM_map_eq hmembers fun o _ member hmember => windowMember_view hmember
  show (camera, members.map _) = _
  rw [hviews]

theorem qualityGap_view {b : Int} {gap : QualityGap}
    (h : qualityGap policy camera endNs b = .ok gap) :
    gap.view = gapView policy camera endNs b := by
  obtain ⟨interval, hinterval, h⟩ := bind_eq_ok.mp h
  cases h
  simp [QualityGap.view, gapView, bounds_of_interval hinterval]

theorem cameraGaps_view {startNs : Int} {gaps : List QualityGap}
    (h : cameraGaps policy (s.states camera) startNs endNs camera = .ok gaps) :
    gaps.map (·.view) =
      ((qualityRange policy startNs endNs).filter fun bucket =>
        (s.source.target camera bucket).isNone).map (gapView policy camera endNs) :=
  mapM_map_eq h fun _ _ _ hgap => qualityGap_view hgap

/-- A window that `_build_window` returns is the window of the planner's tables. -/
theorem buildWindow_view {watermark effectiveEnd : Option Int}
    {reason : WindowClosureReason} {window : BoundedWindowPlan}
    (hend : max (windowStartNs policy s.windowOrdinal + 1)
      (effectiveEnd.getD (windowStartNs policy s.windowOrdinal + policy.windowWidthNs)) = endNs)
    (h : buildWindow H policy s (windowStartNs policy s.windowOrdinal)
      (windowStartNs policy s.windowOrdinal + policy.windowWidthNs) watermark reason effectiveEnd =
        .ok window) :
    window.view = s.source.window H policy s.windowOrdinal endNs reason := by
  obtain ⟨requested, hrequested, h⟩ := bind_eq_ok.mp h
  obtain ⟨effective, heffective, h⟩ := bind_eq_ok.mp h
  obtain ⟨plans, hplans, h⟩ := bind_eq_ok.mp h
  obtain ⟨gaps, hgaps, h⟩ := bind_eq_ok.mp h
  obtain ⟨_, -, h⟩ := bind_eq_ok.mp h
  obtain ⟨_, -, h⟩ := bind_eq_ok.mp h
  cases h
  have hbounds := bounds_of_interval heffective
  rw [hend] at hbounds
  have hendNs : effective.endNs = endNs := congrArg Prod.snd hbounds
  rw [hendNs] at hplans hgaps
  have hplanViews : plans.map (·.view) = CameraId.all.map fun camera =>
      (camera, (segmentRange policy (windowStartNs policy s.windowOrdinal) endNs).map
        (s.source.member H policy camera endNs)) :=
    mapM_map_eq hplans fun camera _ plan hplan => cameraWindowPlan_view hplan
  have hgapViews : gaps.map (fun gaps => gaps.map (·.view)) =
      CameraId.all.map fun camera =>
        ((qualityRange policy (windowStartNs policy s.windowOrdinal) endNs).filter fun bucket =>
          (s.source.target camera bucket).isNone).map (gapView policy camera endNs) :=
    mapM_map_eq hgaps fun camera _ gaps hgaps => cameraGaps_view hgaps
  have hgapSort : (gaps.flatten.insertionSort fun a b =>
        (cameraBucketLe (a.cameraId, a.bucketOrdinal) (b.cameraId, b.bucketOrdinal) : Prop)).map
          (·.view) =
      (gaps.flatten.map (·.view)).insertionSort fun a b =>
        (cameraBucketLe (a.cameraId, a.bucketOrdinal) (b.cameraId, b.bucketOrdinal) : Prop) := by
    apply map_insertionSort
    intro a _ b _
    rfl
  unfold BoundedWindowPlan.view
  simp only [bounds_of_interval hrequested, hbounds, hendNs, hplanViews, hgapSort,
    map_flatten, hgapViews]
  rfl

/-! ## The planner -/

variable (H policy) in
/-- What is known of a planner that has taken the packets `past`. -/
structure PlannerInv (past : List EncodedMediaPacket) (s : Planner) : Prop where
  traversed : ∀ camera, Traversed H policy camera (recordingOf past camera) (s.states camera)
  retained : ∀ camera,
    Retained H policy camera (recordingOf past camera) s.nextWindowStartNs (s.states camera)
  next : s.nextWindowStartNs = windowStartNs policy s.windowOrdinal
  latest : ∀ packet ∈ past, ∃ latest, s.maxEventTimeNs = some latest ∧
    packet.alignedTimestampNs ≤ latest

theorem PlannerInv.start : PlannerInv H policy [] (Planner.start policy) where
  traversed := fun camera => Traversed.empty camera
  retained := fun camera => Retained.empty camera _
  next := by simp [Planner.start, windowStartNs]
  latest := forall_mem_nil _

theorem windowStartNs_succ (i : Nat) :
    windowStartNs policy (i + 1) = windowStartNs policy i + policy.windowHopNs := by
  unfold windowStartNs
  push_cast
  ring

theorem PlannerInv.advance {past : List EncodedMediaPacket}
    (h : PlannerInv H policy past s) : PlannerInv H policy past (s.advance policy) where
  traversed := fun camera => (h.traversed camera).prune
  retained := by
    intro camera
    have hhop := policy.windowHop_pos
    apply (h.retained camera).prune
    show s.nextWindowStartNs ≤ s.nextWindowStartNs + policy.windowHopNs
    omega
  next := by
    show s.nextWindowStartNs + policy.windowHopNs = windowStartNs policy (s.windowOrdinal + 1)
    rw [windowStartNs_succ, h.next]
  latest := h.latest

/-! ## Emission -/

section Emission

variable {past : List EncodedMediaPacket} {s s' : Planner} {endNs : Int}

/-- From its tables the planner builds the window of the recording so far, if no
bucket of the window is being built. -/
theorem window_eq_of_retained
    (hretained : ∀ camera,
      Retained H policy camera (recordingOf past camera) s.nextWindowStartNs (s.states camera))
    (hnext : s.nextWindowStartNs = windowStartNs policy s.windowOrdinal)
    (closure : WindowClosureReason)
    (hsegment : ∀ camera, ∀ o ∈ segmentRange policy (windowStartNs policy s.windowOrdinal) endNs,
      (s.states camera).currentSegment.map (·.ordinal) ≠ some o)
    (hbucket : ∀ camera, ∀ b ∈ qualityRange policy (windowStartNs policy s.windowOrdinal) endNs,
      (s.states camera).pendingBucket ≠ some b) :
    s.source.window H policy s.windowOrdinal endNs closure =
      (source H policy (recordingOf past)).window H policy s.windowOrdinal endNs closure := by
  apply WindowSource.window_congr
  · intro camera
    have hcount := (hretained camera).count
    show ((s.states camera).factsCount == 0) = (recordingOf past camera).isEmpty
    rw [hcount]
    cases recordingOf past camera <;> rfl
  · intro camera o ho
    apply (hretained camera).segments o
    · rw [hnext]
      exact (mem_segmentRange.mp ho).1
    · exact hsegment camera o ho
  · intro camera b hb
    have hselected := (hretained camera).targets b (by rw [hnext]; exact (mem_qualityRange.mp hb).1)
    rw [if_neg (hbucket camera b hb)] at hselected
    exact hselected

theorem PlannerInv.watermark_eq (h : PlannerInv H policy past s) :
    watermarkNs policy s = wholeWatermark policy (recordingOf past) := by
  unfold watermarkNs wholeWatermark
  simp only [(h.traversed _).last]

/-- The emitting loop: every window it builds is as expected, and it stops where
the next window would pass the limit. -/
theorem emitWindows_spec {lead limit : Int} {hlead : 0 < lead}
    {build : Planner → Except MediaError BoundedWindowPlan} {P : Planner → Prop}
    (expected : Nat → WindowView)
    (hnext : ∀ s, P s → s.nextWindowStartNs = windowStartNs policy s.windowOrdinal)
    (hadvance : ∀ s, P s → P (s.advance policy))
    (hbuild : ∀ s window, P s → s.nextWindowStartNs + lead ≤ limit → build s = .ok window →
      window.view = expected s.windowOrdinal)
    {windows : List BoundedWindowPlan} (hs : P s)
    (h : emitWindows policy lead limit hlead build s = (.ok windows, s')) :
    P s' ∧ limit < s'.nextWindowStartNs + lead ∧ s.windowOrdinal ≤ s'.windowOrdinal ∧
      windows.map (·.view) =
        (range' s.windowOrdinal (s'.windowOrdinal - s.windowOrdinal)).map expected ∧
      ∀ i, s.windowOrdinal ≤ i → i < s'.windowOrdinal → windowStartNs policy i + lead ≤ limit := by
  induction s using emitWindows.induct policy lead limit hlead build generalizing windows with
  | case1 s hwithin e herror =>
    rw [emitWindows, if_pos hwithin, herror] at h
    cases h
  | case2 s hwithin window hok ih =>
    rw [emitWindows, if_pos hwithin, hok] at h
    obtain ⟨hwindows, rfl⟩ := Prod.mk.inj h
    cases hrest : (emitWindows policy lead limit hlead build (s.advance policy)).1 with
    | error e =>
      rw [hrest] at hwindows
      cases hwindows
    | ok rest =>
      rw [hrest] at hwindows
      cases hwindows
      obtain ⟨hP, hlimit, hle, hviews, hbound⟩ :=
        ih (hadvance s hs) (Prod.ext hrest rfl)
      have hordinal : (s.advance policy).windowOrdinal = s.windowOrdinal + 1 := rfl
      rw [hordinal] at hle hviews hbound
      refine ⟨hP, hlimit, by omega, ?_, ?_⟩
      · have hcount : (emitWindows policy lead limit hlead build
            (s.advance policy)).2.windowOrdinal - s.windowOrdinal =
            (emitWindows policy lead limit hlead build
              (s.advance policy)).2.windowOrdinal - (s.windowOrdinal + 1) + 1 := by omega
        rw [hcount, range'_succ, map_cons, map_cons, hviews, hbuild s window hs hwithin hok]
      · intro i hi hi'
        rcases Nat.eq_or_lt_of_le hi with rfl | hlt
        · rw [← hnext s hs]
          exact hwithin
        · exact hbound i hlt hi'
  | case3 s hpast =>
    rw [emitWindows, if_neg hpast] at h
    cases h
    refine ⟨hs, by omega, le_rfl, by simp, ?_⟩
    omega

/-- A window that the watermark has passed reads no bucket that is being built. -/
theorem PlannerInv.passed_window_eq (h : PlannerInv H policy past s)
    (hpassed : Passed policy (recordingOf past) s.windowOrdinal) (closure : WindowClosureReason) :
    s.source.window H policy s.windowOrdinal
        (windowStartNs policy s.windowOrdinal + policy.windowWidthNs) closure =
      (source H policy (recordingOf past)).window H policy s.windowOrdinal
        (windowStartNs policy s.windowOrdinal + policy.windowWidthNs) closure := by
  have hlateness := policy.allowedLateness_nonneg
  have hlasts := le_wholeWatermark_iff.mp hpassed
  apply window_eq_of_retained h.retained h.next
  · intro camera o ho hopen
    obtain ⟨last, hlast, hbound⟩ := hlasts camera
    rw [(h.traversed camera).openSegment, hlast, Option.map_some, Option.some.injEq] at hopen
    have hends := segment_ends_in_window (mem_segmentRange.mp ho).2
    have hinside := segmentOrdinalOf_eq_iff.mp hopen
    omega
  · intro camera b hb hopen
    obtain ⟨last, hlast, hbound⟩ := hlasts camera
    rw [(h.traversed camera).openBucket, hlast, Option.map_some, Option.some.injEq] at hopen
    have hends := quality_ends_in_window (mem_qualityRange.mp hb).2
    have hinside := qualityBucketOf_eq_iff.mp hopen
    omega

/-- Window `i` of the packets `past`, closed by the watermark. -/
noncomputable def watermarkedWindow (H : Hashing) (policy : BoundedMediaPolicy)
    (past : List EncodedMediaPacket) (i : Nat) : WindowView :=
  (source H policy (recordingOf past)).window H policy i
    (windowStartNs policy i + policy.windowWidthNs) .watermark

theorem emitWatermarkedWindows_spec {windows : List BoundedWindowPlan}
    (h : emitWatermarkedWindows H policy (watermarkNs policy s) s = (.ok windows, s'))
    (hs : PlannerInv H policy past s) :
    PlannerInv H policy past s' ∧ ¬ Passed policy (recordingOf past) s'.windowOrdinal ∧
      s.windowOrdinal ≤ s'.windowOrdinal ∧
      windows.map (·.view) =
        (range' s.windowOrdinal (s'.windowOrdinal - s.windowOrdinal)).map
          (watermarkedWindow H policy past) ∧
      ∀ i, s.windowOrdinal ≤ i → i < s'.windowOrdinal → Passed policy (recordingOf past) i := by
  rw [hs.watermark_eq] at h
  cases hwatermark : wholeWatermark policy (recordingOf past) with
  | none =>
    rw [hwatermark] at h
    obtain ⟨rfl, rfl⟩ := h
    refine ⟨hs, ?_, le_rfl, by simp, ?_⟩
    · rintro ⟨watermark, hsome, -⟩
      rw [hwatermark] at hsome
      cases hsome
    · omega
  | some watermark =>
    rw [hwatermark] at h
    have hwidth := policy.windowWidth_pos
    have hbuild : ∀ (s : Planner) window, PlannerInv H policy past s →
        s.nextWindowStartNs + policy.windowWidthNs ≤ watermark →
        buildWindow H policy s s.nextWindowStartNs (s.nextWindowStartNs + policy.windowWidthNs)
          (some watermark) .watermark none = .ok window →
        window.view = watermarkedWindow H policy past s.windowOrdinal := by
      intro s window hs hwithin hok
      rw [hs.next] at hok hwithin
      have hend : max (windowStartNs policy s.windowOrdinal + 1)
          (none.getD (windowStartNs policy s.windowOrdinal + policy.windowWidthNs)) =
            windowStartNs policy s.windowOrdinal + policy.windowWidthNs := by
        rw [Option.getD_none]
        omega
      rw [buildWindow_view hend hok]
      exact hs.passed_window_eq ⟨watermark, hwatermark, hwithin⟩ .watermark
    obtain ⟨hs', hlimit, hle, hviews, hbound⟩ :=
      emitWindows_spec (watermarkedWindow H policy past) (fun _ hs => hs.next)
        (fun _ hs => hs.advance) hbuild hs h
    refine ⟨hs', ?_, hle, hviews, ?_⟩
    · rintro ⟨passed, hsome, hpassed⟩
      rw [hwatermark] at hsome
      cases hsome
      rw [hs'.next] at hlimit
      omega
    · intro i hi hi'
      exact ⟨watermark, hwatermark, hbound i hi hi'⟩

end Emission

/-! ## A traversal -/

section Traversal

variable {past later : List EncodedMediaPacket} {packet : EncodedMediaPacket} {s s' : Planner}

theorem onCamera_eq_ok {α : Type} {x : Method CameraState MediaError α} {a : α} :
    onCamera camera x s = (.ok a, s') ↔ ∃ state, x (s.states camera) = (.ok a, state) ∧
      { s with states := update s.states camera state } = s' :=
  Method.within_eq_ok

theorem recordingOf_concat_self :
    recordingOf (past ++ [packet]) packet.cameraId = recordingOf past packet.cameraId ++ [packet] :=
  inBucket_concat_self rfl

theorem recordingOf_concat_ne (h : packet.cameraId ≠ camera) :
    recordingOf (past ++ [packet]) camera = recordingOf past camera :=
  inBucket_concat_ne h

theorem PlannerInv.take {state : CameraState} {mid : Planner} (hs : PlannerInv H policy past s)
    (ht : Traversed H policy packet.cameraId (recordingOf past packet.cameraId ++ [packet]) state)
    (hr : Retained H policy packet.cameraId (recordingOf past packet.cameraId ++ [packet])
      s.nextWindowStartNs state)
    (hstates : mid.states = update s.states packet.cameraId state)
    (hnext : mid.nextWindowStartNs = s.nextWindowStartNs)
    (hordinal : mid.windowOrdinal = s.windowOrdinal)
    (hlatest : mid.maxEventTimeNs = some (match s.maxEventTimeNs with
      | none => packet.alignedTimestampNs
      | some latest => max latest packet.alignedTimestampNs)) :
    PlannerInv H policy (past ++ [packet]) mid where
  traversed := by
    intro camera
    rw [hstates]
    by_cases hcamera : packet.cameraId = camera
    · subst hcamera
      rw [update_self, recordingOf_concat_self]
      exact ht
    · rw [update_of_ne (Ne.symm hcamera), recordingOf_concat_ne hcamera]
      exact hs.traversed camera
  retained := by
    intro camera
    rw [hstates, hnext]
    by_cases hcamera : packet.cameraId = camera
    · subst hcamera
      rw [update_self, recordingOf_concat_self]
      exact hr
    · rw [update_of_ne (Ne.symm hcamera), recordingOf_concat_ne hcamera]
      exact hs.retained camera
  next := by rw [hnext, hordinal, hs.next]
  latest := by
    intro q hq
    refine ⟨_, hlatest, ?_⟩
    rcases mem_append.mp hq with hpast | hself
    · obtain ⟨latest, hsome, hle⟩ := hs.latest q hpast
      rw [hsome]
      exact hle.trans (le_max_left _ _)
    · rw [mem_singleton.mp hself]
      cases s.maxEventTimeNs with
      | none => exact le_rfl
      | some latest => exact le_max_right _ _

theorem push_spec {emission : PlannerEmission} (hs : PlannerInv H policy past s)
    (h : push H policy packet s = (.ok emission, s')) :
    PlannerInv H policy (past ++ [packet]) s' ∧
      ¬ Passed policy (recordingOf (past ++ [packet])) s'.windowOrdinal ∧
      s.windowOrdinal ≤ s'.windowOrdinal ∧
      emission.windows.map (·.view) =
        (range' s.windowOrdinal (s'.windowOrdinal - s.windowOrdinal)).map
          (watermarkedWindow H policy (past ++ [packet])) ∧
      ∀ i, s.windowOrdinal ≤ i → i < s'.windowOrdinal →
        Passed policy (recordingOf (past ++ [packet])) i := by
  unfold push at h
  simp only [Method.bind_eq_ok, Method.raiseIf_eq_ok, assign_eq_ok, onCamera_eq_ok] at h
  obtain ⟨_, _, ⟨rfl, rfl⟩, _, _, ⟨-, rfl⟩, _, _, ⟨-, rfl⟩, _, _, ⟨-, rfl⟩, _, _, rfl,
    _, _, ⟨s₁, hvalidate, rfl⟩, _, _, ⟨s₂, hring, rfl⟩, _, _, ⟨s₃, hfacts, rfl⟩,
    _, _, ⟨s₄, hsegment, rfl⟩, _, _, ⟨s₅, hquality, rfl⟩, _, _, rfl, _, _, ⟨rfl, rfl⟩,
    windows, _, hwindows, rfl, rfl⟩ := h
  simp only [update_self, Function.update_idem] at hvalidate hring hfacts hsegment hquality hwindows
  subst hfacts
  obtain ⟨htraversed, hretained⟩ := camera_push (hs.traversed packet.cameraId)
    (hs.retained packet.cameraId) rfl hvalidate hring hsegment hquality
  have hemitted :=
    emitWatermarkedWindows_spec hwindows (hs.take htraversed hretained rfl rfl rfl rfl)
  exact hemitted

theorem Passed.append {i : Nat} (h : Passed policy (recordingOf past) i)
    (hordered : ∀ camera, Ordered (recordingOf (past ++ later) camera)) :
    Passed policy (recordingOf (past ++ later)) i := by
  apply le_wholeWatermark_iff.mpr
  intro camera
  obtain ⟨last, hlast, hbound⟩ := le_wholeWatermark_iff.mp h camera
  have hmem : last ∈ recordingOf (past ++ later) camera := by
    rw [recordingOf_append]
    exact mem_append_left _ (mem_of_getLast? hlast)
  have hsome := getLast?_eq_some_getLast (ne_nil_of_mem hmem)
  have hle := (hordered camera).le_last hsome hmem
  exact ⟨_, hsome, by omega⟩

theorem watermarkedWindow_append {i : Nat} (h : Passed policy (recordingOf past) i)
    (hordered : ∀ camera, Ordered (recordingOf (past ++ later) camera)) :
    watermarkedWindow H policy (past ++ later) i = watermarkedWindow H policy past i := by
  have hlateness := policy.allowedLateness_nonneg
  have hlasts := le_wholeWatermark_iff.mp h
  apply window_append
  · intro camera hnone
    obtain ⟨last, hlast, -⟩ := hlasts camera
    rw [hnone] at hlast
    cases hlast
  · intro packet hpacket
    obtain ⟨last, hlast, hbound⟩ := hlasts packet.cameraId
    have hcamera := hordered packet.cameraId
    rw [recordingOf_append] at hcamera
    have hlt := (pairwise_append.mp hcamera).2.2 last (mem_of_getLast? hlast) packet
      (mem_inBucket.mpr ⟨hpacket, rfl⟩)
    omega

theorem range'_append_between {a b c : Nat} (hab : a ≤ b) (hbc : b ≤ c) :
    range' a (b - a) ++ range' b (c - b) = range' a (c - a) := by
  have hcount : c - a = (b - a) + (c - b) := by omega
  have happend : range' a (b - a) ++ range' (a + (b - a)) (c - b) =
      range' a ((b - a) + (c - b)) := range'_append_1
  rw [Nat.add_sub_cancel' hab] at happend
  rw [hcount, happend]

/-- A traversal: its windows are those of the packets it has taken, as far as the
watermark has passed them. -/
theorem pushAll_spec {packets : List EncodedMediaPacket} {windows : List BoundedWindowPlan}
    (hs : PlannerInv H policy past s)
    (hopen : ¬ Passed policy (recordingOf past) s.windowOrdinal)
    (h : pushAll H policy packets s = (.ok windows, s')) :
    PlannerInv H policy (past ++ packets) s' ∧
      ¬ Passed policy (recordingOf (past ++ packets)) s'.windowOrdinal ∧
      s.windowOrdinal ≤ s'.windowOrdinal ∧
      windows.map (·.view) =
        (range' s.windowOrdinal (s'.windowOrdinal - s.windowOrdinal)).map
          (watermarkedWindow H policy (past ++ packets)) ∧
      ∀ i, s.windowOrdinal ≤ i → i < s'.windowOrdinal →
        Passed policy (recordingOf (past ++ packets)) i := by
  induction packets generalizing past s windows with
  | nil =>
    obtain ⟨rfl, rfl⟩ := h
    rw [append_nil]
    refine ⟨hs, hopen, le_rfl, by simp, ?_⟩
    omega
  | cons packet rest ih =>
    simp only [pushAll, Method.bind_eq_ok] at h
    obtain ⟨emission, s₁, hpush, others, s₂, hothers, rfl, rfl⟩ := h
    obtain ⟨hs₁, hopen₁, hle₁, hviews₁, hpassed₁⟩ := push_spec hs hpush
    obtain ⟨hs₂, hopen₂, hle₂, hviews₂, hpassed₂⟩ := ih hs₁ hopen₁ hothers
    rw [append_cons]
    have hordered := fun camera => (hs₂.traversed camera).ordered
    refine ⟨hs₂, hopen₂, by omega, ?_, ?_⟩
    · have hfirst : (range' s.windowOrdinal (s₁.windowOrdinal - s.windowOrdinal)).map
            (watermarkedWindow H policy (past ++ [packet])) =
          (range' s.windowOrdinal (s₁.windowOrdinal - s.windowOrdinal)).map
            (watermarkedWindow H policy (past ++ [packet] ++ rest)) := by
        apply map_congr_left
        intro i hi
        rw [mem_range'_1] at hi
        exact (watermarkedWindow_append (hpassed₁ i hi.1 (by omega)) hordered).symm
      rw [map_append, hviews₁, hviews₂, hfirst, ← map_append]
      rw [range'_append_between hle₁ hle₂]
    · intro i hi hi'
      rcases Nat.lt_or_ge i s₁.windowOrdinal with hlt | hge
      · exact (hpassed₁ i hi hlt).append hordered
      · exact hpassed₂ i hge hi'

end Traversal

/-! ## The end of the stream -/

section Finish

variable {past : List EncodedMediaPacket} {s s' : Planner}

theorem onCameras_ok {α : Type} {x : Method CameraState MediaError (List α)} {results : List α} :
    ∀ {cameras : List CameraId} {s : Planner}, cameras.Nodup →
      onCameras x cameras s = (.ok results, s') →
      s' = { s with states := s'.states } ∧
        (∀ camera ∈ cameras, ∃ a, x (s.states camera) = (.ok a, s'.states camera)) ∧
        ∀ camera ∉ cameras, s'.states camera = s.states camera := by
  intro cameras
  induction cameras generalizing results with
  | nil =>
    intro s _ h
    obtain ⟨-, rfl⟩ := h
    exact ⟨rfl, forall_mem_nil _, fun _ _ => rfl⟩
  | cons first rest ih =>
    intro s hnodup h
    simp only [onCameras, Method.bind_eq_ok, onCamera_eq_ok] at h
    obtain ⟨a, _, ⟨state, hfirst, rfl⟩, others, _, hothers, -, rfl⟩ := h
    obtain ⟨hnotMem, hrest⟩ := nodup_cons.mp hnodup
    obtain ⟨hframe, hran, hkept⟩ := ih hrest hothers
    refine ⟨hframe, ?_, ?_⟩
    · intro camera hmem
      rcases mem_cons.mp hmem with rfl | hlater
      · rw [hkept camera hnotMem]
        simp only [update_self]
        exact ⟨a, hfirst⟩
      · obtain ⟨b, hb⟩ := hran camera hlater
        have hne : camera ≠ first := by
          rintro rfl
          exact hnotMem hlater
        simp only [update_of_ne hne] at hb
        exact ⟨b, hb⟩
    · intro camera hmem
      rw [mem_cons, not_or] at hmem
      rw [hkept camera hmem.2]
      exact update_of_ne hmem.1 _ _

variable (H policy past s) in
/-- What is known of a planner whose cameras are all sealed. -/
structure Drained : Prop where
  retained : ∀ camera,
    Retained H policy camera (recordingOf past camera) s.nextWindowStartNs (s.states camera)
  next : s.nextWindowStartNs = windowStartNs policy s.windowOrdinal
  segment : ∀ camera, (s.states camera).currentSegment = none
  bucket : ∀ camera, (s.states camera).pendingBucket = none

theorem Drained.advance (h : Drained H policy past s) :
    Drained H policy past (s.advance policy) where
  retained := by
    intro camera
    have hhop := policy.windowHop_pos
    apply (h.retained camera).prune
    show s.nextWindowStartNs ≤ s.nextWindowStartNs + policy.windowHopNs
    omega
  next := by
    show s.nextWindowStartNs + policy.windowHopNs = windowStartNs policy (s.windowOrdinal + 1)
    rw [windowStartNs_succ, h.next]
  segment := h.segment
  bucket := h.bucket

/-- Window `i` of the packets `past`, closed by the end of the stream. -/
noncomputable def eosWindow (H : Hashing) (policy : BoundedMediaPolicy)
    (past : List EncodedMediaPacket) (finalEndNs : Int) (i : Nat) : WindowView :=
  (source H policy (recordingOf past)).window H policy i
    (min (windowStartNs policy i + policy.windowWidthNs) finalEndNs) .eos

theorem emitEosWindows_spec {finalEndNs : Int} {windows : List BoundedWindowPlan}
    (h : emitEosWindows H policy finalEndNs s = (.ok windows, s')) (hs : Drained H policy past s) :
    finalEndNs ≤ windowStartNs policy s'.windowOrdinal ∧ s.windowOrdinal ≤ s'.windowOrdinal ∧
      windows.map (·.view) =
        (range' s.windowOrdinal (s'.windowOrdinal - s.windowOrdinal)).map
          (eosWindow H policy past finalEndNs) ∧
      ∀ i, s.windowOrdinal ≤ i → i < s'.windowOrdinal → windowStartNs policy i < finalEndNs := by
  have hwidth := policy.windowWidth_pos
  have hbuild : ∀ (s : Planner) window, Drained H policy past s →
      s.nextWindowStartNs + 1 ≤ finalEndNs →
      buildWindow H policy s s.nextWindowStartNs (s.nextWindowStartNs + policy.windowWidthNs)
        none .eos (some (min (s.nextWindowStartNs + policy.windowWidthNs) finalEndNs)) =
          .ok window →
      window.view = eosWindow H policy past finalEndNs s.windowOrdinal := by
    intro s window hs hwithin hok
    rw [hs.next] at hok hwithin
    have hend : max (windowStartNs policy s.windowOrdinal + 1)
        ((some (min (windowStartNs policy s.windowOrdinal + policy.windowWidthNs) finalEndNs)).getD
          (windowStartNs policy s.windowOrdinal + policy.windowWidthNs)) =
        min (windowStartNs policy s.windowOrdinal + policy.windowWidthNs) finalEndNs := by
      rw [Option.getD_some]
      omega
    rw [buildWindow_view hend hok]
    apply window_eq_of_retained hs.retained hs.next
    · intro camera o _
      rw [hs.segment camera]
      simp
    · intro camera b _
      rw [hs.bucket camera]
      simp
  obtain ⟨hs', hlimit, hle, hviews, hbound⟩ :=
    emitWindows_spec (eosWindow H policy past finalEndNs) (fun _ hs => hs.next)
      (fun _ hs => hs.advance) hbuild hs h
  rw [hs'.next] at hlimit
  exact ⟨by omega, hle, hviews, hbound⟩

end Finish

/-! ## The whole run -/

section Run

variable {packets : List EncodedMediaPacket} {finalEndNs : Int} {windows : List BoundedWindowPlan}
  {s s' : Planner} {fin : PlannerFinish}

theorem windowStartNs_mono (policy : BoundedMediaPolicy) {i j : Nat} (h : i ≤ j) :
    windowStartNs policy i ≤ windowStartNs policy j := by
  unfold windowStartNs
  have hmul := mul_le_mul_of_nonneg_right (Int.ofNat_le.mpr h) policy.windowHop_pos.le
  linarith

theorem finish_ok (hs : PlannerInv H policy packets s)
    (h : finish H policy finalEndNs s = (.ok fin, s')) :
    (∀ packet ∈ packets, packet.alignedTimestampNs < finalEndNs) ∧
      ∃ mid, Drained H policy packets mid ∧ mid.windowOrdinal = s.windowOrdinal ∧
        emitEosWindows H policy finalEndNs mid = (.ok fin.windows, s') := by
  unfold finish at h
  simp only [Method.bind_eq_ok, Method.raiseIf_eq_ok, assign_eq_ok] at h
  obtain ⟨_, _, ⟨rfl, rfl⟩, _, _, ⟨-, rfl⟩, _, _, ⟨-, rfl⟩, _, _, ⟨hlatest, rfl⟩, _, _, rfl,
    closed, s₁, hseal, targets, s₂, hfinalize, ended, _, hended, _, _, ⟨rfl, rfl⟩, rfl, rfl⟩ := h
  have hnodup : CameraId.all.Nodup := by decide
  obtain ⟨hframe₁, hsealed, -⟩ := onCameras_ok hnodup hseal
  obtain ⟨hframe₂, hfinalized, -⟩ := onCameras_ok hnodup hfinalize
  have hnext : s₂.nextWindowStartNs = s.nextWindowStartNs := by
    rw [hframe₂]
    rw [hframe₁]
  have hordinal : s₂.windowOrdinal = s.windowOrdinal := by
    rw [hframe₂]
    rw [hframe₁]
  have hcameras : ∀ camera, Retained H policy camera (recordingOf packets camera)
      s.nextWindowStartNs (s₂.states camera) ∧ (s₂.states camera).currentSegment = none ∧
        (s₂.states camera).pendingBucket = none := by
    intro camera
    obtain ⟨_, hsealedCamera⟩ := hsealed camera camera.mem_all
    obtain ⟨_, hfinalizedCamera⟩ := hfinalized camera camera.mem_all
    exact camera_finish (hs.traversed camera) (hs.retained camera) hsealedCamera hfinalizedCamera
  constructor
  · intro packet hpacket
    obtain ⟨latest, hsome, hle⟩ := hs.latest packet hpacket
    rw [hsome] at hlatest
    simp only [Option.any_some, decide_eq_false_iff_not] at hlatest
    omega
  · refine ⟨s₂, ?_, hordinal, hended⟩
    exact
      { retained := by
          rw [hnext]
          exact fun camera => (hcameras camera).1
        next := by rw [hnext, hordinal, hs.next]
        segment := fun camera => (hcameras camera).2.1
        bucket := fun camera => (hcameras camera).2.2 }

/-- The windows of a whole run are those of the recording, and the cameras of the
recording are ordered. -/
theorem run_windows (hpush : pushAll H policy packets (Planner.start policy) = (.ok windows, s))
    (hfinish : finish H policy finalEndNs s = (.ok fin, s')) :
    (∀ camera, Ordered (recordingOf packets camera)) ∧
      (∀ i, windowStartNs policy i < finalEndNs ↔ i < s'.windowOrdinal) ∧
      (windows ++ fin.windows).map (·.view) =
        (List.range s'.windowOrdinal).map
          (wholeWindow H policy (recordingOf packets) finalEndNs) := by
  have hwidth := policy.windowWidth_pos
  have hlateness := policy.allowedLateness_nonneg
  have hopen : ¬ Passed policy (recordingOf []) (Planner.start policy).windowOrdinal := by
    intro hpassed
    obtain ⟨last, hlast, -⟩ := le_wholeWatermark_iff.mp hpassed .cam01
    cases hlast
  obtain ⟨hs, hnotPassed, -, hviews, hpassed⟩ := pushAll_spec PlannerInv.start hopen hpush
  rw [nil_append] at hs hnotPassed hviews hpassed
  obtain ⟨hfinal, mid, hdrained, hordinal, heos⟩ := finish_ok hs hfinish
  obtain ⟨hlimit, hle, heosViews, hbound⟩ := emitEosWindows_spec heos hdrained
  rw [hordinal] at hle heosViews hbound
  have hstart : (Planner.start policy).windowOrdinal = 0 := rfl
  rw [hstart] at hviews hpassed
  have hends : ∀ i < s.windowOrdinal,
      windowStartNs policy i + policy.windowWidthNs < finalEndNs := by
    intro i hi
    obtain ⟨last, hlast, hreached⟩ := le_wholeWatermark_iff.mp (hpassed i (Nat.zero_le i) hi) .cam01
    have hlt := hfinal last (mem_inBucket.mp (mem_of_getLast? hlast)).1
    omega
  refine ⟨fun camera => (hs.traversed camera).ordered, ?_, ?_⟩
  · intro i
    constructor
    · intro hi
      by_contra hge
      have hmono := windowStartNs_mono policy (Nat.le_of_not_lt hge)
      omega
    · intro hi
      rcases Nat.lt_or_ge i s.windowOrdinal with hlt | hge
      · have hend := hends i hlt
        omega
      · exact hbound i hge hi
  · have hfirst : (range' 0 (s.windowOrdinal - 0)).map (watermarkedWindow H policy packets) =
        (range' 0 (s.windowOrdinal - 0)).map
          (wholeWindow H policy (recordingOf packets) finalEndNs) := by
      apply map_congr_left
      intro i hi
      rw [mem_range'_1] at hi
      have hlt : i < s.windowOrdinal := by omega
      unfold watermarkedWindow wholeWindow
      rw [wholeClosure_of_passed (hpassed i (Nat.zero_le i) hlt), min_eq_left (hends i hlt).le]
    have hlast : (range' s.windowOrdinal (s'.windowOrdinal - s.windowOrdinal)).map
          (eosWindow H policy packets finalEndNs) =
        (range' s.windowOrdinal (s'.windowOrdinal - s.windowOrdinal)).map
          (wholeWindow H policy (recordingOf packets) finalEndNs) := by
      apply map_congr_left
      intro i hi
      rw [mem_range'_1] at hi
      have hnot : ¬ Passed policy (recordingOf packets) i := by
        rintro ⟨watermark, hwatermark, hreached⟩
        have hmono := windowStartNs_mono policy hi.1
        exact hnotPassed ⟨watermark, hwatermark, by omega⟩
      unfold eosWindow wholeWindow
      rw [wholeClosure_of_not_passed hnot]
    rw [map_append, hviews, heosViews, hfirst, hlast, ← map_append,
      range'_append_between (Nat.zero_le _) hle, range_eq_range', Nat.sub_zero]

/-- The single-pass planner plans the whole recording: the windows of a run that
is accepted to its end are the windows of the recording, one for each start below
the final end, and two runs over interleavings of the same cameras differ in the
traversal indexes of their packets only. -/
theorem single_pass_plans_recording
    (hpush : pushAll H policy packets (Planner.start policy) = (.ok windows, s))
    (hfinish : finish H policy finalEndNs s = (.ok fin, s')) :
    (∃ n, (∀ i, windowStartNs policy i < finalEndNs ↔ i < n) ∧
      (windows ++ fin.windows).map (·.view) =
        (List.range n).map (wholeWindow H policy (recordingOf packets) finalEndNs)) ∧
    ∀ (packets' : List EncodedMediaPacket) (windows' : List BoundedWindowPlan) (t t' : Planner)
      (fin' : PlannerFinish),
      pushAll H policy packets' (Planner.start policy) = (.ok windows', t) →
      finish H policy finalEndNs t = (.ok fin', t') →
      forget (recordingOf packets') = forget (recordingOf packets) →
      (windows' ++ fin'.windows).map (·.view.forget) =
        (windows ++ fin.windows).map (·.view.forget) := by
  obtain ⟨hordered, hbelow, hviews⟩ := run_windows hpush hfinish
  refine ⟨⟨_, hbelow, hviews⟩, ?_⟩
  intro packets' windows' t t' fin' hpush' hfinish' hsame
  obtain ⟨hordered', hbelow', hviews'⟩ := run_windows hpush' hfinish'
  have hcount : t'.windowOrdinal = s'.windowOrdinal := by
    have hforth := (hbelow' t'.windowOrdinal).not.mpr (lt_irrefl _)
    have hback := (hbelow s'.windowOrdinal).not.mpr (lt_irrefl _)
    rw [hbelow] at hforth
    rw [hbelow'] at hback
    omega
  have herase : ∀ {plans : List BoundedWindowPlan} {recording : Recording} {n : Nat},
      (∀ camera, Ordered (recording camera)) →
      plans.map (·.view) = (List.range n).map (wholeWindow H policy recording finalEndNs) →
      plans.map (·.view.forget) =
        (List.range n).map (wholeWindow H policy recording.forget finalEndNs) := by
    intro plans recording n hordered hplans
    have hcomp : plans.map (·.view.forget) = (plans.map (·.view)).map fun view => view.forget := by
      rw [map_map]
      rfl
    rw [hcomp, hplans, map_map]
    apply map_congr_left
    intro i _
    exact (wholeWindow_forget hordered finalEndNs i).symm
  rw [herase hordered hviews, herase hordered' hviews', hsame, hcount]

/-- A digest that shows what it was taken of. -/
def shownHashing : Hashing where
  sha256 := fun bytes => String.intercalate "," (bytes.map fun byte => toString byte.toNat)
  semanticSha256 := (·.cameraId.value)

/-- Windows of four nanoseconds every two, with segments and quality buckets of two. -/
def shortWindows : BoundedMediaPolicy where
  sourceScopeDigest := "e3b0c44298fc1c149afbf4c8996fb92427ae41e4649b934ca495991b7852b855"
  mappingSemanticSha256 := "4bf5122f344554c53bde2ebb8cd2b7e3d1600ad631c385a5d7cce23c7785459a"
  alignmentSemanticSha256 := "dbc1b4c900ffe48d575b5da5c638040125f65db0fe3e24494b76ea986457d986"
  sourceOriginNs := 0
  segmentDurationNs := 2
  windowWidthNs := 4
  windowHopNs := 2
  allowedLatenessNs := 0
  ringDurationNs := 100
  ringMaxBytesPerCamera := 100
  qualityPeriodNs := 2
  qualityTargetPhaseNs := 1
  qualitySelectionToleranceNs := 1
  windowPurpose := .qaCoarse
  segmentationPolicyVersion := "segment-v1"
  windowPolicyVersion := "window-v1"
  qualityPolicyVersion := "quality-v1"
  digests := by decide +kernel
  segmentDuration_pos := by decide
  windowWidth_pos := by decide
  windowHop_pos := by decide
  ringDuration_pos := by decide
  ringMaxBytes_pos := by decide
  qualityPeriod_pos := by decide
  sourceOrigin_nonneg := by decide
  allowedLateness_nonneg := by decide
  qualityTargetPhase_nonneg := by decide
  qualitySelectionTolerance_nonneg := by decide
  hop_le_width := by decide
  width_segments := by decide
  hop_segments := by decide
  width_qualities := by decide
  hop_qualities := by decide
  phase_lt_period := by decide
  versions := by decide

/-- The packet of a camera at `4 * sourceOrder + 1`. -/
def packetAt (traversalIndex : Nat) (cameraId : CameraId) (sourceOrder : Nat) :
    EncodedMediaPacket where
  traversalIndex := traversalIndex
  cameraId := cameraId
  sourceOrder := sourceOrder
  sourceSequence := sourceOrder
  sourceTimestampNs := 4 * sourceOrder + 1
  alignedTimestampNs := 4 * sourceOrder + 1
  sourceLocator := "spool"
  payload := [1]
  isKeyframe := true
  locator_nonempty := by decide
  payload_nonempty := by decide

/-- Two packets of every camera, one camera after the other. -/
def cameraByCamera : List EncodedMediaPacket :=
  CameraId.all.zipIdx.flatMap fun entry =>
    [packetAt (2 * entry.2) entry.1 0, packetAt (2 * entry.2 + 1) entry.1 1]

/-- The same packets, in the order of their timestamps. -/
def timeByTime : List EncodedMediaPacket :=
  (CameraId.all.zipIdx.map fun entry => packetAt entry.2 entry.1 0) ++
    CameraId.all.zipIdx.map fun entry => packetAt (6 + entry.2) entry.1 1

theorem single_pass_plans_recording_of_two_orders :
    ∃ windows s fin s' windows' t fin' t',
      pushAll shownHashing shortWindows cameraByCamera (Planner.start shortWindows) =
        (.ok windows, s) ∧
      finish shownHashing shortWindows 7 s = (.ok fin, s') ∧
      pushAll shownHashing shortWindows timeByTime (Planner.start shortWindows) =
        (.ok windows', t) ∧
      finish shownHashing shortWindows 7 t = (.ok fin', t') ∧
      (windows ++ fin.windows).map (·.view) = (List.range 4).map
        (wholeWindow shownHashing shortWindows (recordingOf cameraByCamera) 7) ∧
      (windows' ++ fin'.windows).map (·.view.forget) =
        (windows ++ fin.windows).map (·.view.forget) := by
  obtain ⟨windows, hpush⟩ := exists_of_isOk
    (x := pushAll shownHashing shortWindows cameraByCamera) (s := Planner.start shortWindows)
    (by decide +kernel)
  obtain ⟨fin, hfinish⟩ := exists_of_isOk (x := finish shownHashing shortWindows 7)
    (s := (pushAll shownHashing shortWindows cameraByCamera (Planner.start shortWindows)).2)
    (by decide +kernel)
  obtain ⟨windows', hpush'⟩ := exists_of_isOk
    (x := pushAll shownHashing shortWindows timeByTime) (s := Planner.start shortWindows)
    (by decide +kernel)
  obtain ⟨fin', hfinish'⟩ := exists_of_isOk (x := finish shownHashing shortWindows 7)
    (s := (pushAll shownHashing shortWindows timeByTime (Planner.start shortWindows)).2)
    (by decide +kernel)
  obtain ⟨⟨n, hbelow, hviews⟩, hinterleaved⟩ := single_pass_plans_recording hpush hfinish
  have hn : n = 4 := by
    have hin : 3 < n := (hbelow 3).mp (by decide)
    have hout : ¬ 4 < n := (hbelow 4).not.mp (by decide)
    omega
  rw [hn] at hviews
  refine ⟨windows, _, fin, _, windows', _, fin', _, hpush, hfinish, hpush', hfinish', hviews, ?_⟩
  apply hinterleaved _ _ _ _ _ hpush' hfinish'
  funext camera
  cases camera <;> rfl

end Run

end Robata.Media
