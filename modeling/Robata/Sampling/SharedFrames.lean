import Robata.Sampling.NearestFrames

/-!
# One target for a frame

The second phase of `select_nearest_frames`: of the results that are assigned to one locator the
least is kept.  The groups share no index, so that the order in which they are visited does not
matter, and the results are those of the first phase with the losers marked.
-/

namespace Robata.Sampling

open Contracts Lib List

def TargetSelection.deduplicated (selection : TargetSelection) : TargetSelection :=
  { selection with status := .deduplicatedFrame }

/-- The results before frames are shared out among targets. -/
structure Provisional (base : List TargetSelection) : Prop where
  increasing : base.Pairwise fun a b => a.target.k < b.target.k
  fresh : ∀ selection ∈ base, selection.status ≠ .deduplicatedFrame
  remakes : ∀ selection ∈ base, selection.status = .selected →
    TargetSelection.make selection.target .deduplicatedFrame selection.frame
      selection.deltaToTargetNs = .ok selection.deduplicated

/-- Another target has the same frame and a smaller key. -/
def Loses (results : List TargetSelection) (selection : TargetSelection) : Prop :=
  ∃ other ∈ results, other.assignedLocator = selection.assignedLocator ∧
    selection.assignedLocator ≠ none ∧ winnerKey other < winnerKey selection

instance (results : List TargetSelection) : DecidablePred (Loses results) := fun _ =>
  inferInstanceAs (Decidable (∃ other ∈ results, _))

/-- What becomes of a result. -/
def settled (results : List TargetSelection) (selection : TargetSelection) : TargetSelection :=
  if Loses results selection then selection.deduplicated else selection

section Deduplicate

variable {base : List TargetSelection} {selection : TargetSelection} {done : List Nat} {i : Nat}

/-- The results while some indices have been deduplicated. -/
def marked (base : List TargetSelection) (done : List Nat) : List TargetSelection :=
  base.mapIdx fun i selection => if i ∈ done then selection.deduplicated else selection

theorem getElem?_marked : (marked base done)[i]? =
    base[i]?.map fun selection => if i ∈ done then selection.deduplicated else selection :=
  getElem?_mapIdx

theorem set_marked (h : base[i]? = some selection) :
    (marked base done).set i selection.deduplicated = marked base (i :: done) := by
  refine ext_getElem? fun j => ?_
  rw [getElem?_set, getElem?_marked, getElem?_marked]
  by_cases hij : i = j
  · subst hij
    have hlt : i < (marked base done).length := by
      unfold marked
      rw [length_mapIdx]
      exact (List.getElem?_eq_some_iff.mp h).1
    rw [if_pos rfl, if_pos hlt, h, Option.map_some, if_pos mem_cons_self]
  · rw [if_neg hij]
    simp only [mem_cons, Ne.symm hij, false_or]

/-- A step adds the indices with a property to those that have been deduplicated. -/
def Marks (base : List TargetSelection)
    (step : List TargetSelection → Except GridError (List TargetSelection)) (P : Nat → Prop) :
    Prop :=
  ∀ done, ∃ done', step (marked base done) = .ok (marked base done') ∧
    ∀ i, i ∈ done' ↔ i ∈ done ∨ P i

theorem Marks.idle {P : Nat → Prop} (h : ∀ i, ¬ P i) : Marks base .ok P := fun done =>
  ⟨done, rfl, fun i => (or_iff_left (h i)).symm⟩

theorem Marks.foldlM {α : Type} {step : List TargetSelection → α → Except GridError _}
    {P : α → Nat → Prop} {items : List α} (h : ∀ a ∈ items, Marks base (step · a) (P a)) :
    Marks base (items.foldlM step ·) fun i => ∃ a ∈ items, P a i := by
  induction items with
  | nil => exact .idle fun i ⟨a, ha, _⟩ => not_mem_nil ha
  | cons a items ih =>
    intro done
    obtain ⟨hfirst, hrest⟩ := forall_mem_cons.mp h
    obtain ⟨mid, hmid, hmem⟩ := hfirst done
    obtain ⟨done', hdone, hmem'⟩ := ih hrest mid
    refine ⟨done', ?_, fun i => ?_⟩
    · show (a :: items).foldlM step (marked base done) = _
      have hfirst : step (marked base done) a = .ok (marked base mid) := hmid
      rw [foldlM_cons, hfirst]
      exact hdone
    · rw [hmem', hmem, or_assoc]
      exact or_congr_right (exists_mem_cons_iff (P · i) a items).symm

variable {a b : Assignment} {group : List Assignment} {winner : Nat}

theorem mem_assignments : a ∈ assignments base ↔ base[a.index]? = some a.selection ∧
    a.selection.status = .selected ∧
      a.selection.frame.map (·.sourceLocatorBytes) = some a.locator := by
  unfold assignments
  rw [mem_filterMap]
  constructor
  · rintro ⟨⟨selection, index⟩, hmem, hsome⟩
    dsimp only at hsome
    split at hsome
    · rename_i hstatus
      obtain ⟨frame, hframe, rfl⟩ := Option.map_eq_some_iff.mp hsome
      exact ⟨mk_mem_zipIdx_iff_getElem?.mp hmem, hstatus, by rw [hframe]; rfl⟩
    · cases hsome
  · rintro ⟨hget, hstatus, hlocator⟩
    refine ⟨(a.selection, a.index), mk_mem_zipIdx_iff_getElem?.mpr hget, ?_⟩
    obtain ⟨frame, hframe, hlocator⟩ := Option.map_eq_some_iff.mp hlocator
    dsimp only
    rw [if_pos hstatus, hframe, Option.map_some, hlocator]

theorem eq_of_index (ha : a ∈ assignments base) (hb : b ∈ assignments base)
    (h : a.index = b.index) : a = b := by
  obtain ⟨hget, -, hlocator⟩ := mem_assignments.mp ha
  obtain ⟨hget', -, hlocator'⟩ := mem_assignments.mp hb
  rw [h] at hget
  have hselection := Option.some.inj (hget.symm.trans hget')
  rw [hselection] at hlocator
  have hsame := Option.some.inj (hlocator.symm.trans hlocator')
  cases a
  cases b
  cases hselection
  cases hsame
  cases h
  rfl

theorem Provisional.nodup (h : Provisional base) :
    (base.map fun selection => selection.target.k).Nodup :=
  pairwise_map.mpr (h.increasing.imp fun hlt => hlt.ne)

theorem k_eq_of_winnerKey {s other : TargetSelection} (h : winnerKey s = winnerKey other) :
    s.target.k = other.target.k :=
  congrArg (fun key => (ofLex (ofLex key).2).2) h

theorem Provisional.index_eq (h : Provisional base) (ha : a ∈ assignments base)
    (hb : b ∈ assignments base) (hkey : winnerKey a.selection = winnerKey b.selection) :
    a.index = b.index := by
  have hget := (mem_assignments.mp ha).1
  have hget' := (mem_assignments.mp hb).1
  have hlt : a.index < (base.map fun selection => selection.target.k).length := by
    rw [length_map]
    exact (List.getElem?_eq_some_iff.mp hget).1
  refine (List.getElem?_inj hlt h.nodup).mp ?_
  rw [getElem?_map, getElem?_map, hget, hget', Option.map_some, Option.map_some,
    k_eq_of_winnerKey hkey]

/-- In a group an assignment has a smaller key than the one at an index. -/
def Beaten (group : List Assignment) (i : Nat) : Prop :=
  ∃ a ∈ group, a.index = i ∧ ∃ b ∈ group, winnerKey b.selection < winnerKey a.selection

theorem Provisional.deduplicate (h : Provisional base) (ha : a ∈ assignments base) :
    Marks base (deduplicate winner · a) fun i => a.index = i ∧ i ≠ winner := by
  unfold Sampling.deduplicate
  by_cases hwinner : a.index = winner
  · simp only [if_pos hwinner]
    exact .idle fun i ⟨hi, hne⟩ => hne (hi.symm.trans hwinner)
  · intro done
    obtain ⟨hget, hstatus, -⟩ := mem_assignments.mp ha
    refine ⟨a.index :: done, ?_, fun i => ?_⟩
    · dsimp only
      rw [if_neg hwinner, h.remakes _ (mem_of_getElem? hget) hstatus, ok_bind, set_marked hget]
      rfl
    · rw [mem_cons, or_comm]
      refine or_congr_right ⟨fun hi => ⟨hi.symm, hi ▸ hwinner⟩, fun hi => hi.1.symm⟩

/-- All but the least assignment of a group are deduplicated. -/
theorem Provisional.deduplicateLocator (h : Provisional base)
    (hgroup : ∀ a ∈ group, a ∈ assignments base) :
    Marks base (deduplicateLocator · group) (Beaten group) := by
  unfold Sampling.deduplicateLocator
  by_cases hlength : group.length < 2
  · simp only [if_pos hlength]
    refine .idle fun i ⟨a, ha, _, b, hb, hlt⟩ => ?_
    obtain ⟨x, hx⟩ := length_eq_one_iff.mp
      ((Nat.le_of_lt_succ hlength).antisymm (length_pos_of_mem ha))
    rw [hx, mem_singleton] at ha hb
    exact lt_irrefl _ (ha.trans hb.symm ▸ hlt)
  · simp only [if_neg hlength]
    have hleast : LeastBy (fun a : Assignment => winnerKey a.selection) group _ := leastBy_leastItem
    cases hwinner : leastItem (fun a : Assignment => winnerKey a.selection) group with
    | none =>
      rw [hwinner] at hleast
      exact .idle fun i ⟨a, ha, _⟩ => not_mem_nil (hleast ▸ ha)
    | some winner =>
      rw [hwinner] at hleast
      obtain ⟨hmem, hleast⟩ := hleast
      intro done
      have hsteps : ∀ a ∈ group, Marks base (Sampling.deduplicate winner.index · a) _ := fun a ha =>
        h.deduplicate (hgroup a ha)
      obtain ⟨done', hdone, hmarks⟩ := Marks.foldlM hsteps done
      refine ⟨done', hdone, fun i => (hmarks i).trans (or_congr_right ?_)⟩
      refine exists_congr fun a => and_congr_right fun ha => and_congr_right fun hi => ?_
      subst hi
      constructor
      · intro hne
        refine ⟨winner, hmem, lt_of_le_of_ne (hleast a ha) fun hkey => hne ?_⟩
        exact (h.index_eq (hgroup _ hmem) (hgroup a ha) hkey).symm
      · rintro ⟨b, hb, hlt⟩ hindex
        rw [eq_of_index (hgroup a ha) (hgroup _ hmem) hindex] at hlt
        exact not_lt_of_ge (hleast b hb) hlt

theorem assignedLocator_of_mem (ha : a ∈ assignments base) :
    a.selection.assignedLocator = some a.locator := by
  obtain ⟨-, hstatus, hlocator⟩ := mem_assignments.mp ha
  unfold TargetSelection.assignedLocator
  rw [hstatus]
  exact hlocator

theorem Provisional.selected (h : Provisional base) (hs : selection ∈ base)
    (hassigned : selection.assignedLocator ≠ none) : selection.status = .selected := by
  have hfresh := h.fresh selection hs
  unfold TargetSelection.assignedLocator at hassigned
  cases hstatus : selection.status with
  | selected => rfl
  | deduplicatedFrame => exact absurd hstatus hfresh
  | decodeFailed => simp [hstatus] at hassigned
  | noFrameWithinTolerance => simp [hstatus] at hassigned

theorem Provisional.mem_assignments (h : Provisional base) {locator : List (Fin 256)}
    (hget : base[i]? = some selection) (hassigned : selection.assignedLocator = some locator) :
    ⟨locator, selection, i⟩ ∈ assignments base := by
  have hstatus := h.selected (mem_of_getElem? hget) (hassigned ▸ Option.some_ne_none _)
  unfold TargetSelection.assignedLocator at hassigned
  rw [hstatus] at hassigned
  exact Sampling.mem_assignments.mpr ⟨hget, hstatus, hassigned⟩

theorem Provisional.beaten_iff (h : Provisional base) (hget : base[i]? = some selection) :
    (∃ entry ∈ (grouped Assignment.locator (assignments base)).rows, Beaten entry.2 i) ↔
      Loses base selection := by
  constructor
  · rintro ⟨entry, hentry, a, ha, rfl, b, hb, hlt⟩
    rw [(mem_rows_grouped.mp hentry).1] at ha hb
    obtain ⟨ha, hlocator⟩ := mem_inBucket.mp ha
    obtain ⟨hb, hlocator'⟩ := mem_inBucket.mp hb
    obtain rfl := Option.some.inj (hget.symm.trans (Sampling.mem_assignments.mp ha).1)
    have hassigned := assignedLocator_of_mem ha
    refine ⟨b.selection, mem_of_getElem? (Sampling.mem_assignments.mp hb).1, ?_, ?_, hlt⟩
    · rw [hassigned, assignedLocator_of_mem hb, hlocator, hlocator']
    · rw [hassigned]
      exact Option.some_ne_none _
  · rintro ⟨other, hother, hsame, hassigned, hlt⟩
    obtain ⟨locator, hlocator⟩ := Option.ne_none_iff_exists'.mp hassigned
    obtain ⟨j, hget'⟩ := mem_iff_getElem?.mp hother
    have ha := h.mem_assignments hget hlocator
    have hb := h.mem_assignments hget' (hsame.trans hlocator)
    obtain ⟨entry, hentry, hkey, ha⟩ := exists_group Assignment.locator ha
    refine ⟨entry, hentry, _, ha, rfl, ⟨locator, other, j⟩, ?_, hlt⟩
    rw [(mem_rows_grouped.mp hentry).1]
    exact mem_inBucket.mpr ⟨hb, hkey.symm⟩

theorem Provisional.deduplicateFrames (h : Provisional base) :
    deduplicateFrames base = .ok (base.map (settled base)) := by
  have hmarks : Marks base (fun results =>
      (grouped Assignment.locator (assignments base)).rows.foldlM
        (fun results entry => Sampling.deduplicateLocator results entry.2) results) _ :=
    Marks.foldlM fun entry hentry => h.deduplicateLocator fun a ha => by
      rw [(mem_rows_grouped.mp hentry).1] at ha
      exact (mem_inBucket.mp ha).1
  obtain ⟨done, hdone, hmem⟩ := hmarks []
  have hnone : marked base [] = base := by
    refine ext_getElem? fun i => ?_
    rw [getElem?_marked]
    simp
  rw [hnone] at hdone
  refine hdone.trans (congrArg Except.ok (ext_getElem? fun i => ?_))
  rw [getElem?_marked, getElem?_map]
  refine Option.map_congr fun selection hget => ?_
  have hlost := (hmem i).trans ((or_iff_right not_mem_nil).trans (h.beaten_iff hget))
  unfold settled
  simp only [hlost]

end Deduplicate

/-! ## The results -/

section Results

variable {base : List TargetSelection} {selection : TargetSelection}
  {frames : List FrameCandidate} {tolerance : Int}

@[simp] theorem settled_target : (settled base selection).target = selection.target := by
  unfold settled
  split <;> rfl

@[simp] theorem winnerKey_settled : winnerKey (settled base selection) = winnerKey selection := by
  unfold settled
  split <;> rfl

theorem Loses.selected (h : Provisional base) (hs : selection ∈ base)
    (hloses : Loses base selection) : selection.status = .selected := by
  obtain ⟨_, _, _, hassigned, _⟩ := hloses
  exact h.selected hs hassigned

theorem Provisional.assignedLocator_settled (h : Provisional base) (hs : selection ∈ base) :
    (settled base selection).assignedLocator = selection.assignedLocator := by
  unfold settled
  split
  · rename_i hloses
    unfold TargetSelection.assignedLocator
    rw [hloses.selected h hs]
    rfl
  · rfl

theorem settled_selected_iff (hassigned : selection.status = .selected) :
    (settled base selection).status = .selected ↔ ¬ Loses base selection := by
  unfold settled
  split
  · rename_i hloses
    exact iff_of_false nofun (not_not.mpr hloses)
  · rename_i hkeeps
    exact iff_of_true hassigned hkeeps

theorem NearestFrame.deduplicated (h : NearestFrame frames tolerance selection)
    (hstatus : selection.status = .selected) :
    NearestFrame frames tolerance selection.deduplicated where
  missed := iff_of_false nofun fun hfar => by
    cases hstatus.symm.trans (h.missed.mpr hfar)
  failed := iff_of_false nofun fun hfailed => by
    cases hstatus.symm.trans (h.failed.mpr hfailed)
  nearest := fun _ => h.nearest (.inl hstatus)

theorem NearestFrame.settled (h : NearestFrame frames tolerance selection)
    (hbase : Provisional base) (hs : selection ∈ base) :
    NearestFrame frames tolerance (settled base selection) := by
  unfold Sampling.settled
  split
  · rename_i hloses
    exact h.deduplicated (hloses.selected hbase hs)
  · exact h

/-- A result that has a frame is selected when its key is the least for the locator. -/
theorem Provisional.settled_iff (h : Provisional base) (hs : selection ∈ base)
    {locator : List (Fin 256)} (hassigned : selection.assignedLocator = some locator) :
    (settled base selection).status = .selected ↔
      ∀ other ∈ base.map (settled base), other.assignedLocator = some locator →
        winnerKey selection ≤ winnerKey other := by
  rw [settled_selected_iff (h.selected hs (hassigned ▸ Option.some_ne_none _)), forall_mem_map]
  constructor
  · intro hkeeps other hother hsame
    rw [h.assignedLocator_settled hother] at hsame
    rw [winnerKey_settled]
    by_contra hnot
    exact hkeeps ⟨other, hother, hsame.trans hassigned.symm, hassigned ▸ Option.some_ne_none _,
      not_le.mp hnot⟩
  · rintro hleast ⟨other, hother, hsame, -, hlt⟩
    have hle := hleast other hother
      ((h.assignedLocator_settled hother).trans (hsame.trans hassigned))
    rw [winnerKey_settled] at hle
    exact not_lt_of_ge hle hlt

theorem NearestFrame.remakes (h : NearestFrame frames tolerance selection)
    (htolerance : tolerance ≤ int64Max) (hstatus : selection.status = .selected) :
    TargetSelection.make selection.target .deduplicatedFrame selection.frame
      selection.deltaToTargetNs = .ok selection.deduplicated := by
  obtain ⟨frame, -, hframe, hdelta, hnear, -, -⟩ := h.nearest (.inl hstatus)
  have hmake := @make_framed tolerance selection.target .deduplicatedFrame frame nofun htolerance
    hnear
  rw [hframe, hdelta, hmake]
  unfold TargetSelection.deduplicated
  rw [hframe, hdelta]

theorem NearestFrame.assigned (h : NearestFrame frames tolerance selection)
    (hstatus : selection.status = .selected) : selection.assignedLocator ≠ none := by
  obtain ⟨frame, -, hframe, -⟩ := h.nearest (.inl hstatus)
  unfold TargetSelection.assignedLocator
  rw [hstatus, hframe]
  exact Option.some_ne_none _

variable {targets normalized : List SamplingTarget}

theorem provisional_spec (frames : List FrameCandidate)
    (hnormalized : Normalized targets normalized) (htolerance : tolerance ≤ int64Max) :
    ∃ base, normalized.mapM (provisionalSelection frames tolerance) = .ok base ∧
      Provisional base ∧ base.map (·.target) = normalized ∧
        ∀ selection ∈ base, NearestFrame frames tolerance selection := by
  obtain ⟨base, hbase, hall⟩ := mapM_completes fun target (_ : target ∈ normalized) =>
    provisionalSelection_spec frames target htolerance
  have htargets : base.map (·.target) = normalized := by
    have h := map_eq_of_forall₂ (f := id) (g := TargetSelection.target) hall fun _ _ h => h.1.symm
    rw [← h, map_id]
  have hnearest : ∀ selection ∈ base, NearestFrame frames tolerance selection := fun s hs => by
    obtain ⟨_, _, _, _, hnearest⟩ := exists_left_of_forall₂ hall s hs
    exact hnearest
  refine ⟨base, hbase, ⟨?_, fun s hs => ?_, fun s hs => (hnearest s hs).remakes htolerance⟩,
    htargets, hnearest⟩
  · have hincreasing := hnormalized.increasing
    rw [← htargets, pairwise_map] at hincreasing
    exact hincreasing
  · obtain ⟨_, _, _, hfresh, _⟩ := exists_left_of_forall₂ hall s hs
    exact hfresh

theorem Provisional.nearestFrames (h : Provisional base)
    (hnormalized : Normalized targets normalized) (htargets : base.map (·.target) = normalized)
    (hnearest : ∀ selection ∈ base, NearestFrame frames tolerance selection) :
    NearestFrames targets frames tolerance (base.map (settled base)) := by
  have hincreasing : (base.map (settled base)).Pairwise fun a b => a.target.k < b.target.k := by
    rw [pairwise_map]
    simpa only [settled_target] using h.increasing
  have hiff : ∀ target, (∃ result ∈ base.map (settled base), result.target = target) ↔
      IsLowest targets target := fun target => by
    rw [← hnormalized.mem_iff, ← htargets, mem_map]
    simp only [mem_map, exists_exists_and_eq_and, settled_target]
  have hselected : ∀ result ∈ base.map (settled base), ∀ locator,
      result.assignedLocator = some locator → (result.status = .selected ↔
        ∀ other ∈ base.map (settled base), other.assignedLocator = some locator →
          winnerKey result ≤ winnerKey other) := by
    rw [forall_mem_map]
    intro s hs locator hassigned
    rw [h.assignedLocator_settled hs] at hassigned
    rw [winnerKey_settled]
    exact h.settled_iff hs hassigned
  have heach : ∀ result ∈ base.map (settled base), NearestFrame frames tolerance result :=
    forall_mem_map.mpr fun s hs => (hnearest s hs).settled h hs
  refine ⟨hincreasing, hiff, ?_, heach, hselected, fun a ha b hb ha' hb' hsame => ?_⟩
  · -- of two results for one timestamp neither has the lower index
    refine pairwise_map.mpr (hincreasing.imp_of_mem fun {a b} ha hb hlt htimestamp => ?_)
    have hlowest := (hiff b.target).mp ⟨b, hb, rfl⟩
    exact not_le_of_gt hlt (hlowest.2 a.target ((hiff a.target).mp ⟨a, ha, rfl⟩).1 htimestamp)
  · obtain ⟨locator, hlocator⟩ := Option.ne_none_iff_exists'.mp ((heach a ha).assigned ha')
    have hlocator' := hsame.symm.trans hlocator
    have hle := (hselected a ha locator hlocator).mp ha' b hb hlocator'
    have hge := (hselected b hb locator hlocator').mp hb' a ha hlocator
    have hnodup : ((base.map (settled base)).map fun result => result.target.k).Nodup :=
      pairwise_map.mpr (hincreasing.imp fun hlt => hlt.ne)
    exact inj_on_of_nodup_map hnodup ha hb (k_eq_of_winnerKey (le_antisymm hle hge))

end Results

/-- Selection completes, is nearest and exclusive, and does not depend on any order. -/
theorem select_nearest_frames_exact (targets : List SamplingTarget) (frames : List FrameCandidate)
    (startNs endNs tolerance : Int) (htargets : OneTimestamp targets)
    (hvalid : ValidSelection startNs endNs tolerance) :
    ∃ results, selectNearestFrames targets frames startNs endNs tolerance = .ok results ∧
      NearestFrames targets (intervalFrames startNs endNs frames) tolerance results ∧
      ∀ targets' frames', targets'.Perm targets → frames'.Perm frames →
        selectNearestFrames targets' frames' startNs endNs tolerance = .ok results := by
  obtain ⟨hstart, hlt, hend, hnonneg, hfits⟩ := hvalid
  have hstart' : requireInt64 "interval_start_ns" startNs = .ok () :=
    SamplingGrid.requireInt64_of_bounds hstart (hlt.le.trans hend)
  have hend' : requireInt64 "interval_end_ns" endNs = .ok () :=
    SamplingGrid.requireInt64_of_bounds (hstart.trans hlt.le) hend
  have hmin : int64Min ≤ 0 := by decide
  have htolerance : requireInt64 "selection_tolerance_ns" tolerance = .ok () :=
    SamplingGrid.requireInt64_of_bounds (hmin.trans hnonneg) hfits
  -- past the checks, a call is what the two phases make of its targets and frames
  have hcall : ∀ targets' frames', selectNearestFrames targets' frames' startNs endNs tolerance =
      (normalizedTargets targets' >>= fun normalized => normalized.mapM
        (provisionalSelection (intervalFrames startNs endNs frames') tolerance) >>=
          deduplicateFrames) := fun targets' frames' => by
    unfold selectNearestFrames
    rw [hstart', ok_bind, hend', ok_bind, if_neg (not_le.mpr hlt), htolerance, ok_bind,
      if_neg (not_lt.mpr hnonneg)]
  obtain ⟨normalized, hok, hnormalized⟩ := normalizedTargets_spec htargets
  obtain ⟨base, hbase, hprovisional, hbaseTargets, hnearest⟩ :=
    provisional_spec (intervalFrames startNs endNs frames) hnormalized hfits
  have hresult : selectNearestFrames targets frames startNs endNs tolerance =
      .ok (base.map (settled base)) := by
    rw [hcall, hok, ok_bind, hbase, ok_bind, hprovisional.deduplicateFrames]
  refine ⟨_, hresult, hprovisional.nearestFrames hnormalized hbaseTargets hnearest,
    fun targets' frames' hperm hframes => ?_⟩
  have hsame : provisionalSelection (intervalFrames startNs endNs frames') tolerance =
      provisionalSelection (intervalFrames startNs endNs frames) tolerance :=
    funext fun target => provisionalSelection_perm (hframes.filter _)
  rw [← hresult, hcall, hcall, normalizedTargets_perm htargets hperm, hsame]

/-- Two targets near one frame, one with a frame that cannot be decoded, and one without a frame. -/
def sampleTargets : List SamplingTarget := [⟨1, 10⟩, ⟨0, 0⟩, ⟨2, 10⟩, ⟨3, 40⟩, ⟨4, 100⟩]

def sharedFrame : FrameCandidate := ⟨6, 6, [1], true⟩

def brokenFrame : FrameCandidate := ⟨42, 42, [2], false⟩

example : selectNearestFrames sampleTargets [brokenFrame, sharedFrame] 0 200 8 = .ok
    [⟨⟨0, 0⟩, .deduplicatedFrame, some sharedFrame, some 6⟩,
      ⟨⟨1, 10⟩, .selected, some sharedFrame, some (-4)⟩,
      ⟨⟨3, 40⟩, .decodeFailed, some brokenFrame, some 2⟩,
      ⟨⟨4, 100⟩, .noFrameWithinTolerance, none, none⟩] := rfl

theorem sampleTargets_timestamps : OneTimestamp sampleTargets := by
  unfold OneTimestamp sampleTargets
  decide

theorem sample_valid : ValidSelection 0 200 8 :=
  ⟨by decide, by decide, by decide, by decide, by decide⟩

theorem select_nearest_frames_exact_sample : ∃ results,
    selectNearestFrames sampleTargets [brokenFrame, sharedFrame] 0 200 8 = .ok results ∧
      NearestFrames sampleTargets (intervalFrames 0 200 [brokenFrame, sharedFrame]) 8 results ∧
      ∀ targets' frames', targets'.Perm sampleTargets → frames'.Perm [brokenFrame, sharedFrame] →
        selectNearestFrames targets' frames' 0 200 8 = .ok results :=
  select_nearest_frames_exact sampleTargets [brokenFrame, sharedFrame] 0 200 8
    sampleTargets_timestamps sample_valid

end Robata.Sampling
