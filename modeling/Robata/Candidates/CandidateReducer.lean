import Robata.Lib.Aligned
import Robata.PhysicalActions.SeedComponents
import Robata.Sampling.Dense

/-!
# Candidate reduction

`CandidateReducer.reduce` sweeps the proposals in the order of their starts and joins a proposal to
the last group if it has the label of the group and starts within `merge_gap_ns` of its end.  A
proposal of another label in between closes the group, so an action that two labels interleave is
cut; the fuser of the same pipeline joins the same intervals through a disjoint set.  The
identities of a candidate are digests of the values modelled here and are left out.
-/

namespace Robata.Candidates

open Contracts Lib PhysicalActions List

inductive CameraEvidenceStatus
  | supporting
  | partialEvidence
  | noEvent
  | occluded
  | unusable
  | missing
  deriving DecidableEq

/-- Coverage of one camera. -/
structure ProposalCameraClaim where
  status : CameraEvidenceStatus
  frameOrdinals : List Nat
  deriving DecidableEq

/-- What the reducer reads of a `NormalizedEventProposal`. -/
structure NormalizedEventProposal where
  sourceProposalLogicalKey : NodeLogicalKey
  mcapId : OpaqueUuid
  sourcePackageIds : List OpaqueUuid
  interval : NanosecondInterval
  label : String
  cameraCoverage : CameraId → ProposalCameraClaim

/-- What the reducer reads of a `TemporalPackageSet`. -/
structure PackageBounds where
  mcapId : OpaqueUuid
  packageIds : List OpaqueUuid
  (startNs endNs : Int)

structure CandidateReductionPolicy where
  (mergeGapNs densePaddingBeforeNs densePaddingAfterNs maxCandidates : Nat)
  maxCandidates_pos : 0 < maxCandidates

structure CanonicalCandidateEvent where
  mcapId : OpaqueUuid
  sourcePackageIds : List OpaqueUuid
  sourceProposalLogicalKeys : List NodeLogicalKey
  (effectiveInterval requestedDenseInterval : NanosecondInterval)
  label : String
  cameraCoverage : CameraId → ProposalCameraClaim

/-- The proposal is foreign to the package set. -/
def isForeign (packageSet : PackageBounds) (proposal : NormalizedEventProposal) : Bool :=
  proposal.mcapId != packageSet.mcapId ||
    !(proposal.sourcePackageIds.all fun packageId => packageSet.packageIds.contains packageId) ||
    decide (proposal.interval.startNs < packageSet.startNs) ||
    decide (packageSet.endNs < proposal.interval.endNs)

def proposalSortKey (item : NormalizedEventProposal) : Int ×ₗ Int ×ₗ String ×ₗ String :=
  toLex (item.interval.startNs, toLex (item.interval.endNs,
    toLex (item.label, item.sourceProposalLogicalKey)))

/-- `min(item.interval.start_ns for item in group)`, of a group that is not empty. -/
def earliestStart (group : List NormalizedEventProposal) : Int :=
  (group.map (·.interval.startNs)).min?.getD 0

/-- `max(item.interval.end_ns for item in group)`, of a group that is not empty. -/
def latestEnd (group : List NormalizedEventProposal) : Int :=
  (group.map (·.interval.endNs)).max?.getD 0

def canMerge (gapNs : Nat) (group : List NormalizedEventProposal)
    (right : NormalizedEventProposal) : Bool :=
  (group.head?.any (·.label == right.label)) &&
    decide (right.interval.startNs ≤ latestEnd group + gapNs)

/-- The loop of `reduce`; `current` is `groups[-1]`. -/
def groupsFrom (gapNs : Nat) (current : List NormalizedEventProposal) :
    List NormalizedEventProposal → List (List NormalizedEventProposal)
  | [] => [current]
  | proposal :: rest =>
    if canMerge gapNs current proposal then groupsFrom gapNs (current ++ [proposal]) rest
    else current :: groupsFrom gapNs [proposal] rest

def groupProposals (gapNs : Nat) :
    List NormalizedEventProposal → List (List NormalizedEventProposal)
  | [] => []
  | proposal :: rest => groupsFrom gapNs [proposal] rest

/-- `_merge_coverage`, of one camera. -/
def mergeCoverage (group : List NormalizedEventProposal) (cameraId : CameraId) :
    ProposalCameraClaim :=
  let seen := group.filter fun proposal => (proposal.cameraCoverage cameraId).status ≠ .missing
  let ordinals := canonical id (seen.flatMap fun proposal =>
    (proposal.cameraCoverage cameraId).frameOrdinals)
  ⟨if ordinals = [] then .missing else .supporting, ordinals⟩

def buildCandidate (policy : CandidateReductionPolicy) (packageSet : PackageBounds)
    (group : List NormalizedEventProposal) : Except String CanonicalCandidateEvent :=
  if group = [] then .error "candidate group cannot be empty"
  else do
    let effective ← Sampling.nanosecondInterval (earliestStart group) (latestEnd group)
    let dense ← Sampling.nanosecondInterval (earliestStart group - policy.densePaddingBeforeNs)
      (latestEnd group + policy.densePaddingAfterNs)
    .ok {
      mcapId := packageSet.mcapId
      sourcePackageIds := canonical id (group.flatMap (·.sourcePackageIds))
      sourceProposalLogicalKeys := canonical id (group.map (·.sourceProposalLogicalKey))
      effectiveInterval := effective
      requestedDenseInterval := dense
      label := (group.head?.map (·.label)).getD ""
      cameraCoverage := mergeCoverage group }

def reduce (policy : CandidateReductionPolicy) (packageSet : PackageBounds)
    (proposals : List NormalizedEventProposal) : Except String (List CanonicalCandidateEvent) :=
  let groups := groupProposals policy.mergeGapNs (sortedBy proposalSortKey proposals)
  if proposals.any (isForeign packageSet) then
    .error "proposal is foreign to the candidate package set"
  else if policy.maxCandidates < groups.length then
    .error "candidate reduction exceeded max_candidates"
  else groups.mapM (buildCandidate policy packageSet)

/-! ## Exact merging -/

/-- Two proposals of one label whose intervals overlap, touch or are at most the gap apart. -/
def Adjoins (gapNs : Nat) (left right : NormalizedEventProposal) : Prop :=
  left.label = right.label ∧ withinGap left.interval right.interval gapNs

/-- Two intervals more than the gap apart. -/
def Apart (gapNs : Nat) (left right : NanosecondInterval) : Prop :=
  left.endNs + gapNs < right.startNs ∨ right.endNs + gapNs < left.startNs

/-- The candidate of a group. -/
structure MergedFrom (group : List NormalizedEventProposal) (candidate : CanonicalCandidateEvent) :
    Prop where
  nonempty : group ≠ []
  label : ∀ source ∈ group, source.label = candidate.label
  start : IsLeast {t | ∃ source ∈ group, source.interval.startNs = t}
    candidate.effectiveInterval.startNs
  stop : IsGreatest {t | ∃ source ∈ group, source.interval.endNs = t}
    candidate.effectiveInterval.endNs
  sources : ∀ key, key ∈ candidate.sourceProposalLogicalKeys ↔
    ∃ source ∈ group, source.sourceProposalLogicalKey = key

/-- The candidates are the connected components of the proposals. -/
def ExactMerge (gapNs : Nat) (proposals : List NormalizedEventProposal)
    (candidates : List CanonicalCandidateEvent) : Prop :=
  (∃ groups, Components (Adjoins gapNs) proposals groups ∧
    List.Forall₂ MergedFrom groups candidates) ∧
  candidates.Pairwise fun a b => a.label = b.label →
    Apart gapNs a.effectiveInterval b.effectiveInterval

/-- A proposal that starts within the gap of an earlier one of its label comes right after one of
its label. -/
def Unbroken (gapNs : Nat) (ordered : List NormalizedEventProposal) : Prop :=
  ∀ (before after : List NormalizedEventProposal) (previous proposal : NormalizedEventProposal),
    ordered = before ++ previous :: proposal :: after →
    (∃ earlier ∈ before, earlier.label = proposal.label ∧
      proposal.interval.startNs ≤ earlier.interval.endNs + gapNs) →
    previous.label = proposal.label

/-! ## The sweep -/

/-- A group of one label whose proposals are linked. -/
structure LabelGroup (gapNs : Nat) (group : List NormalizedEventProposal) : Prop where
  nonempty : group ≠ []
  label : ∀ a ∈ group, ∀ b ∈ group, a.label = b.label
  linked : ∀ a ∈ group, ∀ b ∈ group, LinkedIn (Adjoins gapNs) group a b

section Sweep

variable {gapNs : Nat} {group current rest : List NormalizedEventProposal}
  {proposal : NormalizedEventProposal}

theorem Adjoins.symm {left right : NormalizedEventProposal} (h : Adjoins gapNs left right) :
    Adjoins gapNs right left :=
  ⟨h.1.symm, h.2.2, h.2.1⟩

theorem earliestStart_isLeast (h : group ≠ []) :
    IsLeast {t | ∃ source ∈ group, source.interval.startNs = t} (earliestStart group) := by
  obtain ⟨least, hleast, hmem, hbound⟩ :=
    min?_completes (mt map_eq_nil_iff.mp h : group.map (·.interval.startNs) ≠ [])
  unfold earliestStart
  rw [hleast]
  refine ⟨mem_map.mp hmem, ?_⟩
  rintro t ⟨source, hsource, rfl⟩
  exact hbound _ (mem_map_of_mem hsource)

theorem latestEnd_isGreatest (h : group ≠ []) :
    IsGreatest {t | ∃ source ∈ group, source.interval.endNs = t} (latestEnd group) := by
  obtain ⟨greatest, hgreatest, hmem, hbound⟩ :=
    max?_completes (mt map_eq_nil_iff.mp h : group.map (·.interval.endNs) ≠ [])
  unfold latestEnd
  rw [hgreatest]
  refine ⟨mem_map.mp hmem, ?_⟩
  rintro t ⟨source, hsource, rfl⟩
  exact hbound _ (mem_map_of_mem hsource)

theorem LabelGroup.canMerge_iff (h : LabelGroup gapNs group) :
    canMerge gapNs group proposal = true ↔ (∀ a ∈ group, a.label = proposal.label) ∧
      proposal.interval.startNs ≤ latestEnd group + gapNs := by
  obtain ⟨first, others, rfl⟩ := exists_cons_of_ne_nil h.nonempty
  unfold canMerge
  rw [Bool.and_eq_true, decide_eq_true_eq, head?_cons, Option.any_some, beq_iff_eq]
  refine and_congr_left fun _ => ⟨?_, fun hall => hall first mem_cons_self⟩
  intro hfirst a ha
  exact (h.label a ha first mem_cons_self).trans hfirst

theorem labelGroup_single (proposal : NormalizedEventProposal) : LabelGroup gapNs [proposal] where
  nonempty := cons_ne_nil _ _
  label := by simp
  linked := by
    intro a ha b hb
    rw [mem_singleton.mp ha, mem_singleton.mp hb]
    exact .refl

/-- A proposal joins a group through the source that ends last. -/
theorem LabelGroup.join (h : LabelGroup gapNs group)
    (hsorted : ∀ a ∈ group, a.interval.startNs ≤ proposal.interval.startNs)
    (hmerge : canMerge gapNs group proposal = true) : LabelGroup gapNs (group ++ [proposal]) := by
  obtain ⟨hlabel, hreach⟩ := h.canMerge_iff.mp hmerge
  obtain ⟨last, hlast, hend⟩ := (latestEnd_isGreatest h.nonempty).1
  have hsub : ∀ a ∈ group, a ∈ group ++ [proposal] := fun a ha => mem_append_left _ ha
  have hmem : proposal ∈ group ++ [proposal] := by simp
  have hadjoins : Adjoins gapNs last proposal := by
    have hstart := hsorted last hlast
    have hproper := proposal.interval.nonempty
    refine ⟨hlabel last hlast, ?_, ?_⟩ <;> omega
  have hto : ∀ a ∈ group ++ [proposal], a.label = proposal.label ∧
      LinkedIn (Adjoins gapNs) (group ++ [proposal]) a proposal := by
    refine forall_mem_append.mpr ⟨fun a hold => ?_, forall_mem_singleton.mpr ⟨rfl, .refl⟩⟩
    exact ⟨hlabel a hold,
      ((h.linked a hold last hlast).congr hsub).tail ⟨hsub last hlast, hmem, hadjoins⟩⟩
  constructor
  case nonempty => simp
  case label => exact fun a ha b hb => (hto a ha).1.trans (hto b hb).1.symm
  case linked =>
    exact fun a ha b hb => (hto a ha).2.trans ((hto b hb).2.symm fun _ _ hnear => hnear.symm)

variable (current proposal) in
theorem groupsFrom_cons (rest : List NormalizedEventProposal) :
    groupsFrom gapNs current (proposal :: rest) =
      if canMerge gapNs current proposal then groupsFrom gapNs (current ++ [proposal]) rest
      else current :: groupsFrom gapNs [proposal] rest := rfl

variable (current rest) in
theorem groupsFrom_flatten : (groupsFrom gapNs current rest).flatten = current ++ rest := by
  induction rest generalizing current with
  | nil => simp [groupsFrom]
  | cons proposal rest ih =>
    rw [groupsFrom_cons]
    by_cases hmerge : canMerge gapNs current proposal = true
    · simp [hmerge, ih]
    · simp [hmerge, ih]

theorem groupsFrom_labelGroup (h : LabelGroup gapNs current)
    (hsorted : (current ++ rest).Pairwise fun a b => a.interval.startNs ≤ b.interval.startNs) :
    ∀ g ∈ groupsFrom gapNs current rest, LabelGroup gapNs g := by
  induction rest generalizing current with
  | nil => simpa [groupsFrom] using h
  | cons proposal rest ih =>
    rw [groupsFrom_cons]
    by_cases hmerge : canMerge gapNs current proposal = true
    · rw [if_pos hmerge]
      have hbefore : ∀ a ∈ current, a.interval.startNs ≤ proposal.interval.startNs :=
        fun a ha => (pairwise_append.mp hsorted).2.2 a ha _ mem_cons_self
      exact ih (h.join hbefore hmerge) (by simpa using hsorted)
    · rw [if_neg hmerge]
      exact forall_mem_cons.mpr
        ⟨h, ih (labelGroup_single proposal) (pairwise_append.mp hsorted).2.1⟩

/-- Every source of one label in the second group starts out of reach of the first. -/
def Past (gapNs : Nat) (g g' : List NormalizedEventProposal) : Prop :=
  ∀ a ∈ g, ∀ b ∈ g', a.label = b.label → a.interval.endNs + gapNs < b.interval.startNs

/-- If no label is interrupted, a group that closes is out of reach of all that follow. -/
theorem groupsFrom_past {ordered : List NormalizedEventProposal}
    (hsorted : ordered.Pairwise fun a b => a.interval.startNs ≤ b.interval.startNs)
    (hunbroken : Unbroken gapNs ordered) {before : List NormalizedEventProposal}
    (hordered : ordered = before ++ current ++ rest) (h : LabelGroup gapNs current)
    (hpast : Past gapNs before current) :
    (∀ g ∈ groupsFrom gapNs current rest, Past gapNs before g) ∧
      (groupsFrom gapNs current rest).Pairwise (Past gapNs) := by
  induction rest generalizing before current with
  | nil =>
    refine ⟨?_, pairwise_singleton _ _⟩
    intro g hg
    rw [mem_singleton.mp hg]
    exact hpast
  | cons proposal rest ih =>
    have hstart : ∀ a ∈ current, a.interval.startNs ≤ proposal.interval.startNs := by
      rw [hordered] at hsorted
      exact fun a ha => (pairwise_append.mp hsorted).2.2 a (mem_append_right _ ha) _ mem_cons_self
    obtain ⟨previous, hprevious⟩ := exists_mem_of_ne_nil _ h.nonempty
    -- an open group of the label of the proposal shields it from what is before the group
    have hshield : previous.label = proposal.label → ∀ a ∈ before, a.label = proposal.label →
        a.interval.endNs + gapNs < proposal.interval.startNs := by
      intro hlabel a ha hsame
      have hreach := hpast a ha previous hprevious (hsame.trans hlabel.symm)
      have hlater := hstart previous hprevious
      omega
    rw [groupsFrom_cons]
    by_cases hmerge : canMerge gapNs current proposal = true
    · rw [if_pos hmerge]
      refine ih (by simpa using hordered) (h.join hstart hmerge) ?_
      intro a ha b hb hsame
      rcases mem_append.mp hb with hold | hnew
      · exact hpast a ha b hold hsame
      · rw [mem_singleton.mp hnew] at hsame ⊢
        exact hshield ((h.canMerge_iff.mp hmerge).1 previous hprevious) a ha hsame
    · rw [if_neg hmerge]
      have hnext : Past gapNs (before ++ current) [proposal] := by
        intro a ha b hb hsame
        rw [mem_singleton.mp hb] at hsame ⊢
        by_contra hnear
        have hlast : ∀ b ∈ current, b.label = proposal.label := by
          obtain ⟨others, last, rfl⟩ := eq_nil_or_concat' current |>.resolve_left h.nonempty
          have hlabel : last.label = proposal.label := by
            rcases mem_append.mp ha with hold | hopen
            · exact hunbroken (before ++ others) rest last proposal (by simpa using hordered)
                ⟨a, mem_append_left _ hold, hsame, not_lt.mp hnear⟩
            · rw [← hsame]
              exact h.label last (by simp) a hopen
          exact fun b hb => (h.label b hb last (by simp)).trans hlabel
        rcases mem_append.mp ha with hold | hopen
        · exact hnear (hshield (hlast previous hprevious) a hold hsame)
        · have hlatest := (latestEnd_isGreatest h.nonempty).2 ⟨a, hopen, rfl⟩
          exact hmerge (h.canMerge_iff.mpr ⟨hlast, by omega⟩)
      obtain ⟨hafter, hpairs⟩ := ih (by simpa using hordered) (labelGroup_single proposal) hnext
      refine ⟨forall_mem_cons.mpr ⟨hpast, ?_⟩, pairwise_cons.mpr ⟨?_, hpairs⟩⟩
      · exact fun g hg a ha => hafter g hg a (mem_append_left _ ha)
      · exact fun g hg a ha => hafter g hg a (mem_append_right _ ha)

/-- The sweep never joins across a change of label. -/
theorem groupsFrom_append (h : LabelGroup gapNs current) {middle : List NormalizedEventProposal}
    (hsorted : (current ++ middle).Pairwise fun a b => a.interval.startNs ≤ b.interval.startNs)
    {last : NormalizedEventProposal} (hlast : (current ++ middle).getLast? = some last)
    (hne : last.label ≠ proposal.label) (after : List NormalizedEventProposal) :
    groupsFrom gapNs current (middle ++ proposal :: after) =
      groupsFrom gapNs current middle ++ groupsFrom gapNs [proposal] after := by
  induction middle generalizing current with
  | nil =>
    rw [append_nil] at hlast
    have hmerge : ¬ canMerge gapNs current proposal = true := by
      rw [h.canMerge_iff]
      exact fun hall => hne (hall.1 last (mem_of_getLast? hlast))
    rw [nil_append, groupsFrom_cons, if_neg hmerge]
    rfl
  | cons next middle ih =>
    rw [cons_append, groupsFrom_cons, groupsFrom_cons]
    by_cases hmerge : canMerge gapNs current next = true
    · have hbefore : ∀ a ∈ current, a.interval.startNs ≤ next.interval.startNs :=
        fun a ha => (pairwise_append.mp hsorted).2.2 a ha _ mem_cons_self
      rw [if_pos hmerge, if_pos hmerge]
      exact ih (h.join hbefore hmerge) (by simpa using hsorted) (by simpa using hlast)
    · rw [if_neg hmerge, if_neg hmerge]
      congr 1
      refine ih (labelGroup_single next) (pairwise_append.mp hsorted).2.1 ?_
      simpa using hlast

theorem nanosecondInterval_bounds {startNs endNs : Int} {interval : NanosecondInterval}
    (h : Sampling.nanosecondInterval startNs endNs = .ok interval) :
    interval.startNs = startNs ∧ interval.endNs = endNs := by
  unfold Sampling.nanosecondInterval at h
  split at h
  · rename_i made hmade
    cases h
    exact Prod.mk.inj (NanosecondInterval.bounds_of_make? hmade)
  · cases h

theorem mergedFrom_of_buildCandidate (h : LabelGroup gapNs group)
    {policy : CandidateReductionPolicy} {packageSet : PackageBounds}
    {candidate : CanonicalCandidateEvent}
    (hbuild : buildCandidate policy packageSet group = .ok candidate) :
    MergedFrom group candidate := by
  unfold buildCandidate at hbuild
  rw [if_neg h.nonempty] at hbuild
  simp only [bind_eq_ok] at hbuild
  obtain ⟨effective, heffective, dense, _, hbuild⟩ := hbuild
  have hbounds : effective.startNs = earliestStart group ∧ effective.endNs = latestEnd group :=
    nanosecondInterval_bounds heffective
  cases hbuild
  constructor
  case nonempty => exact h.nonempty
  case label =>
    obtain ⟨first, others, rfl⟩ := exists_cons_of_ne_nil h.nonempty
    exact fun a ha => h.label a ha first mem_cons_self
  case start => exact hbounds.1 ▸ earliestStart_isLeast h.nonempty
  case stop => exact hbounds.2 ▸ latestEnd_isGreatest h.nonempty
  case sources =>
    simp [canonical]

/-- A run of the reducer that answers, taken apart. -/
theorem reduce_ok {policy : CandidateReductionPolicy} {packageSet : PackageBounds}
    {proposals : List NormalizedEventProposal} {candidates : List CanonicalCandidateEvent}
    (h : reduce policy packageSet proposals = .ok candidates) :
    (groupProposals policy.mergeGapNs (sortedBy proposalSortKey proposals)).mapM
      (buildCandidate policy packageSet) = .ok candidates := by
  simp only [reduce] at h
  split_ifs at h
  exact h

theorem startNs_sorted (proposals : List NormalizedEventProposal) :
    (sortedBy proposalSortKey proposals).Pairwise
      fun a b => a.interval.startNs ≤ b.interval.startNs := by
  refine (sortedBy_pairwise proposalSortKey proposals).imp ?_
  intro a b hle
  rcases Prod.Lex.toLex_le_toLex.mp hle with hlt | ⟨heq, _⟩
  · exact hlt.le
  · exact heq.le

theorem groupProposals_labelGroup {ordered : List NormalizedEventProposal}
    (hsorted : ordered.Pairwise fun a b => a.interval.startNs ≤ b.interval.startNs) :
    ∀ g ∈ groupProposals gapNs ordered, LabelGroup gapNs g := by
  cases ordered with
  | nil => simp [groupProposals]
  | cons first rest => exact groupsFrom_labelGroup (labelGroup_single first) hsorted

theorem past_iff_of_mergedFrom {g g' : List NormalizedEventProposal}
    {c c' : CanonicalCandidateEvent} (h : MergedFrom g c) (h' : MergedFrom g' c') :
    Past gapNs g g' ↔ (c.label = c'.label →
      c.effectiveInterval.endNs + gapNs < c'.effectiveInterval.startNs) := by
  obtain ⟨last, hlast, hend⟩ := h.stop.1
  obtain ⟨first, hfirst, hstart⟩ := h'.start.1
  constructor
  · intro hpast hlabel
    rw [← hend, ← hstart]
    exact hpast last hlast first hfirst
      ((h.label last hlast).trans (hlabel.trans (h'.label first hfirst).symm))
  · intro hapart a ha b hb hsame
    have hgap := hapart ((h.label a ha).symm.trans (hsame.trans (h'.label b hb)))
    have hstop := h.stop.2 ⟨a, ha, rfl⟩
    have hbegin := h'.start.2 ⟨b, hb, rfl⟩
    omega

end Sweep

section Reduce

variable {policy : CandidateReductionPolicy} {packageSet : PackageBounds}
  {proposals : List NormalizedEventProposal} {candidates : List CanonicalCandidateEvent}

variable (h : reduce policy packageSet proposals = .ok candidates)
include h

theorem groups_mergedFrom : List.Forall₂ MergedFrom
      (groupProposals policy.mergeGapNs (sortedBy proposalSortKey proposals)) candidates := by
  refine (forall₂_with_mem (mapM_forall₂ (reduce_ok h))).imp ?_
  rintro g c ⟨hbuild, hg, _⟩
  exact mergedFrom_of_buildCandidate
    (groupProposals_labelGroup (startNs_sorted proposals) g hg) hbuild

theorem exactMerge_of_unbroken
    (hunbroken : Unbroken policy.mergeGapNs (sortedBy proposalSortKey proposals)) :
    ExactMerge policy.mergeGapNs proposals candidates := by
  have hsorted := startNs_sorted proposals
  have hmerged := groups_mergedFrom h
  have hgroups : ∀ g ∈ groupProposals policy.mergeGapNs (sortedBy proposalSortKey proposals),
      LabelGroup policy.mergeGapNs g := groupProposals_labelGroup hsorted
  obtain ⟨hflatten, hpast⟩ :
      (groupProposals policy.mergeGapNs (sortedBy proposalSortKey proposals)).flatten =
        sortedBy proposalSortKey proposals ∧
      (groupProposals policy.mergeGapNs (sortedBy proposalSortKey proposals)).Pairwise
        (Past policy.mergeGapNs) := by
    cases hordered : sortedBy proposalSortKey proposals with
    | nil => exact ⟨rfl, .nil⟩
    | cons first rest =>
      rw [hordered] at hsorted hunbroken
      refine ⟨groupsFrom_flatten [first] rest, ?_⟩
      have hnothing : Past policy.mergeGapNs [] [first] := forall_mem_nil _
      exact (groupsFrom_past hsorted hunbroken rfl (labelGroup_single first) hnothing).2
  refine ⟨⟨_, ⟨?_, ?_, ?_, ?_⟩, hmerged⟩, ?_⟩
  · rw [hflatten]
    exact sortedBy_perm _ _
  · exact fun g hg => (hgroups g hg).nonempty
  · exact fun g hg => (hgroups g hg).linked
  · refine hpast.imp ?_
    rintro g g' hapart a ha b hb ⟨hlabel, _, hreach⟩
    exact absurd hreach (not_le.mpr (hapart a ha b hb hlabel))
  · rw [pairwise_iff_of_forall₂ hmerged fun _ _ _ _ hc hc' => past_iff_of_mergedFrom hc hc'] at hpast
    exact hpast.imp fun hgap hlabel => .inl (hgap hlabel)

/-- Two candidates of one label that a foreign proposal keeps apart are within the gap. -/
theorem unbroken_of_apart (hapart : candidates.Pairwise fun a b => a.label = b.label →
      Apart policy.mergeGapNs a.effectiveInterval b.effectiveInterval) :
    Unbroken policy.mergeGapNs (sortedBy proposalSortKey proposals) := by
  rintro before after previous proposal hordered ⟨earlier, hearlier, hsame, hnear⟩
  by_contra hne
  have hsorted := startNs_sorted proposals
  have hmerged := groups_mergedFrom h
  rw [hordered] at hsorted hmerged
  obtain ⟨first, others, hbefore⟩ := exists_cons_of_ne_nil (ne_nil_of_mem hearlier)
  subst hbefore
  have hprefix : ([first] ++ (others ++ [previous])).Pairwise
      fun a b => a.interval.startNs ≤ b.interval.startNs := hsorted.sublist (by simp)
  have hsplit : groupProposals policy.mergeGapNs
      (first :: others ++ previous :: proposal :: after) =
      groupsFrom policy.mergeGapNs [first] (others ++ [previous]) ++
        groupsFrom policy.mergeGapNs [proposal] after := by
    have hlast : ([first] ++ (others ++ [previous])).getLast? = some previous := by
      rw [← append_assoc]
      exact getLast?_concat
    have hfirst : LabelGroup policy.mergeGapNs [first] := labelGroup_single first
    have happend := groupsFrom_append hfirst hprefix hlast hne after
    rw [append_assoc] at happend
    exact happend
  rw [hsplit] at hmerged
  generalize hn : (groupsFrom policy.mergeGapNs [first] (others ++ [previous])).length = n
    at hmerged
  have hleft := forall₂_take n hmerged
  have hright := forall₂_drop n hmerged
  rw [← hn, take_left, hn] at hleft
  rw [← hn, drop_left, hn] at hright
  -- the candidates of the two proposals
  obtain ⟨g, hg, hearlierMem⟩ : ∃ g ∈ groupsFrom policy.mergeGapNs [first] (others ++ [previous]),
      earlier ∈ g := by
    rw [← mem_flatten, groupsFrom_flatten]
    exact mem_append_left [previous] hearlier
  obtain ⟨g', hg', hproposalMem⟩ : ∃ g' ∈ groupsFrom policy.mergeGapNs [proposal] after,
      proposal ∈ g' := by
    rw [← mem_flatten, groupsFrom_flatten]
    exact mem_cons_self
  obtain ⟨c, hc, hmergedLeft⟩ := exists_right_of_forall₂ hleft g hg
  obtain ⟨c', hc', hmergedRight⟩ := exists_right_of_forall₂ hright g' hg'
  rw [← take_append_drop n candidates] at hapart
  have hfar := (pairwise_append.mp hapart).2.2 c hc c' hc'
    ((hmergedLeft.label earlier hearlierMem).symm.trans
      (hsame.trans (hmergedRight.label proposal hproposalMem)))
  have hstart := hmergedLeft.start.2 ⟨earlier, hearlierMem, rfl⟩
  have hend := hmergedLeft.stop.2 ⟨earlier, hearlierMem, rfl⟩
  have hstart' := hmergedRight.start.2 ⟨proposal, hproposalMem, rfl⟩
  have hend' := hmergedRight.stop.2 ⟨proposal, hproposalMem, rfl⟩
  have hproper := proposal.interval.nonempty
  have hbetween : earlier.interval.startNs ≤ proposal.interval.startNs :=
    (pairwise_append.mp hsorted).2.2 earlier hearlier proposal (by simp)
  rcases hfar with hfar | hfar <;> omega

end Reduce

/-- The property a reduction shares with the actions of the fuser: the candidates are the
components of the proposals, and those of one label are more than the gap apart. -/
def MergesExactly (gapNs : Nat) (proposals : List NormalizedEventProposal)
    (candidates : List CanonicalCandidateEvent) : Prop :=
  ExactMerge gapNs proposals candidates ∧
    ∀ seeds, ∃ components, connectedComponents seeds gapNs = some components ∧
      components.Pairwise fun g g' =>
        (∃ a ∈ g, ∃ b ∈ g', a.label = b.label) → HullsApart gapNs g g'

/-- A reduction that answers merges exactly when no other label interrupts one that goes on. -/
theorem reduce_mergesExactly_iff (policy : CandidateReductionPolicy) (packageSet : PackageBounds)
    (proposals : List NormalizedEventProposal) (candidates : List CanonicalCandidateEvent)
    (h : reduce policy packageSet proposals = .ok candidates) :
    MergesExactly policy.mergeGapNs proposals candidates ↔
      Unbroken policy.mergeGapNs (sortedBy proposalSortKey proposals) := by
  constructor
  · rintro ⟨hexact, _⟩
    exact unbroken_of_apart h hexact.2
  · intro hunbroken
    refine ⟨exactMerge_of_unbroken h hunbroken, ?_⟩
    intro seeds
    obtain ⟨components, hrun, hcomponents, _⟩ :=
      connectedComponents_spec seeds policy.mergeGapNs
    exact ⟨components, hrun, hulls_apart hcomponents⟩

theorem sample_lower (startNs : UInt8) : int64Min ≤ startNs.toNat := by
  unfold int64Min
  omega

theorem sample_upper (startNs durationNs : UInt8) :
    (startNs.toNat + durationNs.toNat + 1 : Int) ≤ int64Max := by
  have := startNs.toNat_lt
  have := durationNs.toNat_lt
  unfold int64Max
  omega

theorem sample_nonempty (startNs durationNs : UInt8) :
    (startNs.toNat : Int) < startNs.toNat + durationNs.toNat + 1 := by omega

def sampleProposal (key : NodeLogicalKey) (label : String) (startNs durationNs : UInt8) :
    NormalizedEventProposal where
  sourceProposalLogicalKey := key
  mcapId := "mcap"
  sourcePackageIds := ["package"]
  interval := ⟨startNs.toNat, startNs.toNat + durationNs.toNat + 1, sample_lower startNs,
    sample_upper startNs durationNs, sample_nonempty startNs durationNs⟩
  label := label
  cameraCoverage := fun _ => ⟨.missing, []⟩

theorem samplePolicy_pos : 0 < 128 := by decide

def samplePolicy : CandidateReductionPolicy := ⟨0, 0, 0, 128, samplePolicy_pos⟩

def samplePackages : PackageBounds := ⟨"mcap", ["package"], 0, 20⟩

def firstReach : NormalizedEventProposal := sampleProposal "first" "reach" 0 9

def grasp : NormalizedEventProposal := sampleProposal "grasp" "grasp" 5 2

def secondReach : NormalizedEventProposal := sampleProposal "second" "reach" 9 2

theorem reduce_sample_ok (proposals : List NormalizedEventProposal)
    (h : (reduce samplePolicy samplePackages proposals).toBool = true) :
    ∃ candidates, reduce samplePolicy samplePackages proposals = .ok candidates := by
  cases hrun : reduce samplePolicy samplePackages proposals with
  | error e => rw [hrun] at h; cases h
  | ok candidates => exact ⟨candidates, rfl⟩

/-- Two overlapping reaches stay two candidates because a grasp starts in between. -/
theorem interrupted_reach_is_cut :
    ∃ candidates, reduce samplePolicy samplePackages [firstReach, grasp, secondReach] =
        .ok candidates ∧
      ¬ MergesExactly samplePolicy.mergeGapNs [firstReach, grasp, secondReach] candidates := by
  obtain ⟨candidates, hrun⟩ := reduce_sample_ok [firstReach, grasp, secondReach] (by decide +kernel)
  refine ⟨candidates, hrun, ?_⟩
  rintro ⟨hexact, _⟩
  have hunbroken := unbroken_of_apart hrun hexact.2
  have hordered : sortedBy proposalSortKey [firstReach, grasp, secondReach] =
      [firstReach, grasp, secondReach] := sortedBy_of_pairwise (by decide +kernel)
  have hlabel := hunbroken [firstReach] [] grasp secondReach hordered
    ⟨firstReach, by simp, rfl, by decide⟩
  exact absurd hlabel (by decide)

def laterGrasp : NormalizedEventProposal := sampleProposal "grasp" "grasp" 11 2

def thirdReach : NormalizedEventProposal := sampleProposal "third" "reach" 13 2

/-- A grasp between reaches that are apart: the first two reaches, which overlap, are one. -/
theorem reach_is_merged :
    ∃ candidates, reduce samplePolicy samplePackages
        [firstReach, secondReach, laterGrasp, thirdReach] = .ok candidates ∧
      candidates.map (·.label) = ["reach", "grasp", "reach"] ∧
      MergesExactly samplePolicy.mergeGapNs [firstReach, secondReach, laterGrasp, thirdReach]
        candidates := by
  have hlabels : (reduce samplePolicy samplePackages
      [firstReach, secondReach, laterGrasp, thirdReach]).map (·.map (·.label)) =
        .ok ["reach", "grasp", "reach"] := by decide +kernel
  obtain ⟨candidates, hrun⟩ := reduce_sample_ok [firstReach, secondReach, laterGrasp, thirdReach]
    (by decide +kernel)
  rw [hrun] at hlabels
  refine ⟨candidates, hrun, Except.ok.inj hlabels, ?_⟩
  refine (reduce_mergesExactly_iff samplePolicy samplePackages _ candidates hrun).mpr ?_
  have hordered : sortedBy proposalSortKey [firstReach, secondReach, laterGrasp, thirdReach] =
      [firstReach, secondReach, laterGrasp, thirdReach] := sortedBy_of_pairwise (by decide +kernel)
  rw [hordered]
  rintro before after previous proposal hsplit ⟨earlier, hearlier, hlabel, hnear⟩
  have hlength := congrArg List.length hsplit
  simp only [length_append, length_cons, length_nil] at hlength
  rcases before with _ | ⟨_, _ | ⟨_, _ | ⟨_, before⟩⟩⟩
  · cases hearlier
  · cases hsplit
    rw [mem_singleton.mp hearlier] at hlabel
    exact absurd hlabel (by decide)
  · cases hsplit
    -- both reaches that come before the grasp end before the third one starts
    have hpast : ∀ earlier ∈ [firstReach, secondReach],
        earlier.interval.endNs + samplePolicy.mergeGapNs < thirdReach.interval.startNs := by decide
    exact absurd hnear (not_le.mpr (hpast earlier hearlier))
  · simp only [length_cons] at hlength
    omega

end Robata.Candidates
