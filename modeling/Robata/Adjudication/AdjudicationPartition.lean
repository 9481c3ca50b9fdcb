import Robata.Adjudication.FusionAdjudicator

/-!
# Adjudication is a partition

The loop keeps every decision it has seen in exactly one of its two lists, keeps only resolved
decisions accepted, and keeps the accepted ones apart.  The result does not depend on the order in
which the decisions are given.
-/

namespace Robata.Adjudication

open Contracts Lib List

variable {policy : AdjudicationPolicy} {s : Adjudicated} {decision : FusionDecision}
  {conflicts seen decisions : List FusionDecision}

/-! ## Replays -/

/-- Decisions under one event ID are one decision. -/
def OnePerEvent (decisions : List FusionDecision) : Prop :=
  ∀ a ∈ decisions, ∀ b ∈ decisions, a.eventId = b.eventId → a = b

instance decidableOnePerEvent (decisions : List FusionDecision) :
    Decidable (OnePerEvent decisions) :=
  inferInstanceAs (Decidable (∀ a ∈ decisions, ∀ b ∈ decisions, a.eventId = b.eventId → a = b))

/-- The loop raises its one error at the first decision that differs from the one before it under
its event ID. -/
theorem checkReplays_spec :
    ∀ {rest seen : List FusionDecision} {byId : Dict OpaqueUuid FusionDecision}, OnePerEvent seen →
      (∀ k d, byId.get? k = some d ↔ d ∈ seen ∧ d.eventId = k) →
      checkReplays rest byId =
        if OnePerEvent (seen ++ rest) then .ok ()
        else .error "conflicting replay for one fusion event_id" := by
  intro rest
  induction rest with
  | nil =>
    intro seen byId hseen _
    rw [append_nil, if_pos hseen]
    rfl
  | cons decision rest ih =>
    intro seen byId hseen hbyId
    unfold checkReplays
    by_cases hconflict : ∃ existing ∈ seen, existing.eventId = decision.eventId ∧
        existing ≠ decision
    · obtain ⟨existing, hexisting, hid, hne⟩ := hconflict
      have hget := (hbyId decision.eventId existing).mpr ⟨hexisting, hid⟩
      rw [hget, if_pos (by simpa using hne), if_neg]
      intro hall
      exact hne (hall existing (mem_append_left _ hexisting) decision (by simp) hid)
    · have hsame : ∀ existing ∈ seen, existing.eventId = decision.eventId →
          existing = decision := by
        intro existing hexisting hid
        by_contra hne
        exact hconflict ⟨existing, hexisting, hid, hne⟩
      have hguard : ¬((byId.get? decision.eventId).any fun existing =>
          decide (existing ≠ decision)) = true := by
        cases hget : byId.get? decision.eventId with
        | none => simp
        | some existing =>
          obtain ⟨hexisting, hid⟩ := (hbyId _ _).mp hget
          simp [hsame existing hexisting hid]
      have hseen' : OnePerEvent (seen ++ [decision]) := by
        intro a ha b hb hid
        rcases mem_append.mp ha with ha | ha <;> rcases mem_append.mp hb with hb | hb
        · exact hseen a ha b hb hid
        · rw [mem_singleton.mp hb] at hid ⊢
          exact hsame a ha hid
        · rw [mem_singleton.mp ha] at hid ⊢
          exact (hsame b hb hid.symm).symm
        · rw [mem_singleton.mp ha, mem_singleton.mp hb]
      rw [if_neg hguard, ih hseen', append_assoc]
      · rfl
      · intro k d
        rw [Dict.get?_set]
        by_cases hk : k = decision.eventId
        · rw [if_pos hk, hk]
          constructor
          · intro h
            cases h
            exact ⟨by simp, rfl⟩
          · rintro ⟨hd, hid⟩
            exact congrArg some (hseen' d hd decision (by simp) hid).symm
        · rw [if_neg hk, hbyId]
          constructor
          · rintro ⟨hd, hid⟩
            exact ⟨mem_append_left _ hd, hid⟩
          · rintro ⟨hd, hid⟩
            rcases mem_append.mp hd with hd | hd
            · exact ⟨hd, hid⟩
            · rw [mem_singleton.mp hd] at hid
              exact absurd hid.symm hk

theorem checkReplays_eq (decisions : List FusionDecision) :
    checkReplays decisions KeyedTable.empty =
      if OnePerEvent decisions then .ok ()
      else .error "conflicting replay for one fusion event_id" := by
  have hempty : OnePerEvent [] := forall_mem_nil _
  rw [checkReplays_spec hempty (fun k d => by simp), nil_append]

/-! ## The winner -/

variable (decision conflicts) in
theorem winnerOf_spec : winnerOf decision conflicts ∈ decision :: conflicts ∧
      ∀ item ∈ decision :: conflicts, winnerKey item ≤ winnerKey (winnerOf decision conflicts) := by
  unfold winnerOf
  induction conflicts generalizing decision with
  | nil => simp
  | cons first rest ih =>
    rw [foldl_cons]
    obtain ⟨hmem, hmax⟩ := ih (if winnerKey decision < winnerKey first then first else decision)
    have hstart : winnerKey decision ≤
          winnerKey (if winnerKey decision < winnerKey first then first else decision) ∧
        winnerKey first ≤
          winnerKey (if winnerKey decision < winnerKey first then first else decision) := by
      split
      · rename_i hlt
        exact ⟨hlt.le, le_rfl⟩
      · rename_i hnot
        exact ⟨le_rfl, not_lt.mp hnot⟩
    have hbest := hmax _ mem_cons_self
    constructor
    · rcases mem_cons.mp hmem with hmem | hmem
      · rw [hmem]
        split <;> simp
      · exact mem_cons_of_mem _ (mem_cons_of_mem _ hmem)
    · exact forall_mem_cons.mpr ⟨hstart.1.trans hbest,
        forall_mem_cons.mpr ⟨hstart.2.trans hbest, (forall_mem_cons.mp hmax).2⟩⟩

variable {item : FusionDecision}

theorem confidence_le_winner (hitem : item ∈ decision :: conflicts) :
    item.confidence ≤ (winnerOf decision conflicts).confidence := by
  have hle := (winnerOf_spec decision conflicts).2 item hitem
  rcases Prod.Lex.toLex_le_toLex.mp hle with hlt | ⟨heq, _⟩
  · exact hlt.le
  · exact heq.le

/-! ## One conflict -/

/-- The decisions that stay accepted of a conflict: none, or the winner. -/
def keptOf (policy : AdjudicationPolicy) (decision : FusionDecision)
    (conflicts : List FusionDecision) : List FusionDecision :=
  if abstainsFrom policy decision conflicts then [] else [winnerOf decision conflicts]

theorem keptOf_sub : ∀ item ∈ keptOf policy decision conflicts,
    item = winnerOf decision conflicts := by
  unfold keptOf
  split <;> simp

variable (policy s decision conflicts) in
/-- Of a conflict the kept decisions are accepted and the others are abstained from. -/
theorem resolveConflict_eq : (resolveConflict policy s decision conflicts).accepted =
        (s.accepted.filter fun item => item ∉ conflicts) ++ keptOf policy decision conflicts ∧
      (resolveConflict policy s decision conflicts).abstained =
        s.abstained ++ (conflicts ++ [decision]).filter
          fun item => item ∉ keptOf policy decision conflicts := by
  unfold resolveConflict keptOf
  dsimp only
  split <;> simp

/-! ## The loop -/

/-- What the loop keeps: the decisions seen are in exactly one of the lists, and there once; the
accepted ones are resolved and apart from each other. -/
structure Partitions (seen : List FusionDecision) (s : Adjudicated) : Prop where
  covers : ∀ d, d ∈ s.accepted ∨ d ∈ s.abstained ↔ d ∈ seen
  apart : ∀ d ∈ s.accepted, d ∉ s.abstained
  acceptedNodup : s.accepted.Nodup
  abstainedNodup : s.abstained.Nodup
  resolved : ∀ d ∈ s.accepted, d.ambiguityState = "RESOLVED"
  disjoint : s.accepted.Pairwise fun a b => ¬Overlap a b

/-- The accepted decisions that a decision overlaps. -/
def conflictsOf (s : Adjudicated) (decision : FusionDecision) : List FusionDecision :=
  s.accepted.filter fun candidate => Overlap decision candidate

theorem mem_conflictsOf :
    item ∈ conflictsOf s decision ↔ item ∈ s.accepted ∧ Overlap decision item := by
  simp [conflictsOf]

variable (policy s decision) in
theorem adjudicateOne_cases :
    (decision ∈ s.accepted ∨ decision ∈ s.abstained) ∧ adjudicateOne policy s decision = s ∨
    ¬(decision ∈ s.accepted ∨ decision ∈ s.abstained) ∧
      (decision.ambiguityState ≠ "RESOLVED" ∧
          (adjudicateOne policy s decision).accepted = s.accepted ∧
          (adjudicateOne policy s decision).abstained = s.abstained ++ [decision] ∨
        decision.ambiguityState = "RESOLVED" ∧
          (conflictsOf s decision = [] ∧
              (adjudicateOne policy s decision).accepted = s.accepted ++ [decision] ∧
              (adjudicateOne policy s decision).abstained = s.abstained ∨
            conflictsOf s decision ≠ [] ∧ adjudicateOne policy s decision =
              resolveConflict policy s decision (conflictsOf s decision))) := by
  unfold adjudicateOne
  by_cases hseen : decision ∈ s.abstained ∨ decision ∈ s.accepted
  · exact .inl ⟨hseen.symm, if_pos hseen⟩
  · refine .inr ⟨fun h => hseen h.symm, ?_⟩
    rw [if_neg hseen]
    by_cases hresolved : decision.ambiguityState = "RESOLVED"
    · rw [if_neg (not_not.mpr hresolved)]
      refine .inr ⟨hresolved, ?_⟩
      by_cases hnone : conflictsOf s decision = []
      · refine .inl ⟨hnone, ?_⟩
        unfold conflictsOf at hnone
        dsimp only
        rw [if_pos hnone]
        exact ⟨rfl, rfl⟩
      · refine .inr ⟨hnone, ?_⟩
        unfold conflictsOf at hnone ⊢
        dsimp only
        rw [if_neg hnone]
    · rw [if_pos hresolved]
      exact .inl ⟨hresolved, rfl, rfl⟩

theorem not_overlap_of_rest (hitem : item ∈ s.accepted)
    (hnot : item ∉ conflictsOf s decision) : ¬Overlap decision item := by
  intro hoverlap
  exact hnot (mem_conflictsOf.mpr ⟨hitem, hoverlap⟩)

theorem Partitions.resolve (h : Partitions seen s)
    (hnew : ¬(decision ∈ s.accepted ∨ decision ∈ s.abstained))
    (hresolved : decision.ambiguityState = "RESOLVED") :
    Partitions (seen ++ [decision])
      (resolveConflict policy s decision (conflictsOf s decision)) := by
  obtain ⟨haccepted, habstained⟩ :=
      resolveConflict_eq policy s decision (conflictsOf s decision)
  have hdisjoint : ∀ a ∈ s.accepted, ∀ b ∈ s.accepted, a ≠ b → ¬Overlap a b := by
    have hsymmetric : Std.Symm fun a b : FusionDecision => ¬Overlap a b :=
      ⟨fun a b hab hba => hab hba.symm⟩
    intro a ha b hb hne
    exact List.Pairwise.forall h.disjoint ha hb hne
  have hconflict : ∀ item ∈ conflictsOf s decision, item ∈ s.accepted := fun item hitem =>
    (mem_conflictsOf.mp hitem).1
  -- the kept decision is the new one, or one of the conflicts
  have hkept : ∀ item ∈ keptOf policy decision (conflictsOf s decision),
      item = decision ∨ item ∈ conflictsOf s decision := by
    intro item hitem
    rw [keptOf_sub item hitem]
    exact mem_cons.mp (winnerOf_spec decision (conflictsOf s decision)).1
  constructor
  case covers =>
    intro d
    rw [haccepted, habstained, mem_append, mem_append, mem_append, ← h.covers]
    simp only [mem_filter, decide_eq_true_eq, mem_append, mem_singleton]
    by_cases hk : d ∈ keptOf policy decision (conflictsOf s decision)
    · have := hkept d hk
      tauto
    · tauto
  case apart =>
    intro d hd
    rw [haccepted] at hd
    rw [habstained]
    simp only [mem_filter, decide_eq_true_eq, mem_append, mem_singleton] at hd ⊢
    rintro (hold | ⟨hmoved, hnotKept⟩)
    · rcases hd with ⟨hd, _⟩ | hd
      · exact h.apart d hd hold
      · rcases hkept d hd with rfl | hd
        · exact hnew (.inr hold)
        · exact h.apart d (hconflict d hd) hold
    · rcases hd with ⟨hd, hnotConflict⟩ | hd
      · rcases hmoved with hmoved | rfl
        · exact hnotConflict hmoved
        · exact hnew (.inl hd)
      · exact hnotKept hd
  case acceptedNodup =>
    rw [haccepted, nodup_append]
    refine ⟨h.acceptedNodup.filter _, ?_, ?_⟩
    · unfold keptOf
      split <;> simp
    · intro a ha b hb heq
      subst heq
      simp only [mem_filter, decide_eq_true_eq] at ha
      rcases hkept a hb with rfl | hb
      · exact hnew (.inl ha.1)
      · exact ha.2 hb
  case abstainedNodup =>
    rw [habstained, nodup_append]
    refine ⟨h.abstainedNodup, ?_, ?_⟩
    · apply List.Nodup.filter
      rw [nodup_append]
      refine ⟨h.acceptedNodup.filter _, nodup_singleton _, ?_⟩
      intro a ha b hb heq
      rw [mem_singleton.mp hb] at heq
      exact hnew (.inl (heq ▸ hconflict a ha))
    · intro a ha b hb heq
      subst heq
      simp only [mem_filter, mem_append, mem_singleton] at hb
      rcases hb.1 with hb | rfl
      · exact h.apart a (hconflict a hb) ha
      · exact hnew (.inr ha)
  case resolved =>
    intro d hd
    rw [haccepted, mem_append, mem_filter] at hd
    rcases hd with hd | hd
    · exact h.resolved d hd.1
    · rcases hkept d hd with rfl | hd
      · exact hresolved
      · exact h.resolved d (hconflict d hd)
  case disjoint =>
    rw [haccepted, pairwise_append]
    refine ⟨h.disjoint.filter _, ?_, ?_⟩
    · unfold keptOf
      split <;> simp
    · intro a ha b hb
      simp only [mem_filter, decide_eq_true_eq] at ha
      rcases hkept b hb with rfl | hb
      · exact fun hoverlap => not_overlap_of_rest ha.1 ha.2 hoverlap.symm
      · refine hdisjoint a ha.1 b (hconflict b hb) ?_
        rintro rfl
        exact ha.2 hb

theorem Partitions.step (h : Partitions seen s) (policy : AdjudicationPolicy)
    (decision : FusionDecision) :
    Partitions (seen ++ [decision]) (adjudicateOne policy s decision) := by
  rcases adjudicateOne_cases policy s decision with ⟨hseen, heq⟩ | ⟨hnew, hcases⟩
  · rw [heq]
    refine ⟨?_, h.apart, h.acceptedNodup, h.abstainedNodup, h.resolved, h.disjoint⟩
    intro d
    rw [h.covers, mem_append, mem_singleton]
    constructor
    · exact .inl
    · rintro (hd | rfl)
      · exact hd
      · exact (h.covers _).mp hseen
  · rcases hcases with ⟨_, haccepted, habstained⟩ |
      ⟨hresolved, ⟨hnone, haccepted, habstained⟩ | ⟨_, heq⟩⟩
    · constructor
      case covers =>
        intro d
        rw [haccepted, habstained, mem_append, mem_append, ← or_assoc, h.covers]
      case apart =>
        intro d hd
        rw [haccepted] at hd
        rw [habstained, mem_append, mem_singleton]
        rintro (hold | rfl)
        · exact h.apart d hd hold
        · exact hnew (.inl hd)
      case acceptedNodup => exact haccepted ▸ h.acceptedNodup
      case abstainedNodup =>
        rw [habstained, nodup_append]
        refine ⟨h.abstainedNodup, nodup_singleton _, ?_⟩
        intro a ha b hb heq
        rw [mem_singleton.mp hb] at heq
        exact hnew (.inr (heq ▸ ha))
      case resolved => exact haccepted ▸ h.resolved
      case disjoint => exact haccepted ▸ h.disjoint
    · constructor
      case covers =>
        intro d
        rw [haccepted, habstained, mem_append, mem_append, ← h.covers]
        tauto
      case apart =>
        intro d hd
        rw [habstained]
        rw [haccepted, mem_append, mem_singleton] at hd
        rcases hd with hd | rfl
        · exact h.apart d hd
        · exact fun hold => hnew (.inr hold)
      case acceptedNodup =>
        rw [haccepted, nodup_append]
        refine ⟨h.acceptedNodup, nodup_singleton _, ?_⟩
        intro a ha b hb heq
        rw [mem_singleton.mp hb] at heq
        exact hnew (.inl (heq ▸ ha))
      case abstainedNodup => exact habstained ▸ h.abstainedNodup
      case resolved =>
        intro d hd
        rw [haccepted, mem_append, mem_singleton] at hd
        rcases hd with hd | rfl
        · exact h.resolved d hd
        · exact hresolved
      case disjoint =>
        rw [haccepted, pairwise_append]
        refine ⟨h.disjoint, pairwise_singleton _ _, ?_⟩
        intro a ha b hb hoverlap
        rw [mem_singleton.mp hb] at hoverlap
        have := mem_conflictsOf.mpr ⟨ha, hoverlap.symm⟩
        rw [hnone] at this
        exact not_mem_nil this
    · rw [heq]
      exact h.resolve hnew hresolved

theorem partitions_adjudicateAll (policy : AdjudicationPolicy) (ordered : List FusionDecision) :
    Partitions ordered (adjudicateAll policy ordered) := by
  induction ordered using reverseRecOn with
  | nil => constructor <;> simp [adjudicateAll]
  | append_singleton ordered decision ih =>
    unfold adjudicateAll at ih ⊢
    rw [foldl_append]
    exact ih.step policy decision

/-! ## The result -/

/-- The result holds every given decision in exactly one of its lists, and there once, abstains
from the unresolved ones, and its final decisions do not overlap. -/
structure PartitionedInto (decisions : List FusionDecision) (result : AdjudicationResult) :
    Prop where
  covers : ∀ d, d ∈ result.finalDecisions ∨ d ∈ result.abstained ↔ d ∈ decisions
  apart : ∀ d ∈ result.finalDecisions, d ∉ result.abstained
  finalNodup : result.finalDecisions.Nodup
  abstainedNodup : result.abstained.Nodup
  unresolved : ∀ d ∈ decisions, d.ambiguityState ≠ "RESOLVED" → d ∈ result.abstained
  disjoint : result.finalDecisions.Pairwise fun a b => ¬Overlap a b

theorem OnePerEvent.congr {decisions' : List FusionDecision}
    (hmem : ∀ d, d ∈ decisions ↔ d ∈ decisions') : OnePerEvent decisions ↔ OnePerEvent decisions' := by
  unfold OnePerEvent
  simp only [hmem]

/-- The result that is returned when there is one decision for each event ID. -/
def resultOf (policy : AdjudicationPolicy) (decisions : List FusionDecision) : AdjudicationResult :=
  let s := adjudicateAll policy (sortedBy decisionKey decisions)
  let final := sortedBy resultKey s.accepted
  let abstained := sortedBy resultKey (Dict.index (·.eventId) s.abstained).values
  { finalDecisions := final
    abstained
    rationale := rationaleOf policy final.length abstained.length s.reasons }

theorem adjudicate_eq (decisions : List FusionDecision) (policy : AdjudicationPolicy) :
    adjudicate decisions policy =
      if OnePerEvent decisions then .ok (resultOf policy decisions)
      else .error "conflicting replay for one fusion event_id" := by
  have hcongr : OnePerEvent (sortedBy decisionKey decisions) ↔ OnePerEvent decisions :=
    OnePerEvent.congr fun d => mem_sortedBy
  unfold adjudicate
  dsimp only
  rw [checkReplays_eq]
  by_cases hone : OnePerEvent decisions
  · rw [if_pos hone, if_pos (hcongr.mpr hone)]
    rfl
  · rw [if_neg hone, if_neg fun h => hone (hcongr.mp h)]

theorem resultOf_perm (policy : AdjudicationPolicy) (hone : OnePerEvent decisions) :
    (resultOf policy decisions).finalDecisions.Perm
        (adjudicateAll policy (sortedBy decisionKey decisions)).accepted ∧
      (resultOf policy decisions).abstained.Perm
        (adjudicateAll policy (sortedBy decisionKey decisions)).abstained := by
  have hpartitions := partitions_adjudicateAll policy (sortedBy decisionKey decisions)
  refine ⟨sortedBy_perm _ _, ?_⟩
  have hids : ((adjudicateAll policy (sortedBy decisionKey decisions)).abstained.map
      (·.eventId)).Nodup := by
    rw [List.Nodup, pairwise_map]
    refine List.Pairwise.imp_of_mem ?_ hpartitions.abstainedNodup
    intro a b ha hb hne hid
    have hmem : ∀ d ∈ (adjudicateAll policy (sortedBy decisionKey decisions)).abstained,
        d ∈ decisions := fun d hd => mem_sortedBy.mp ((hpartitions.covers d).mp (.inr hd))
    exact hne (hone a (hmem a ha) b (hmem b hb) hid)
  unfold resultOf
  dsimp only
  rw [Dict.values_index hids]
  exact sortedBy_perm _ _

theorem resultOf_partitioned (policy : AdjudicationPolicy) (hone : OnePerEvent decisions) :
    PartitionedInto decisions (resultOf policy decisions) := by
  have h := partitions_adjudicateAll policy (sortedBy decisionKey decisions)
  obtain ⟨hfinal, habstained⟩ := resultOf_perm policy hone
  have hcovers : ∀ d, d ∈ (resultOf policy decisions).finalDecisions ∨
      d ∈ (resultOf policy decisions).abstained ↔ d ∈ decisions := by
    intro d
    rw [hfinal.mem_iff, habstained.mem_iff, h.covers, mem_sortedBy]
  refine ⟨hcovers, ?_, hfinal.nodup_iff.mpr h.acceptedNodup,
    habstained.nodup_iff.mpr h.abstainedNodup, ?_, ?_⟩
  · intro d hd
    rw [habstained.mem_iff]
    exact h.apart d (hfinal.mem_iff.mp hd)
  · intro d hd hunresolved
    rcases (hcovers d).mpr hd with hin | hin
    · exact absurd (h.resolved d (hfinal.mem_iff.mp hin)) hunresolved
    · exact hin
  · have hsymmetric : ∀ {a b : FusionDecision}, ¬Overlap a b → ¬Overlap b a :=
      fun hab hba => hab hba.symm
    exact (hfinal.pairwise_iff hsymmetric).mpr h.disjoint

theorem adjudicate_perm {decisions' : List FusionDecision} (hperm : decisions.Perm decisions')
    (policy : AdjudicationPolicy) :
    adjudicate decisions' policy = adjudicate decisions policy := by
  have hcongr : OnePerEvent decisions' ↔ OnePerEvent decisions :=
    OnePerEvent.congr fun d => hperm.symm.mem_iff
  rw [adjudicate_eq, adjudicate_eq]
  by_cases hone : OnePerEvent decisions
  · have hordered : sortedBy decisionKey decisions' = sortedBy decisionKey decisions := by
      apply sortedBy_eq_of_perm_of_inj hperm.symm
      intro a ha b hb hkey
      apply hone a (hperm.mem_iff.mpr ha) b (hperm.mem_iff.mpr hb)
      have hrest := (Prod.mk.inj (toLex.injective hkey)).2
      exact (Prod.mk.inj (toLex.injective hrest)).1
    rw [if_pos (hcongr.mpr hone), if_pos hone]
    unfold resultOf
    rw [hordered]
  · rw [if_neg fun h => hone (hcongr.mp h), if_neg hone]

/-- Adjudication raises when one event ID carries two decisions, and otherwise partitions the given
decisions, whatever their order. -/
theorem adjudicate_partitions (decisions : List FusionDecision) (policy : AdjudicationPolicy) :
    ((∃ a ∈ decisions, ∃ b ∈ decisions, a.eventId = b.eventId ∧ a ≠ b) ∧
        adjudicate decisions policy = .error "conflicting replay for one fusion event_id" ∨
      (∀ a ∈ decisions, ∀ b ∈ decisions, a.eventId = b.eventId → a = b) ∧
        ∃ result, adjudicate decisions policy = .ok result ∧ PartitionedInto decisions result) ∧
    ∀ decisions', decisions.Perm decisions' →
      adjudicate decisions' policy = adjudicate decisions policy := by
  refine ⟨?_, fun decisions' hperm => adjudicate_perm hperm policy⟩
  rw [adjudicate_eq]
  by_cases hone : OnePerEvent decisions
  · rw [if_pos hone]
    exact .inr ⟨hone, _, rfl, resultOf_partitioned policy hone⟩
  · rw [if_neg hone]
    refine .inl ⟨?_, rfl⟩
    unfold OnePerEvent at hone
    push Not at hone
    exact hone

end Robata.Adjudication
