import Mathlib.Logic.Relation
import Robata.Adjudication.AdjudicationPartition

/-!
# What conflicts leave behind

A conflict is resolved with the accepted decisions only, and has one winner.  A decision that is
abstained from is therefore linked to a final one through overlapping decisions, and under
`ABSTAIN_ON_CONFLICT` a final decision overlaps only earlier ones, which a third decision has
already removed.
-/

namespace Robata.Adjudication

open Contracts Lib List

variable {policy : AdjudicationPolicy} {s : Adjudicated} {decision : FusionDecision}
  {seen decisions : List FusionDecision} {result : AdjudicationResult}

/-- A resolved decision of a list. -/
def IsResolved (decisions : List FusionDecision) (d : FusionDecision) : Prop :=
  d ∈ decisions ∧ d.ambiguityState = "RESOLVED"

/-- Two different resolved decisions of a list that overlap. -/
structure Conflict (decisions : List FusionDecision) (a b : FusionDecision) : Prop where
  left : IsResolved decisions a
  right : IsResolved decisions b
  ne : a ≠ b
  overlap : Overlap a b

variable {a b : FusionDecision}

theorem Conflict.symm (h : Conflict decisions a b) :
    Conflict decisions b a := ⟨h.right, h.left, h.ne.symm, h.overlap.symm⟩

theorem Conflict.mono (h : Conflict seen a b) (hsub : ∀ d ∈ seen, d ∈ decisions) :
    Conflict decisions a b :=
  ⟨⟨hsub a h.left.1, h.left.2⟩, ⟨hsub b h.right.1, h.right.2⟩, h.ne, h.overlap⟩

/-- A resolved decision that overlaps no other. -/
def Alone (decisions : List FusionDecision) (d : FusionDecision) : Prop :=
  IsResolved decisions d ∧ ∀ other, ¬Conflict decisions d other

/-- No resolved decision overlaps two others. -/
def AtMostPairs (decisions : List FusionDecision) : Prop :=
  ∀ a b c, Conflict decisions a b → Conflict decisions a c → b = c

/-- Decisions linked through conflicts. -/
def LinkedBy (decisions : List FusionDecision) : FusionDecision → FusionDecision → Prop :=
  Relation.ReflTransGen (Conflict decisions)

theorem LinkedBy.symm (h : LinkedBy decisions a b) : LinkedBy decisions b a := by
  induction h with
  | refl => exact Relation.ReflTransGen.refl
  | tail _ hstep ih => exact Relation.ReflTransGen.head hstep.symm ih

theorem LinkedBy.eq_or_conflict (hpairs : AtMostPairs decisions) (h : LinkedBy decisions a b) :
    b = a ∨ Conflict decisions a b := by
  induction h with
  | refl => exact .inl rfl
  | @tail b c _ hstep ih =>
    rcases ih with rfl | hconflict
    · exact .inr hstep
    · exact .inl (hpairs b c a hstep hconflict.symm)

/-! ## The greatest confidence wins -/

/-- Every resolved decision that is abstained from is linked to an accepted one that is at least as
confident. -/
def Outranked (decisions : List FusionDecision) (s : Adjudicated) : Prop :=
  ∀ d ∈ s.abstained, d.ambiguityState = "RESOLVED" →
    ∃ f ∈ s.accepted, d.confidence ≤ f.confidence ∧ LinkedBy decisions d f

theorem conflict_of_conflictsOf (h : Partitions seen s) (hsub : ∀ d ∈ seen, d ∈ decisions)
    (hdecision : IsResolved decisions decision)
    (hnew : ¬(decision ∈ s.accepted ∨ decision ∈ s.abstained)) {item : FusionDecision}
    (hitem : item ∈ conflictsOf s decision) : Conflict decisions decision item := by
  obtain ⟨haccepted, hoverlap⟩ := mem_conflictsOf.mp hitem
  refine ⟨hdecision, ⟨hsub item ((h.covers item).mp (.inl haccepted)), h.resolved item haccepted⟩,
    ?_, hoverlap⟩
  rintro rfl
  exact hnew (.inl haccepted)

theorem Outranked.resolve (hparts : Partitions seen s) (hsub : ∀ d ∈ seen, d ∈ decisions)
    (h : Outranked decisions s) (hdecision : IsResolved decisions decision)
    (hnew : ¬(decision ∈ s.accepted ∨ decision ∈ s.abstained))
    (hkeeps : abstainsFrom policy decision (conflictsOf s decision) = false) :
    Outranked decisions (resolveConflict policy s decision (conflictsOf s decision)) := by
  obtain ⟨haccepted, habstained⟩ :=
      resolveConflict_eq policy s decision (conflictsOf s decision)
  have hkept : keptOf policy decision (conflictsOf s decision) =
      [winnerOf decision (conflictsOf s decision)] := by
    unfold keptOf
    rw [hkeeps]
    rfl
  rw [hkept] at haccepted habstained
  have hwinner := (winnerOf_spec decision (conflictsOf s decision)).1
  have hlinked : ∀ item ∈ decision :: conflictsOf s decision, LinkedBy decisions decision item := by
    refine forall_mem_cons.mpr ⟨Relation.ReflTransGen.refl, fun item hitem => ?_⟩
    exact Relation.ReflTransGen.single
      (conflict_of_conflictsOf hparts hsub hdecision hnew hitem)
  -- every side of the conflict is linked to the winner through the new decision
  have hside : ∀ item ∈ decision :: conflictsOf s decision,
      LinkedBy decisions item (winnerOf decision (conflictsOf s decision)) := by
    intro item hitem
    exact (hlinked item hitem).symm.trans (hlinked _ hwinner)
  have hto : ∀ item ∈ decision :: conflictsOf s decision,
      ∃ f ∈ (resolveConflict policy s decision (conflictsOf s decision)).accepted,
        item.confidence ≤ f.confidence ∧ LinkedBy decisions item f := by
    intro item hitem
    refine ⟨_, ?_, confidence_le_winner hitem, hside item hitem⟩
    rw [haccepted]
    exact mem_append_right _ mem_cons_self
  intro d hd hresolved
  rw [habstained, mem_append] at hd
  rcases hd with hold | hmoved
  · obtain ⟨f, hf, hle, hlink⟩ := h d hold hresolved
    by_cases hconflict : f ∈ conflictsOf s decision
    · obtain ⟨g, hg, hle', hlink'⟩ := hto f (mem_cons_of_mem _ hconflict)
      exact ⟨g, hg, hle.trans hle', hlink.trans hlink'⟩
    · refine ⟨f, ?_, hle, hlink⟩
      rw [haccepted]
      exact mem_append_left _ (by simpa using ⟨hf, hconflict⟩)
  · have hmem := (mem_filter.mp hmoved).1
    apply hto d
    rw [mem_append, mem_singleton] at hmem
    exact mem_cons.mpr hmem.symm

theorem Outranked.step (hparts : Partitions seen s) (hsub : ∀ d ∈ seen ++ [decision], d ∈ decisions)
    (h : Outranked decisions s)
    (hkeeps : ∀ conflicts, abstainsFrom policy decision conflicts = false) :
    Outranked decisions (adjudicateOne policy s decision) := by
  have hsubSeen : ∀ d ∈ seen, d ∈ decisions := fun d hd => hsub d (mem_append_left _ hd)
  rcases adjudicateOne_cases policy s decision with ⟨_, heq⟩ | ⟨hnew, hcases⟩
  · rw [heq]
    exact h
  · rcases hcases with ⟨hunresolved, haccepted, habstained⟩ |
      ⟨hresolved, ⟨_, haccepted, habstained⟩ | ⟨_, heq⟩⟩
    · intro d hd hdResolved
      rw [habstained, mem_append, mem_singleton] at hd
      rw [haccepted]
      rcases hd with hd | rfl
      · exact h d hd hdResolved
      · exact absurd hdResolved hunresolved
    · intro d hd hdResolved
      rw [habstained] at hd
      obtain ⟨f, hf, hle, hlink⟩ := h d hd hdResolved
      rw [haccepted]
      exact ⟨f, mem_append_left _ hf, hle, hlink⟩
    · rw [heq]
      exact h.resolve hparts hsubSeen ⟨hsub decision (by simp), hresolved⟩ hnew (hkeeps _)

section

variable (hstrategy : policy.conflictResolutionStrategy ≠ .abstainOnConflict)
include hstrategy

/-- Without a margin the strategies that keep a winner abstain from no conflict as a whole. -/
theorem abstainsFrom_eq_false
    (hmargin : policy.confidenceMargin = 0) (conflicts : List FusionDecision) :
    abstainsFrom policy decision conflicts = false := by
  unfold abstainsFrom
  rw [hmargin]
  simp [hstrategy]

theorem outranked_adjudicateAll (hmargin : policy.confidenceMargin = 0) :
    ∀ {ordered : List FusionDecision}, (∀ d ∈ ordered, d ∈ decisions) →
      Outranked decisions (adjudicateAll policy ordered) := by
  intro ordered
  induction ordered using reverseRecOn with
  | nil =>
    intro _ d hd
    exact absurd hd not_mem_nil
  | append_singleton ordered decision ih =>
    intro hsub
    have hparts := partitions_adjudicateAll policy ordered
    have hprevious := ih fun d hd => hsub d (mem_append_left _ hd)
    unfold adjudicateAll at hparts hprevious ⊢
    rw [foldl_append]
    exact hprevious.step hparts hsub fun _ => abstainsFrom_eq_false hstrategy hmargin _

end

/-! ## Abstaining from conflicts -/

/-- Under `ABSTAIN_ON_CONFLICT`: what is abstained from overlaps another decision, and what overlaps
an accepted decision came before it and overlaps a third one. -/
structure Abstains (seen : List FusionDecision) (s : Adjudicated) : Prop where
  abstained : ∀ d ∈ s.abstained, d.ambiguityState = "RESOLVED" → ∃ other, Conflict seen d other
  accepted : ∀ f ∈ s.accepted, ∀ other, Conflict seen f other →
    decisionKey other ≤ decisionKey f ∧ ∃ third, third ≠ f ∧ Conflict seen other third

section

variable (hstrategy : policy.conflictResolutionStrategy = .abstainOnConflict)
include hstrategy

theorem Abstains.step (hparts : Partitions seen s) (h : Abstains seen s)
    (hsorted : ∀ d ∈ seen, decisionKey d ≤ decisionKey decision) :
    Abstains (seen ++ [decision]) (adjudicateOne policy s decision) := by
  have hsub : ∀ d ∈ seen, d ∈ seen ++ [decision] := fun d hd => mem_append_left _ hd
  have hdecision : decision ∈ seen ++ [decision] := mem_append_right _ mem_cons_self
  -- a conflict in the longer list is an old one, or one with the new decision
  have hold : ∀ a b, Conflict (seen ++ [decision]) a b → a ≠ decision → b ≠ decision →
      Conflict seen a b := by
    intro a b hab ha hb
    have hmem : ∀ d, d ∈ seen ++ [decision] → d ≠ decision → d ∈ seen := by
      intro d hd hne
      rcases mem_append.mp hd with hd | hd
      · exact hd
      · exact absurd (mem_singleton.mp hd) hne
    exact ⟨⟨hmem a hab.left.1 ha, hab.left.2⟩, ⟨hmem b hab.right.1 hb, hab.right.2⟩, hab.ne,
      hab.overlap⟩
  rcases adjudicateOne_cases policy s decision with ⟨hseen, heq⟩ | ⟨hnew, hcases⟩
  · -- an exact repetition
    have hmem : decision ∈ seen := (hparts.covers decision).mp hseen
    have hback : ∀ d, d ∈ seen ++ [decision] → d ∈ seen := by
      exact forall_mem_append.mpr ⟨fun _ => id, forall_mem_singleton.mpr hmem⟩
    rw [heq]
    constructor
    case abstained =>
      intro d hd hresolved
      obtain ⟨other, hother⟩ := h.abstained d hd hresolved
      exact ⟨other, hother.mono hsub⟩
    case accepted =>
      intro f hf other hother
      obtain ⟨hle, third, hne, hthird⟩ := h.accepted f hf other (hother.mono hback)
      exact ⟨hle, third, hne, hthird.mono hsub⟩
  · have hfresh : decision ∉ seen := fun hmem => hnew ((hparts.covers decision).mpr hmem)
    have hne : ∀ d, d ∈ s.accepted ∨ d ∈ s.abstained → d ≠ decision := by
      rintro d hd rfl
      exact hnew hd
    have hkeptAccepted : ∀ f ∈ s.accepted, f ∉ conflictsOf s decision → ∀ other,
        Conflict (seen ++ [decision]) f other → decisionKey other ≤ decisionKey f ∧
          ∃ third, third ≠ f ∧ Conflict (seen ++ [decision]) other third := by
      intro f hf hnot other hother
      have hotherNe : other ≠ decision := by
        rintro rfl
        exact hnot (mem_conflictsOf.mpr ⟨hf, hother.overlap.symm⟩)
      obtain ⟨hle, third, hthirdNe, hthird⟩ :=
        h.accepted f hf other (hold f other hother (hne f (.inl hf)) hotherNe)
      exact ⟨hle, third, hthirdNe, hthird.mono hsub⟩
    rcases hcases with ⟨hunresolved, haccepted, habstained⟩ |
      ⟨hresolved, ⟨hnone, haccepted, habstained⟩ | ⟨hsome, heq⟩⟩
    · constructor
      case abstained =>
        intro d hd hdResolved
        rw [habstained, mem_append, mem_singleton] at hd
        rcases hd with hd | rfl
        · obtain ⟨other, hother⟩ := h.abstained d hd hdResolved
          exact ⟨other, hother.mono hsub⟩
        · exact absurd hdResolved hunresolved
      case accepted =>
        intro f hf other hother
        rw [haccepted] at hf
        have hotherNe : other ≠ decision := by
          rintro rfl
          exact hunresolved hother.right.2
        obtain ⟨hle, third, hthirdNe, hthird⟩ :=
          h.accepted f hf other (hold f other hother (hne f (.inl hf)) hotherNe)
        exact ⟨hle, third, hthirdNe, hthird.mono hsub⟩
    · constructor
      case abstained =>
        intro d hd hdResolved
        rw [habstained] at hd
        obtain ⟨other, hother⟩ := h.abstained d hd hdResolved
        exact ⟨other, hother.mono hsub⟩
      case accepted =>
        intro f hf other hother
        rw [haccepted, mem_append, mem_singleton] at hf
        rcases hf with hf | rfl
        · exact hkeptAccepted f hf (by rw [hnone]; exact not_mem_nil) other hother
        · -- the decisions that the new one overlaps have been abstained from, each for another
          have hotherSeen : other ∈ seen := by
            rcases mem_append.mp hother.right.1 with hmem | hmem
            · exact hmem
            · exact absurd (mem_singleton.mp hmem).symm hother.ne
          have hotherAbstained : other ∈ s.abstained := by
            rcases (hparts.covers other).mpr hotherSeen with hin | hin
            · have := mem_conflictsOf.mpr ⟨hin, hother.overlap⟩
              rw [hnone] at this
              exact absurd this not_mem_nil
            · exact hin
          obtain ⟨third, hthird⟩ := h.abstained other hotherAbstained hother.right.2
          refine ⟨hsorted other hotherSeen, third, ?_, hthird.mono hsub⟩
          rintro rfl
          exact hfresh hthird.right.1
    · have habstains : keptOf policy decision (conflictsOf s decision) = [] := by
        unfold keptOf abstainsFrom
        simp [hstrategy]
      obtain ⟨haccepted, habstained⟩ :=
      resolveConflict_eq policy s decision (conflictsOf s decision)
      rw [habstains] at haccepted habstained
      rw [heq]
      have hwith : ∀ item ∈ conflictsOf s decision,
          Conflict (seen ++ [decision]) decision item := fun item hitem =>
        conflict_of_conflictsOf hparts hsub ⟨hdecision, hresolved⟩ hnew hitem
      constructor
      case abstained =>
        intro d hd hdResolved
        rw [habstained, mem_append] at hd
        rcases hd with hd | hd
        · obtain ⟨other, hother⟩ := h.abstained d hd hdResolved
          exact ⟨other, hother.mono hsub⟩
        · have hmem := (mem_filter.mp hd).1
          rw [mem_append, mem_singleton] at hmem
          rcases hmem with hmem | rfl
          · exact ⟨decision, (hwith d hmem).symm⟩
          · obtain ⟨item, hitem⟩ := exists_mem_of_ne_nil _ hsome
            exact ⟨item, hwith item hitem⟩
      case accepted =>
        intro f hf other hother
        rw [haccepted, append_nil] at hf
        have hparts' := mem_filter.mp hf
        exact hkeptAccepted f hparts'.1 (by simpa using hparts'.2) other hother

theorem abstains_adjudicateAll : ∀ {ordered : List FusionDecision},
      ordered.Pairwise (fun a b => decisionKey a ≤ decisionKey b) →
      Abstains ordered (adjudicateAll policy ordered) := by
  intro ordered
  induction ordered using reverseRecOn with
  | nil =>
    intro _
    constructor <;> simp [adjudicateAll]
  | append_singleton ordered decision ih =>
    intro hsorted
    obtain ⟨hbefore, _, hlast⟩ := pairwise_append.mp hsorted
    have hparts := partitions_adjudicateAll policy ordered
    have hprevious := ih hbefore
    unfold adjudicateAll at hparts hprevious ⊢
    rw [foldl_append]
    exact hprevious.step hstrategy hparts fun d hd => hlast d hd decision mem_cons_self

end

/-! ## The result -/

theorem conflict_sortedBy :
    Conflict (sortedBy decisionKey decisions) a b ↔ Conflict decisions a b := by
  constructor
  · intro h
    exact h.mono fun d hd => mem_sortedBy.mp hd
  · intro h
    exact h.mono fun d hd => mem_sortedBy.mpr hd

variable (decisions result) in
/-- How the abstentions of a result are justified, and its final decisions, under the strategies
that keep a winner. -/
def WinnersJustified : Prop :=
  ∀ d ∈ result.abstained, d.ambiguityState = "RESOLVED" →
    ∃ f ∈ result.finalDecisions, d.confidence ≤ f.confidence ∧ LinkedBy decisions d f ∧
      (AtMostPairs decisions → Overlap d f)

variable (decisions result) in
/-- The same for `ABSTAIN_ON_CONFLICT`, for one of the given decisions. -/
structure AbstentionsJustified (d : FusionDecision) : Prop where
  alone : Alone decisions d → d ∈ result.finalDecisions
  abstained : d ∈ result.abstained → d.ambiguityState = "RESOLVED" →
    ∃ other, Conflict decisions d other
  final : d ∈ result.finalDecisions → d.ambiguityState = "RESOLVED" ∧
    ∀ other, Conflict decisions d other → other ∈ result.abstained ∧
      decisionKey other ≤ decisionKey d ∧ ∃ third, third ≠ d ∧ Conflict decisions other third
  pairs : AtMostPairs decisions → (d ∈ result.finalDecisions ↔ Alone decisions d)

theorem resultOf_winnersJustified (hone : OnePerEvent decisions)
    (hstrategy : policy.conflictResolutionStrategy ≠ .abstainOnConflict)
    (hmargin : policy.confidenceMargin = 0) :
    WinnersJustified decisions (resultOf policy decisions) := by
  obtain ⟨hfinal, habstained⟩ := resultOf_perm policy hone
  have hpartitioned := resultOf_partitioned policy hone
  have houtranked : Outranked decisions (adjudicateAll policy (sortedBy decisionKey decisions)) :=
    outranked_adjudicateAll hstrategy hmargin fun d hd => mem_sortedBy.mp hd
  intro d hd hresolved
  obtain ⟨f, hf, hle, hlink⟩ := houtranked d (habstained.mem_iff.mp hd) hresolved
  have hfinalMem : f ∈ (resultOf policy decisions).finalDecisions := hfinal.mem_iff.mpr hf
  refine ⟨f, hfinalMem, hle, hlink, fun hpairs => ?_⟩
  rcases hlink.eq_or_conflict hpairs with rfl | hconflict
  · exact absurd hd (hpartitioned.apart f hfinalMem)
  · exact hconflict.overlap

theorem resultOf_abstentionsJustified (hone : OnePerEvent decisions)
    (hstrategy : policy.conflictResolutionStrategy = .abstainOnConflict)
    {d : FusionDecision} (hd : d ∈ decisions) :
    AbstentionsJustified decisions (resultOf policy decisions) d := by
  obtain ⟨hfinal, habstained⟩ := resultOf_perm policy hone
  have hpartitioned := resultOf_partitioned policy hone
  have h : Abstains (sortedBy decisionKey decisions)
      (adjudicateAll policy (sortedBy decisionKey decisions)) :=
    abstains_adjudicateAll hstrategy (sortedBy_pairwise decisionKey decisions)
  have hstays : d ∈ (resultOf policy decisions).abstained → d.ambiguityState = "RESOLVED" →
      ∃ other, Conflict decisions d other := by
    intro hin hresolved
    obtain ⟨other, hother⟩ := h.abstained d (habstained.mem_iff.mp hin) hresolved
    exact ⟨other, conflict_sortedBy.mp hother⟩
  have halone : Alone decisions d → d ∈ (resultOf policy decisions).finalDecisions := by
    rintro ⟨⟨_, hresolved⟩, hnone⟩
    rcases (hpartitioned.covers d).mpr hd with hin | hin
    · exact hin
    · obtain ⟨other, hother⟩ := hstays hin hresolved
      exact absurd hother (hnone other)
  have hends : d ∈ (resultOf policy decisions).finalDecisions → d.ambiguityState = "RESOLVED" ∧
      ∀ other, Conflict decisions d other → other ∈ (resultOf policy decisions).abstained ∧
        decisionKey other ≤ decisionKey d ∧ ∃ third, third ≠ d ∧ Conflict decisions other third := by
    intro hin
    have hresolved : d.ambiguityState = "RESOLVED" := by
      by_contra hunresolved
      exact hpartitioned.apart d hin (hpartitioned.unresolved d hd hunresolved)
    refine ⟨hresolved, fun other hother => ?_⟩
    obtain ⟨hle, third, hne, hthird⟩ :=
      h.accepted d (hfinal.mem_iff.mp hin) other (conflict_sortedBy.mpr hother)
    refine ⟨?_, hle, third, hne, conflict_sortedBy.mp hthird⟩
    -- the final decisions do not overlap
    rcases (hpartitioned.covers other).mpr hother.right.1 with hboth | hboth
    · have hsymmetric : Std.Symm fun a b : FusionDecision => ¬Overlap a b :=
        ⟨fun _ _ hab hba => hab hba.symm⟩
      exact absurd hother.overlap (hpartitioned.disjoint.forall hin hboth hother.ne)
    · exact hboth
  refine ⟨halone, hstays, hends, fun hpairs => ⟨fun hin => ?_, halone⟩⟩
  obtain ⟨hresolved, hall⟩ := hends hin
  refine ⟨⟨hd, hresolved⟩, fun other hother => ?_⟩
  obtain ⟨_, _, third, hne, hthird⟩ := hall other hother
  exact hne (hpairs other third d hthird hother.symm)

/-- Without a margin a winner is kept that every abstained decision is linked to and does not
exceed; under `ABSTAIN_ON_CONFLICT` what overlaps nothing is final, what is abstained from overlaps
something, and a final decision overlaps only earlier ones that a third decision removed. -/
theorem conflicts_justified (hresult : adjudicate decisions policy = .ok result) :
    (policy.conflictResolutionStrategy ≠ .abstainOnConflict → policy.confidenceMargin = 0 →
      WinnersJustified decisions result) ∧
    (policy.conflictResolutionStrategy = .abstainOnConflict →
      ∀ d ∈ decisions, AbstentionsJustified decisions result d) := by
  rw [adjudicate_eq] at hresult
  by_cases hone : OnePerEvent decisions
  · rw [if_pos hone] at hresult
    cases hresult
    exact ⟨resultOf_winnersJustified hone,
      fun hstrategy _ => resultOf_abstentionsJustified hone hstrategy⟩
  · rw [if_neg hone] at hresult
    cases hresult

/-- A decision of the samples, with a confidence in tenths. -/
def sampleDecision (eventId : OpaqueUuid) (interval : NanosecondInterval) (tenths : ℕ) :
    FusionDecision where
  eventId
  interval
  actionType := "handoff"
  confidence := tenths / 10
  ambiguityState := "RESOLVED"
  supportingCameraCount := 2
  evidenceDigest := "d"
  policyVersion := "v1"
  productionEligible := false

theorem samplePolicy_nonneg : (0 : ℚ) ≤ 0 := le_refl 0

theorem samplePolicy_upper : (0 : ℚ) ≤ 1 := zero_le_one

def samplePolicy (strategy : ConflictResolutionStrategy) : AdjudicationPolicy where
  version := "v1"
  conflictResolutionStrategy := strategy
  confidenceMargin := 0
  marginNonneg := samplePolicy_nonneg
  marginUpper := samplePolicy_upper

theorem sampleSpan_bounds : int64Min ≤ 0 ∧ (34 : Int) ≤ int64Max := by decide

/-- The interval of the samples from `start` to `start + 1 + length`. -/
def sampleSpan (start : Fin 32) (length : Fin 3) : NanosecondInterval where
  startNs := start
  endNs := start + 1 + length
  lower := by
    have := sampleSpan_bounds
    omega
  upper := by
    have := sampleSpan_bounds
    omega
  nonempty := by omega

/-- Two decisions apart from each other, and a less confident one that overlaps both. -/
def sampleStar : List FusionDecision :=
  [sampleDecision "a" (sampleSpan 0 1) 9, sampleDecision "b" (sampleSpan 3 1) 8,
    sampleDecision "c" (sampleSpan 1 2) 5]

/-- Three decisions, each of which overlaps the next. -/
def sampleChain : List FusionDecision :=
  [sampleDecision "a" (sampleSpan 0 1) 9, sampleDecision "b" (sampleSpan 1 1) 8,
    sampleDecision "c" (sampleSpan 2 1) 7]

/-- A winner on the star, and what is abstained from on the chain. -/
theorem conflicts_justified_star_and_chain :
    (adjudicate sampleStar (samplePolicy .highestConfidence) =
        .ok (resultOf (samplePolicy .highestConfidence) sampleStar) ∧
      WinnersJustified sampleStar (resultOf (samplePolicy .highestConfidence) sampleStar)) ∧
    adjudicate sampleChain (samplePolicy .abstainOnConflict) =
        .ok (resultOf (samplePolicy .abstainOnConflict) sampleChain) ∧
      ∀ d ∈ sampleChain, AbstentionsJustified sampleChain
        (resultOf (samplePolicy .abstainOnConflict) sampleChain) d := by
  have hstar : adjudicate sampleStar (samplePolicy .highestConfidence) =
      .ok (resultOf (samplePolicy .highestConfidence) sampleStar) := by decide +kernel
  have hchain : adjudicate sampleChain (samplePolicy .abstainOnConflict) =
      .ok (resultOf (samplePolicy .abstainOnConflict) sampleChain) := by decide +kernel
  exact ⟨⟨hstar, (conflicts_justified hstar).1 (by decide) rfl⟩, hchain,
    (conflicts_justified hchain).2 rfl⟩

/-- The star loses its second decision to the first one, which it does not overlap; of the chain
the last decision becomes final although it overlaps the second. -/
theorem star_and_chain :
    (∃ result, adjudicate sampleStar (samplePolicy .highestConfidence) = .ok result ∧
      ∃ d ∈ result.abstained, d.ambiguityState = "RESOLVED" ∧
        ∀ f ∈ result.finalDecisions, d.confidence ≤ f.confidence → ¬Overlap d f) ∧
    ∃ result, adjudicate sampleChain (samplePolicy .abstainOnConflict) = .ok result ∧
      ∃ d ∈ result.finalDecisions, ∃ other ∈ sampleChain, other.ambiguityState = "RESOLVED" ∧
        other ≠ d ∧ Overlap d other := by
  refine ⟨⟨resultOf (samplePolicy .highestConfidence) sampleStar, ?_, ?_⟩,
    ⟨resultOf (samplePolicy .abstainOnConflict) sampleChain, ?_, ?_⟩⟩
  all_goals decide +kernel

end Robata.Adjudication
