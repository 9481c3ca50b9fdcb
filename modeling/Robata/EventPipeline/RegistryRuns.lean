import Robata.EventPipeline.Registry

/-!
# Interleaved callers of the event identity registry

A commit succeeds only on the generation its snapshot was read at, and a
partition does not change within a generation.  So a mutation is always applied
to the very state it was prepared against, and what the preparation loop
establishes of its working copy holds of the partition afterwards: at most one
identity has a fingerprint, and every assignment names the identity with the
fingerprint of its hypothesis.
-/

namespace Robata.EventPipeline

open Contracts Lib List
open Function (forall_update_iff update update_of_ne update_self)

variable {H : Hashing}

/-! ## One preparation -/

/-- A hypothesis is a new event, or the one that has its fingerprint. -/
def Resolves (identities : List StableEventIdentity) (hypothesis : PlatformEnrichedEventHypothesis)
    (resolution : EventIdentityResolution) : Prop :=
  (resolution.disposition = .created ∧ resolution.selectedEventId = none ∧
    resolution.candidates = [] ∧
    ∀ i ∈ identities, i.semanticFingerprintSha256 ≠ hypothesis.semanticFingerprintSha256) ∨
  ∃ i ∈ identities, i.semanticFingerprintSha256 = hypothesis.semanticFingerprintSha256 ∧
    resolution.disposition = .reused ∧ resolution.selectedEventId = some i.eventId ∧
    ∀ candidate ∈ resolution.candidates, candidate.relation = .sameEvent

section Service

variable {resolution : EventIdentityResolution} {service : EventIdentityRegistryService}

theorem resolve_spec {hypothesis : PlatformEnrichedEventHypothesis}
    {snapshot : EventRegistrySnapshot}
    (hdistinct : (snapshot.identities.map (·.semanticFingerprintSha256)).Nodup)
    (h : resolve hypothesis snapshot = .ok resolution) :
    Resolves snapshot.identities hypothesis resolution := by
  unfold resolve at h
  simp only [bind_eq_ok] at h
  obtain ⟨-, -, h⟩ := h
  split at h
  · rename_i hnone
    cases h
    refine .inl ⟨rfl, rfl, rfl, ?_⟩
    intro i hi heq
    rw [filter_eq_nil_iff] at hnone
    exact hnone i hi (beq_iff_eq.mpr heq)
  · rename_i item hone
    cases h
    have hitem : item ∈ snapshot.identities.filter fun i =>
        i.semanticFingerprintSha256 == hypothesis.semanticFingerprintSha256 := by
      rw [hone]
      exact mem_singleton_self item
    rw [mem_filter, beq_iff_eq] at hitem
    refine .inr ⟨item, hitem.1, hitem.2, rfl, rfl, ?_⟩
    intro candidate hcandidate
    rw [mem_singleton] at hcandidate
    rw [hcandidate]
  · -- two matches would share a fingerprint
    rename_i hmany hmore
    exfalso
    have hlen : (snapshot.identities.filter fun i =>
        i.semanticFingerprintSha256 == hypothesis.semanticFingerprintSha256).length ≤ 1 := by
      have hcount := nodup_iff_count_le_one.mp hdistinct hypothesis.semanticFingerprintSha256
      rw [List.count, countP_map, countP_eq_length_filter] at hcount
      exact hcount
    cases hfilter : snapshot.identities.filter fun i =>
        i.semanticFingerprintSha256 == hypothesis.semanticFingerprintSha256 with
    | nil => exact hmany hfilter
    | cons first rest =>
      cases rest with
      | nil => exact hmore first hfilter
      | cons second rest =>
        rw [hfilter] at hlen
        simp at hlen

/-- The rows a call may find stored for a hypothesis. -/
def Answers (H : Hashing) (policy : EventIdentityPolicyRef)
    (hypothesis : PlatformEnrichedEventHypothesis) (assignment : EventIdentityAssignment) : Prop :=
  assignmentIdempotencyKey assignment = hypothesisIdempotencyKey H hypothesis policy

/-- An assignment made for a hypothesis, and the identity it names. -/
def Identified (H : Hashing) (identities : List StableEventIdentity)
    (hypothesis : PlatformEnrichedEventHypothesis) (assignment : EventIdentityAssignment) : Prop :=
  assignment.recordingIdentity = hypothesis.recordingIdentity ∧
    assignment.eventHypothesisLogicalKey = hypothesis.logicalKey H ∧
    assignment.disposition ≠ .ambiguous ∧
    ∃ i ∈ identities, i.eventId = assignment.eventId ∧
      i.semanticFingerprintSha256 = hypothesis.semanticFingerprintSha256

theorem Identified.mono {identities identities' : List StableEventIdentity}
    {hypothesis : PlatformEnrichedEventHypothesis} {assignment : EventIdentityAssignment}
    (h : Identified H identities hypothesis assignment) (hsub : identities ⊆ identities') :
    Identified H identities' hypothesis assignment := by
  obtain ⟨hrecording, hkey, hdisposition, i, hi, hid⟩ := h
  exact ⟨hrecording, hkey, hdisposition, i, hsub hi, hid⟩

/-- What holds of the loop variables when the hypotheses `done` are processed. -/
structure PreparedFrom (H : Hashing) (service : EventIdentityRegistryService)
    (snapshot : EventRegistrySnapshot) (done : List PlatformEnrichedEventHypothesis)
    (p : Preparation) : Prop where
  existing : p.existing = p.newAssignments.reverse ++ snapshot.assignments.reverse
  working : p.workingIdentities = snapshot.identities ++ p.newIdentities
  distinct : (p.workingIdentities.map (·.semanticFingerprintSha256)).Nodup
  created : ∀ i ∈ p.newIdentities, i.creationDisposition = .created
  identified : ∀ a ∈ p.newAssignments, ∃ hypothesis ∈ done,
    Identified H p.workingIdentities hypothesis a
  outbox : p.outbox = p.newAssignments.map (outboxRecord H)
  results : List.Forall₂ (Answers H service.policy) done p.results
  known : ∀ a ∈ p.results, a ∈ snapshot.assignments ∨ a ∈ p.newAssignments

namespace PreparedFrom

variable {snapshot : EventRegistrySnapshot}
  {done : List PlatformEnrichedEventHypothesis} {p : Preparation}
  {hypothesis : PlatformEnrichedEventHypothesis}

theorem start (hdistinct : (snapshot.identities.map (·.semanticFingerprintSha256)).Nodup) :
    PreparedFrom H service snapshot [] (Preparation.start snapshot) where
  existing := rfl
  working := (append_nil _).symm
  distinct := hdistinct
  created := forall_mem_nil _
  identified := forall_mem_nil _
  outbox := rfl
  results := .nil
  known := forall_mem_nil _

variable {a : EventIdentityAssignment}

variable (hp : PreparedFrom H service snapshot done p)
include hp

theorem results_append (ha : Answers H service.policy hypothesis a) :
    List.Forall₂ (Answers H service.policy) (done ++ [hypothesis]) (p.results ++ [a]) :=
  rel_append hp.results (.cons ha .nil)

theorem replay (ha : Answers H service.policy hypothesis a) (hmem : a ∈ p.existing) :
    PreparedFrom H service snapshot (done ++ [hypothesis])
      { p with
        results := p.results ++ [a]
        replayedKeys := p.replayedKeys ++ [a.assignmentLogicalKey] } where
  existing := hp.existing
  working := hp.working
  distinct := hp.distinct
  created := hp.created
  identified := by
    intro b hb
    obtain ⟨h', hh', hid⟩ := hp.identified b hb
    exact ⟨h', mem_append_left _ hh', hid⟩
  outbox := hp.outbox
  results := hp.results_append ha
  known := by
    intro b hb
    rw [mem_append, mem_singleton] at hb
    rcases hb with hold | rfl
    · exact hp.known b hold
    · rw [hp.existing, mem_append, mem_reverse, mem_reverse] at hmem
      exact hmem.symm

theorem assign (ha : Answers H service.policy hypothesis a)
    (hid : Identified H p.workingIdentities hypothesis a) :
    PreparedFrom H service snapshot (done ++ [hypothesis]) (p.assign H a resolution) where
  existing := by
    show a :: p.existing = (p.newAssignments ++ [a]).reverse ++ _
    rw [hp.existing, reverse_append]
    rfl
  working := hp.working
  distinct := hp.distinct
  created := hp.created
  identified := by
    refine forall_mem_append.mpr ⟨fun b hb => ?_, forall_mem_singleton.mpr
      ⟨hypothesis, mem_append_right _ (mem_singleton_self _), hid⟩⟩
    obtain ⟨h', hh', hid'⟩ := hp.identified b hb
    exact ⟨h', mem_append_left _ hh', hid'⟩
  outbox := by
    show p.outbox ++ [outboxRecord H a] = (p.newAssignments ++ [a]).map (outboxRecord H)
    rw [hp.outbox, map_append]
    rfl
  results := hp.results_append ha
  known := by
    intro b hb
    rcases mem_append.mp hb with hold | hnew
    · exact (hp.known b hold).imp_right (mem_append_left _)
    · exact .inr (mem_append_right _ hnew)

theorem create {identity : StableEventIdentity} (hfresh : ∀ i ∈ p.workingIdentities,
      i.semanticFingerprintSha256 ≠ identity.semanticFingerprintSha256)
    (hcreated : identity.creationDisposition = .created) :
    PreparedFrom H service snapshot done (p.create identity) where
  existing := hp.existing
  working := by
    show p.workingIdentities ++ [identity] = _ ++ (p.newIdentities ++ [identity])
    rw [hp.working, append_assoc]
  distinct := by
    show ((p.workingIdentities ++ [identity]).map _).Nodup
    rw [map_append, nodup_append]
    refine ⟨hp.distinct, nodup_singleton _, ?_⟩
    intro x hx y hy
    obtain ⟨i, hi, rfl⟩ := mem_map.mp hx
    rw [map_singleton, mem_singleton] at hy
    subst hy
    exact hfresh i hi
  created := forall_mem_append.mpr ⟨hp.created, forall_mem_singleton.mpr hcreated⟩
  identified := by
    intro b hb
    obtain ⟨h', hh', hid⟩ := hp.identified b hb
    exact ⟨h', hh', hid.mono (subset_append_left _ _)⟩
  outbox := hp.outbox
  results := hp.results
  known := hp.known

end PreparedFrom

theorem distinct_sortedIdentities {identities : List StableEventIdentity}
    (h : (identities.map (·.semanticFingerprintSha256)).Nodup) :
    ((sortedIdentities identities).map (·.semanticFingerprintSha256)).Nodup :=
  ((perm_insertionSort _ identities).map _).nodup_iff.mpr h

variable {snapshot : EventRegistrySnapshot}

theorem Preparation.resolution_spec {p : Preparation} {hypothesis : PlatformEnrichedEventHypothesis}
    (hdistinct : (p.workingIdentities.map (·.semanticFingerprintSha256)).Nodup)
    (h : p.resolution snapshot hypothesis = .ok resolution) :
    Resolves p.workingIdentities hypothesis resolution := by
  unfold Preparation.resolution Preparation.workingSnapshot at h
  simp only [bind_eq_ok] at h
  obtain ⟨working, ⟨-, -, hworking⟩, resolved, hresolved, -, -, -, -, h⟩ := h
  cases h
  cases hworking
  have hspec := resolve_spec (distinct_sortedIdentities hdistinct) hresolved
  simpa only [Resolves, sortedIdentities, mem_insertionSort] using hspec

variable {decidedAt : String} {allocator : Nat → Allocation}

theorem prepareHypothesis_spec {done : List PlatformEnrichedEventHypothesis} {p p' : Preparation}
    {hypothesis : PlatformEnrichedEventHypothesis}
    (hp : PreparedFrom H service snapshot done p)
    (h : prepareHypothesis H service snapshot decidedAt allocator p hypothesis = .ok p') :
    PreparedFrom H service snapshot (done ++ [hypothesis]) p' := by
  unfold prepareHypothesis at h
  split at h
  · rename_i a hfound
    obtain ⟨-, -, h⟩ := bind_eq_ok.mp h
    cases h
    have hkey := find?_some hfound
    rw [beq_iff_eq] at hkey
    exact hp.replay hkey (mem_of_find?_eq_some hfound)
  · obtain ⟨resolution, hresolution, h⟩ := bind_eq_ok.mp h
    rcases Preparation.resolution_spec hp.distinct hresolution with
      ⟨hcreated, hselected, -, hfresh⟩ | ⟨i, hi, hfingerprint, hreused, hselected, -⟩
    · rw [hcreated] at h
      simp only [bind_eq_ok] at h
      obtain ⟨eventId, -, h⟩ := h
      cases h
      refine (hp.create hfresh ?_).assign rfl ⟨rfl, rfl, ?_, ?_⟩
      · show (if resolution.disposition = .ambiguous then _ else _) = _
        rw [hcreated]
        rfl
      · show resolution.disposition ≠ .ambiguous
        rw [hcreated]
        decide
      · exact ⟨_, mem_append_right _ (mem_singleton_self _), rfl, rfl⟩
    · rw [hreused, hselected] at h
      cases h
      refine hp.assign rfl ⟨rfl, rfl, ?_, i, hi, rfl, hfingerprint⟩
      show resolution.disposition ≠ .ambiguous
      rw [hreused]
      decide

variable {hypotheses : List PlatformEnrichedEventHypothesis}

theorem prepareMutation_spec {p : Preparation}
    (hdistinct : (snapshot.identities.map (·.semanticFingerprintSha256)).Nodup)
    (h : prepareMutation H service snapshot decidedAt allocator hypotheses = .ok p) :
    PreparedFrom H service snapshot hypotheses p := by
  have hround : ∀ hypothesis rest (p p' : Preparation),
      (∃ done, done ++ hypothesis :: rest = hypotheses ∧ PreparedFrom H service snapshot done p) →
      prepareHypothesis H service snapshot decidedAt allocator p hypothesis = .ok p' →
      ∃ done, done ++ rest = hypotheses ∧ PreparedFrom H service snapshot done p' := by
    rintro hypothesis rest p p' ⟨done, hdone, hp⟩ hstep
    refine ⟨done ++ [hypothesis], ?_, prepareHypothesis_spec hp hstep⟩
    rw [← hdone, append_assoc]
    rfl
  obtain ⟨done, hdone, hp⟩ := foldlM_invariant
    (fun rest p => ∃ done, done ++ rest = hypotheses ∧ PreparedFrom H service snapshot done p)
    hround hypotheses _ p ⟨[], rfl, PreparedFrom.start hdistinct⟩ h
  rw [append_nil] at hdone
  rw [← hdone]
  exact hp

/-! ## One commit -/

theorem validateNewAssignments_spec {state : RecordingRegistryState} {known : List OpaqueUuid} :
    ∀ {assignments : List EventIdentityAssignment} {seen : List IdempotencyKey},
      validateNewAssignments state known seen assignments = .ok () →
      (assignments.map assignmentIdempotencyKey).Nodup ∧
        ∀ a ∈ assignments, state.assignments.find? (assignmentIdempotencyKey a) = none ∧
          assignmentIdempotencyKey a ∉ seen := by
  intro assignments
  induction assignments with
  | nil =>
    intro seen _
    exact ⟨nodup_nil, forall_mem_nil _⟩
  | cons a rest ih =>
    intro seen h
    unfold validateNewAssignments at h
    simp only [bind_eq_ok, refuse_eq_ok, Bool.or_eq_false_iff, Option.isSome_eq_false_iff,
      Option.isNone_iff_eq_none] at h
    obtain ⟨-, ⟨hnew, hseen⟩, -, -, h⟩ := h
    obtain ⟨hnodup, hrest⟩ := ih h
    have hseen' : assignmentIdempotencyKey a ∉ seen := by simpa using hseen
    refine ⟨?_, ?_⟩
    · rw [map_cons, nodup_cons]
      refine ⟨?_, hnodup⟩
      intro hmem
      obtain ⟨b, hb, hkey⟩ := mem_map.mp hmem
      exact (hrest b hb).2 (hkey ▸ mem_cons_self)
    · intro b hb
      rcases mem_cons.mp hb with rfl | hb
      · exact ⟨hnew, hseen'⟩
      · exact ⟨(hrest b hb).1, fun hmem => (hrest b hb).2 (mem_cons_of_mem _ hmem)⟩

/-- What a commit that is let through has checked. -/
structure Committable (m : EventIdentityRegistryMutation) (state : RecordingRegistryState) :
    Prop where
  generation : state.generation = m.expectedGeneration
  nextGeneration : m.nextGeneration = state.generation + 1
  identityScope : ∀ i ∈ m.identities, i.recordingIdentity = m.recordingIdentity
  identityIds : (m.identities.map (·.eventId)).Nodup
  newIdentities : ∀ i ∈ m.identities, state.identities.find? i.eventId = none
  assignmentKeys : (m.assignments.map assignmentIdempotencyKey).Nodup
  newAssignments : ∀ a ∈ m.assignments, state.assignments.find? (assignmentIdempotencyKey a) = none
  outboxIds : (m.outbox.map (·.outboxId)).Nodup
  newOutbox : ∀ o ∈ m.outbox, state.outbox.find? o.outboxId = none

variable {repository : Repository}

theorem validateCommit_spec {m : EventIdentityRegistryMutation}
    (h : validateCommit m repository = .ok ()) :
    Committable m (repository.states m.recordingIdentity) := by
  unfold validateCommit validateCommitLocked at h
  simp only [bind_eq_ok, refuse_eq_ok, raiseAs_eq_ok] at h
  obtain ⟨_, hm, _, hfence, _, hids, _, hnewIds, _, -, _, hassignments, _, -, _, -, _, houtbox,
    -⟩ := h
  unfold validateMutation at hm
  simp only [bind_eq_ok, reject_eq_ok] at hm
  obtain ⟨_, hnext, _, -, _, -, _, hscope, -⟩ := hm
  simp only [Bool.or_eq_false_iff, bne_eq_false_iff_eq, any_eq_false, mem_map,
    decide_eq_false_iff_not, not_not, Option.not_isSome_iff_eq_none, forall_exists_index,
    and_imp, forall_apply_eq_imp_iff₂, bne_iff_ne] at hfence hids hnewIds houtbox hnext hscope
  obtain ⟨hkeys, hnew⟩ := validateNewAssignments_spec hassignments
  exact {
    generation := hfence.1
    nextGeneration := by rw [hnext, hfence.1]
    identityScope := hscope.1.1.1
    identityIds := hids
    newIdentities := hnewIds
    assignmentKeys := hkeys
    newAssignments := fun a ha => (hnew a ha).1
    outboxIds := houtbox.1
    newOutbox := houtbox.2 }

section Apply

variable {m : EventIdentityRegistryMutation} {state : RecordingRegistryState}

variable (h : Committable m state)
include h

theorem Committable.identities_rows :
    (state.apply m).identities.rows = state.identities.rows ++ m.identities :=
  KeyedTable.rows_foldl_upsert h.identityIds h.newIdentities

theorem Committable.assignments_rows :
    (state.apply m).assignments.rows = state.assignments.rows ++ m.assignments :=
  KeyedTable.rows_foldl_upsert h.assignmentKeys h.newAssignments

theorem Committable.outbox_rows : (state.apply m).outbox.rows = state.outbox.rows ++ m.outbox :=
  KeyedTable.rows_foldl_upsert h.outboxIds h.newOutbox

end Apply

/-- How a partition may change: rows are appended, and only together with a new
generation. -/
structure Grows (before after : RecordingRegistryState) : Prop where
  generation : before.generation ≤ after.generation
  unchanged : before.generation = after.generation → before = after
  identities : before.identities.rows <+: after.identities.rows
  assignments : before.assignments.rows <+: after.assignments.rows
  outbox : before.outbox.rows <+: after.outbox.rows

theorem Grows.refl (state : RecordingRegistryState) : Grows state state :=
  ⟨le_rfl, fun _ => rfl, prefix_rfl, prefix_rfl, prefix_rfl⟩

theorem Grows.trans {a b c : RecordingRegistryState} (hab : Grows a b) (hbc : Grows b c) :
    Grows a c where
  generation := hab.generation.trans hbc.generation
  unchanged := by
    intro heq
    have hle := hab.generation
    have hle' := hbc.generation
    rw [hab.unchanged (by omega), hbc.unchanged (by omega)]
  identities := hab.identities.trans hbc.identities
  assignments := hab.assignments.trans hbc.assignments
  outbox := hab.outbox.trans hbc.outbox

variable {state : RecordingRegistryState} {m : EventIdentityRegistryMutation}

theorem Committable.grows (h : Committable m state) : Grows state (state.apply m) where
  generation := by
    show state.generation ≤ m.nextGeneration
    rw [h.nextGeneration]
    omega
  unchanged := by
    intro heq
    have hnext : state.generation = m.nextGeneration := heq
    rw [h.nextGeneration] at hnext
    omega
  identities := h.identities_rows ▸ prefix_append _ _
  assignments := h.assignments_rows ▸ prefix_append _ _
  outbox := h.outbox_rows ▸ prefix_append _ _

/-- What holds of the partition of a recording, when only hypotheses of `U` have
been submitted. -/
structure RecordingSound (H : Hashing) (U : Set PlatformEnrichedEventHypothesis)
    (recordingIdentity : Sha256Digest) (state : RecordingRegistryState) : Prop where
  scope : ∀ i ∈ state.identities.rows, i.recordingIdentity = recordingIdentity
  distinct : (state.identities.rows.map (·.semanticFingerprintSha256)).Nodup
  created : ∀ i ∈ state.identities.rows, i.creationDisposition = .created
  identified : ∀ a ∈ state.assignments.rows, ∃ hypothesis ∈ U,
    hypothesis.recordingIdentity = recordingIdentity ∧
      Identified H state.identities.rows hypothesis a
  outbox : state.outbox.rows = state.assignments.rows.map (outboxRecord H)

theorem RecordingSound.fresh (U : Set PlatformEnrichedEventHypothesis)
    (recordingIdentity : Sha256Digest) : RecordingSound H U recordingIdentity .fresh where
  scope := forall_mem_nil _
  distinct := nodup_nil
  created := forall_mem_nil _
  identified := forall_mem_nil _
  outbox := rfl

variable {U : Set PlatformEnrichedEventHypothesis}

theorem RecordingSound.apply {recordingIdentity : Sha256Digest} {p : Preparation}
    (hsound : RecordingSound H U recordingIdentity state)
    (hU : ∀ h ∈ hypotheses, h ∈ U ∧ h.recordingIdentity = recordingIdentity)
    (hp : PreparedFrom H service (snapshotLocked recordingIdentity state) hypotheses p)
    (hm : p.mutation (snapshotLocked recordingIdentity state) = some m)
    (hcommit : Committable m state) : RecordingSound H U recordingIdentity (state.apply m) := by
  unfold Preparation.mutation at hm
  split at hm
  · cases hm
  cases hm
  have hperm : p.workingIdentities.Perm (state.identities.rows ++ p.newIdentities) := by
    rw [hp.working]
    exact (perm_insertionSort _ _).append_right _
  constructor
  · rw [hcommit.identities_rows]
    exact forall_mem_append.mpr ⟨hsound.scope, hcommit.identityScope⟩
  · rw [hcommit.identities_rows]
    exact (hperm.map _).nodup_iff.mp hp.distinct
  · rw [hcommit.identities_rows]
    exact forall_mem_append.mpr ⟨hsound.created, hp.created⟩
  · rw [hcommit.assignments_rows, hcommit.identities_rows]
    intro a ha
    rcases mem_append.mp ha with hold | hnew
    · obtain ⟨h', hh', hrecording, hid⟩ := hsound.identified a hold
      exact ⟨h', hh', hrecording, hid.mono (subset_append_left _ _)⟩
    · obtain ⟨h', hh', hid⟩ := hp.identified a hnew
      exact ⟨h', (hU h' hh').1, (hU h' hh').2, hid.mono hperm.subset⟩
  · rw [hcommit.outbox_rows, hcommit.assignments_rows, map_append, hsound.outbox]
    exact congrArg _ hp.outbox

/-! ## Calls -/

/-- Every partition is sound, and partitions only grow. -/
def registryDiscipline (H : Hashing) (U : Set PlatformEnrichedEventHypothesis) :
    Discipline Repository where
  Inv repository := ∀ r, RecordingSound H U r (repository.states r)
  G before after := ∀ r, Grows (before.states r) (after.states r)
  refl _ _ := .refl _
  trans h h' r := (h r).trans (h' r)

/-- The assignment stored for a hypothesis under a policy. -/
def Repository.stored (repository : Repository) (H : Hashing) (policy : EventIdentityPolicyRef)
    (recordingIdentity : Sha256Digest) (hypothesis : PlatformEnrichedEventHypothesis) :
    Option EventIdentityAssignment :=
  (repository.states recordingIdentity).assignments.find?
    (hypothesisIdempotencyKey H hypothesis policy)

theorem Grows.stored {before after : RecordingRegistryState} (h : Grows before after)
    {key : IdempotencyKey} {a : EventIdentityAssignment}
    (ha : before.assignments.find? key = some a) : after.assignments.find? key = some a := by
  rw [KeyedTable.find?_eq_some_iff] at ha ⊢
  exact ⟨h.assignments.subset ha.1, ha.2⟩

/-- What a returned call has: for each hypothesis of its batch the assignment that
is stored, which is the one the call found if there was one. -/
def BatchPost (H : Hashing) (call : AssignBatch) (started : Repository)
    (result : Except EventIdentityRegistryError EventIdentityBatchResult)
    (repository : Repository) : Prop :=
  let recording := call.admittedContext.recordingIdentity
  ∀ res, result = .ok res → ∃ ordered : List PlatformEnrichedEventHypothesis,
    ordered.Perm call.hypotheses ∧
    List.Forall₂ (fun hypothesis a =>
      repository.stored H call.service.policy recording hypothesis = some a ∧
      ∀ original, started.stored H call.service.policy recording hypothesis = some original →
        a = original) ordered res.assignments

variable {ordered : List PlatformEnrichedEventHypothesis}

theorem validateAuthorityInputs_spec {context : AdmittedRecordingContextV2}
    {outputs : List OrchestratorEnrichedOutput}
    (h : validateAuthorityInputs H service context hypotheses outputs = .ok ordered) :
    ordered.Perm hypotheses ∧
      ∀ item ∈ ordered, item.recordingIdentity = context.recordingIdentity := by
  unfold validateAuthorityInputs at h
  simp only [bind_eq_ok] at h
  obtain ⟨_, -, _, -, _, -, _, -, _, -, proof, -, _, hall, _, -, h⟩ := h
  cases h
  refine ⟨perm_insertionSort _ _, ?_⟩
  intro item hitem
  rw [mem_insertionSort] at hitem
  have hchecked := forM_eq_ok_iff.mp hall item hitem
  unfold validateHypothesis at hchecked
  simp only [bind_eq_ok, refuse_eq_ok, bne_eq_false_iff_eq] at hchecked
  obtain ⟨_, hrecording, -⟩ := hchecked
  exact hrecording

theorem prepareValidatedBatch_spec {prepared : PreparedEventIdentityBatch}
    (hdistinct : (snapshot.identities.map (·.semanticFingerprintSha256)).Nodup)
    (h : prepareValidatedBatch H service snapshot decidedAt allocator hypotheses = .ok prepared) :
    ∃ p, PreparedFrom H service snapshot hypotheses p ∧ prepared.mutation = p.mutation snapshot ∧
      prepared.assignments = p.results := by
  unfold prepareValidatedBatch at h
  simp only [bind_eq_ok] at h
  obtain ⟨p, hp, _, -, _, -, h⟩ := h
  cases h
  exact ⟨p, prepareMutation_spec hdistinct hp, rfl, rfl⟩

variable {call : AssignBatch} {started : Repository}

theorem batchPost_of_stored {results : List EventIdentityAssignment}
    {res : EventIdentityBatchResult} (hperm : ordered.Perm call.hypotheses)
    (hgrows : ∀ r, Grows (started.states r) (repository.states r))
    (hanswers : List.Forall₂ (Answers H call.service.policy) ordered results)
    (hstored : ∀ a ∈ results,
      a ∈ (repository.states call.admittedContext.recordingIdentity).assignments.rows)
    (hres : res.assignments = results) :
    BatchPost H call started (.ok res) repository := by
  intro res' hres'
  cases hres'
  refine ⟨ordered, hperm, ?_⟩
  rw [hres]
  have hboth : List.Forall₂ (fun hypothesis a =>
      a ∈ (repository.states call.admittedContext.recordingIdentity).assignments.rows ∧
        Answers H call.service.policy hypothesis a) ordered results :=
    ((forall₂_and_left results ordered).mpr ⟨hstored, hanswers.flip⟩).flip
  refine hboth.imp ?_
  rintro hypothesis a ⟨hmem, hkey⟩
  have hfound : repository.stored H call.service.policy
      call.admittedContext.recordingIdentity hypothesis = some a :=
    KeyedTable.find?_eq_some_iff.mpr ⟨hmem, hkey⟩
  refine ⟨hfound, ?_⟩
  intro original horiginal
  have hlater := (hgrows call.admittedContext.recordingIdentity).stored horiginal
  rw [Repository.stored] at hfound
  rw [hlater] at hfound
  cases hfound
  rfl

theorem commit_spec {recording : Sha256Digest} {seen current : Repository} {p : Preparation}
    (hU : ∀ h ∈ ordered, h ∈ U ∧ h.recordingIdentity = recording)
    (hp : PreparedFrom H service (snapshotLocked recording (seen.states recording)) ordered p)
    (hm : p.mutation (snapshotLocked recording (seen.states recording)) = some m)
    (hInv : (registryDiscipline H U).Inv current) (hG : (registryDiscipline H U).G seen current)
    (hok : validateCommit m current = .ok ()) :
    (registryDiscipline H U).Inv (current.apply m) ∧
      (registryDiscipline H U).G current (current.apply m) ∧
      ∀ a ∈ p.results, a ∈ ((current.apply m).states recording).assignments.rows := by
  have hcommit := validateCommit_spec hok
  have hrows : m.recordingIdentity = recording ∧
      m.expectedGeneration = (seen.states recording).generation ∧
      m.assignments = p.newAssignments := by
    unfold Preparation.mutation at hm
    split at hm
    · cases hm
    · cases hm
      exact ⟨rfl, rfl, rfl⟩
  obtain ⟨hrecording, hexpected, hassignments⟩ := hrows
  rw [hrecording] at hcommit
  -- the generation has not moved, so the partition is the one that was read
  have hsame : seen.states recording = current.states recording :=
    (hG recording).unchanged (hexpected ▸ hcommit.generation.symm)
  have happly : (current.apply m).states =
      update current.states recording ((current.states recording).apply m) := by
    unfold Repository.apply
    rw [hrecording]
  rw [hsame] at hp hm
  refine ⟨?_, ?_, ?_⟩
  · show ∀ r, RecordingSound H U r _
    rw [happly, forall_update_iff]
    exact ⟨(hInv recording).apply hU hp hm hcommit, fun r _ => hInv r⟩
  · show ∀ r, Grows _ _
    rw [happly, forall_update_iff]
    exact ⟨hcommit.grows, fun r _ => .refl _⟩
  · intro a ha
    rw [happly, update_self, hcommit.assignments_rows, hassignments, mem_append]
    rcases hp.known a ha with hold | hnew
    · exact .inl ((mem_insertionSort _).mp hold)
    · exact .inr hnew

theorem validateRegistrySnapshot_eq {snapshot validated : EventRegistrySnapshot}
    {recordingIdentity : Sha256Digest}
    (h : validateRegistrySnapshot snapshot recordingIdentity = .ok validated) :
    validated = snapshot := by
  unfold validateRegistrySnapshot at h
  simp only [bind_eq_ok] at h
  obtain ⟨_, -, _, -, h⟩ := h
  cases h
  rfl

theorem batchPost_error (e : EventIdentityRegistryError) (repository : Repository) :
    BatchPost H call started (.error e) repository := by
  intro res hres
  cases hres

theorem batchResultFromPreparation_assignments {prepared : PreparedEventIdentityBatch}
    {initial final fence : Nat} {res : EventIdentityBatchResult}
    (h : batchResultFromPreparation prepared initial final fence = .ok res) :
    res.assignments = prepared.assignments := by
  obtain ⟨_, -, h⟩ := bind_eq_ok.mp h
  cases h
  rfl

theorem replayed_of_no_mutation {recording : Sha256Digest} {p : Preparation}
    (hp : PreparedFrom H service (snapshotLocked recording state) ordered p)
    (hm : p.mutation (snapshotLocked recording state) = none) :
    ∀ a ∈ p.results, a ∈ state.assignments.rows := by
  unfold Preparation.mutation at hm
  split at hm
  · rename_i hempty
    rw [List.isEmpty_iff] at hempty
    intro a ha
    rcases hp.known a ha with hold | hnew
    · exact (mem_insertionSort _).mp hold
    · rw [hempty] at hnew
      exact absurd hnew not_mem_nil
  · cases hm

theorem assignAttempts_safe (hperm : ordered.Perm call.hypotheses)
    (hU : ∀ h ∈ ordered, h ∈ U ∧ h.recordingIdentity = call.admittedContext.recordingIdentity) :
    ∀ (attempts round : Nat) (initial : Option Nat) (s : Repository),
      (registryDiscipline H U).G started s →
      Safe RegistryCommand.run (fun _ _ => True) (registryDiscipline H U)
        (BatchPost H call started) (assignAttempts H call ordered attempts round initial) s := by
  intro attempts
  induction attempts with
  | zero =>
    intro round initial s _ s' _ _
    exact batchPost_error _ s'
  | succ attempts ih =>
    intro round initial s hstarted
    refine Safe.perform_bind (fun s' hInv _ _ => ⟨hInv, fun _ => .refl _⟩) ?_ ?_
    · intro seen snapshot hInv hseen _ hsnapshot
      cases hsnapshot
      refine Safe.ofExcept_bind ?_ (fun e _ s' _ _ => batchPost_error e s')
      intro snapshot hvalid
      have hsnapshot := validateRegistrySnapshot_eq hvalid
      subst hsnapshot
      have hdistinct := distinct_sortedIdentities
        (hInv call.admittedContext.recordingIdentity).distinct
      refine Safe.ofExcept_bind ?_ (fun e _ s' _ _ => batchPost_error e s')
      intro prepared hprepared
      obtain ⟨p, hp, hmutation, hresults⟩ := prepareValidatedBatch_spec hdistinct hprepared
      have hlater := (registryDiscipline H U).trans hstarted hseen
      cases hm : prepared.mutation with
      | none =>
        rw [hm] at hmutation
        have hreplayed := replayed_of_no_mutation hp hmutation.symm
        intro s' hInv' hG'
        cases hbatch : batchResultFromPreparation prepared _ _ _ with
        | error e => exact batchPost_error e s'
        | ok res =>
          have hres := batchResultFromPreparation_assignments hbatch
          exact batchPost_of_stored hperm
            ((registryDiscipline H U).trans hlater hG') hp.results
            (fun a ha => (hG' _).assignments.subset (hreplayed a ha))
            (hres.trans hresults)
      | some m =>
        rw [hm] at hmutation
        intro current hInv' hG' _
        have hcurrent := (registryDiscipline H U).trans hlater hG'
        cases hok : validateCommit m current with
        | error e =>
          have hrun : RegistryCommand.run (.commit m) current = (.error e, current) := by
            simp only [RegistryCommand.run, hok]
          rw [hrun]
          refine ⟨hInv', (registryDiscipline H U).refl current, ?_⟩
          cases e with
          | staleFence r => exact ih (round + 1) _ current hcurrent
          | _ => exact fun s' _ _ => batchPost_error _ s'
        | ok u =>
          obtain ⟨hInv'', hG'', hstored⟩ := commit_spec hU hp hmutation.symm hInv' hG' hok
          have hrun : RegistryCommand.run (.commit m) current =
              (.ok (snapshotLocked m.recordingIdentity
                ((current.apply m).states m.recordingIdentity)), current.apply m) := by
            simp only [RegistryCommand.run, hok]
          rw [hrun]
          refine ⟨hInv'', hG'', ?_⟩
          intro s' _ hs'
          cases hbatch : batchResultFromPreparation prepared _ _ _ with
          | error e => exact batchPost_error e s'
          | ok res =>
            have hres := batchResultFromPreparation_assignments hbatch
            exact batchPost_of_stored hperm
              ((registryDiscipline H U).trans hcurrent
                ((registryDiscipline H U).trans hG'' hs')) hp.results
              (fun a ha => (hs' _).assignments.subset (hstored a ha))
              (hres.trans hresults)
    · intro s' e _ _ _ herror
      cases herror

theorem assignBatch_safe (call : AssignBatch) (s : Repository) (hU : ∀ h ∈ call.hypotheses, h ∈ U) :
    Safe RegistryCommand.run (fun _ _ => True) (registryDiscipline H U) (BatchPost H call s)
      (assignBatch H call) s := by
  refine Safe.ofExcept_bind ?_ (fun e _ s' _ _ => batchPost_error e s')
  intro ordered hordered
  obtain ⟨hperm, hrecording⟩ := validateAuthorityInputs_spec hordered
  exact assignAttempts_safe hperm (fun h hh => ⟨hU h (hperm.subset hh), hrecording h hh⟩)
    _ _ _ s ((registryDiscipline H U).refl s)

/-! ## Runs -/

variable (U call) in
/-- The calls of a run are about hypotheses of `U`. -/
def submits (_ : Repository) : Prop :=
  ∀ h ∈ call.hypotheses, h ∈ U

/-- The runs of the registry from an empty repository. -/
def RegistryRun (H : Hashing) (U : Set PlatformEnrichedEventHypothesis) :
    World Repository AssignBatch RegistryCommand RegistryAnswer EventIdentityRegistryError
      EventIdentityBatchResult →
    World Repository AssignBatch RegistryCommand RegistryAnswer EventIdentityRegistryError
      EventIdentityBatchResult → Prop :=
  Steps (registry H) (submits U) fun _ _ => True

/-- A successful commit to one recording. -/
def isCommitOf (recordingIdentity : Sha256Digest) :
    Event RegistryCommand RegistryAnswer EventIdentityRegistryError → Bool
  | ⟨.commit m, .ok _⟩ => m.recordingIdentity == recordingIdentity
  | _ => false

variable (H U) in
/-- Two hypotheses of `U` with one digest have one content. -/
def CollisionFree : Prop :=
  ∀ h₁ ∈ U, ∀ h₂ ∈ U, h₁.semanticSha256 H = h₂.semanticSha256 H →
    eventHypothesisSemanticProjection h₁ = eventHypothesisSemanticProjection h₂

theorem fingerprint_of_logicalKey (hU : CollisionFree H U) {h₁ h₂ : PlatformEnrichedEventHypothesis}
    (h₁U : h₁ ∈ U) (h₂U : h₂ ∈ U) (hkey : h₁.logicalKey H = h₂.logicalKey H) :
    h₁.semanticFingerprintSha256 = h₂.semanticFingerprintSha256 := by
  have hdigest : h₁.semanticSha256 H = h₂.semanticSha256 H :=
    (String.append_right_inj _).mp hkey
  have hprojection := hU h₁ h₁U h₂ h₂U hdigest
  exact congrArg EventHypothesisProjection.semanticFingerprintSha256 hprojection

theorem generation_eq_commits
    {w w' : World Repository AssignBatch RegistryCommand RegistryAnswer EventIdentityRegistryError
      EventIdentityBatchResult}
    (hw : RegistryRun H U w w') (h : ∀ r, (w.db.states r).generation = w.log.countP (isCommitOf r)) :
    ∀ r, (w'.db.states r).generation = w'.log.countP (isCommitOf r) := by
  refine Steps.logged (P := fun log s => ∀ r, (s.states r).generation =
    log.countP (isCommitOf r)) ?_ h hw
  intro c log s hs r
  cases c with
  | snapshot recording =>
    show (s.states r).generation = _
    rw [hs r]
    rfl
  | commit m =>
    show ((RegistryCommand.run (.commit m) s).2.states r).generation =
      countP (isCommitOf r) (⟨.commit m, (RegistryCommand.run (.commit m) s).1⟩ :: log)
    rw [countP_cons, ← hs r]
    cases hok : validateCommit m s with
    | error e =>
      simp only [RegistryCommand.run, hok]
      rfl
    | ok u =>
      simp only [RegistryCommand.run, hok, isCommitOf, beq_iff_eq]
      have hnext := (validateCommit_spec hok).nextGeneration
      unfold Repository.apply
      by_cases hr : m.recordingIdentity = r
      · subst hr
        simp only [update_self]
        exact hnext
      · rw [if_neg hr]
        simp only [update_of_ne (Ne.symm hr)]
        rfl

variable (H U) in
/-- The partition of a recording agrees with the partition of its hypotheses by
fingerprint. -/
structure AgreesWithFingerprints (recordingIdentity : Sha256Digest) (state : RecordingRegistryState)
    : Prop where
  one_assignment : ∀ a ∈ state.assignments.rows, ∀ b ∈ state.assignments.rows,
    assignmentIdempotencyKey a = assignmentIdempotencyKey b → a = b
  one_outbox : ∀ a ∈ state.assignments.rows, ∃! o, o ∈ state.outbox.rows ∧
    o.assignmentLogicalKey = a.assignmentLogicalKey
  event_of_recording : ∀ a ∈ state.assignments.rows, ∃ i ∈ state.identities.rows,
    i.eventId = a.eventId ∧ i.recordingIdentity = recordingIdentity
  one_identity : ∀ i ∈ state.identities.rows, ∀ j ∈ state.identities.rows,
    i.semanticFingerprintSha256 = j.semanticFingerprintSha256 → i = j
  never_ambiguous : (∀ i ∈ state.identities.rows, i.creationDisposition ≠ .ambiguous) ∧
    ∀ a ∈ state.assignments.rows, a.disposition ≠ .ambiguous
  same_event_iff : ∀ h₁ ∈ U, ∀ h₂ ∈ U, ∀ a₁ ∈ state.assignments.rows,
    ∀ a₂ ∈ state.assignments.rows, a₁.eventHypothesisLogicalKey = h₁.logicalKey H →
      a₂.eventHypothesisLogicalKey = h₂.logicalKey H →
      (a₁.eventId = a₂.eventId ↔ h₁.semanticFingerprintSha256 = h₂.semanticFingerprintSha256)

variable {r : Sha256Digest}

theorem RecordingSound.one_outbox (h : RecordingSound H U r state)
    {a : EventIdentityAssignment} (ha : a ∈ state.assignments.rows) :
    ∃! o, o ∈ state.outbox.rows ∧ o.assignmentLogicalKey = a.assignmentLogicalKey := by
  have hmem : outboxRecord H a ∈ state.outbox.rows := by
    rw [h.outbox]
    exact mem_map_of_mem ha
  refine ⟨outboxRecord H a, ⟨hmem, rfl⟩, ?_⟩
  rintro o ⟨ho, hkey⟩
  have ho' := ho
  rw [h.outbox] at ho'
  obtain ⟨b, -, rfl⟩ := mem_map.mp ho'
  -- the outbox id is derived from the assignment key
  refine state.outbox.eq_of_key_eq ho hmem ?_
  exact congrArg (H.stableUuid "event-identity-outbox") hkey

theorem RecordingSound.one_identity
    (h : RecordingSound H U r state) {i j : StableEventIdentity} (hi : i ∈ state.identities.rows)
    (hj : j ∈ state.identities.rows)
    (heq : i.semanticFingerprintSha256 = j.semanticFingerprintSha256) : i = j :=
  inj_on_of_nodup_map h.distinct hi hj heq

theorem RecordingSound.same_event_iff (h : RecordingSound H U r state) (hU : CollisionFree H U)
    {h₁ h₂ : PlatformEnrichedEventHypothesis} (h₁U : h₁ ∈ U) (h₂U : h₂ ∈ U)
    {a₁ a₂ : EventIdentityAssignment} (ha₁ : a₁ ∈ state.assignments.rows)
    (ha₂ : a₂ ∈ state.assignments.rows) (hkey₁ : a₁.eventHypothesisLogicalKey = h₁.logicalKey H)
    (hkey₂ : a₂.eventHypothesisLogicalKey = h₂.logicalKey H) :
    a₁.eventId = a₂.eventId ↔ h₁.semanticFingerprintSha256 = h₂.semanticFingerprintSha256 := by
  obtain ⟨g₁, hg₁, -, -, hgkey₁, -, i₁, hi₁, hid₁, hfp₁⟩ := h.identified a₁ ha₁
  obtain ⟨g₂, hg₂, -, -, hgkey₂, -, i₂, hi₂, hid₂, hfp₂⟩ := h.identified a₂ ha₂
  have hsame₁ := fingerprint_of_logicalKey hU hg₁ h₁U (hgkey₁.symm.trans hkey₁)
  have hsame₂ := fingerprint_of_logicalKey hU hg₂ h₂U (hgkey₂.symm.trans hkey₂)
  rw [← hid₁, ← hid₂, ← hsame₁, ← hsame₂, ← hfp₁, ← hfp₂]
  constructor
  · intro hid
    rw [state.identities.eq_of_key_eq hi₁ hi₂ hid]
  · intro hfp
    rw [h.one_identity hi₁ hi₂ hfp]

theorem RecordingSound.agrees (h : RecordingSound H U r state) (hU : CollisionFree H U) :
    AgreesWithFingerprints H U r state where
  one_assignment := fun _ ha _ hb hkey => state.assignments.eq_of_key_eq ha hb hkey
  one_outbox := fun _ ha => h.one_outbox ha
  event_of_recording := by
    intro a ha
    obtain ⟨g, -, -, -, -, -, i, hi, hid, -⟩ := h.identified a ha
    exact ⟨i, hi, hid, h.scope i hi⟩
  one_identity := fun _ hi _ hj heq => h.one_identity hi hj heq
  never_ambiguous := by
    constructor
    · intro i hi
      rw [h.created i hi]
      decide
    · intro a ha
      obtain ⟨g, -, -, -, -, hdisposition, -⟩ := h.identified a ha
      exact hdisposition
  same_event_iff := fun _ h₁U _ h₂U _ ha₁ _ ha₂ hkey₁ hkey₂ =>
    h.same_event_iff hU h₁U h₂U ha₁ ha₂ hkey₁ hkey₂

/-- A commit prepared against another generation is refused and changes nothing. -/
theorem stale_commit_refused
    (h : m.expectedGeneration ≠ (repository.states m.recordingIdentity).generation) :
    ∃ e, RegistryCommand.run (.commit m) repository = (.error e, repository) := by
  cases hok : validateCommit m repository with
  | error e =>
    refine ⟨e, ?_⟩
    simp only [RegistryCommand.run, hok]
  | ok u => exact absurd (validateCommit_spec hok).generation.symm h

/-- The registry over every interleaving of its callers. -/
theorem registry_agrees_in_every_run (H : Hashing) (U : Set PlatformEnrichedEventHypothesis)
    (hU : CollisionFree H U)
    (w w' : World Repository AssignBatch RegistryCommand RegistryAnswer
      EventIdentityRegistryError EventIdentityBatchResult)
    (hw : RegistryRun H U (World.initial .empty) w) (hw' : RegistryRun H U w w')
    (r : Sha256Digest) :
    AgreesWithFingerprints H U r (w.db.states r) ∧
    Grows (w.db.states r) (w'.db.states r) ∧
    (w.db.states r).generation = w.log.countP (isCommitOf r) ∧
    (∀ m, m.recordingIdentity = r → m.expectedGeneration ≠ (w.db.states r).generation →
      ∃ e, RegistryCommand.run (.commit m) w.db = (.error e, w.db)) ∧
    (∀ job ∈ w.jobs, ∀ result, job.rest = .done result →
      BatchPost H job.op job.started result w.db) := by
  have hmethod : ∀ call s, (registryDiscipline H U).Inv s → submits U call s →
      Safe (registry H).run (fun _ _ => True) (registryDiscipline H U) (BatchPost H call s)
        ((registry H).method call) s :=
    fun call s _ hsubmits => assignBatch_safe call s hsubmits
  have hstart : Keeps (registry H) (fun _ _ => True) (registryDiscipline H U) (BatchPost H)
      (World.initial .empty) := Keeps.initial fun _ => RecordingSound.fresh U _
  obtain ⟨hkeeps, -⟩ := Steps.keeps hmethod hstart hw
  obtain ⟨-, hgrows⟩ := Steps.keeps hmethod hkeeps hw'
  refine ⟨(hkeeps.inv r).agrees hU, hgrows r, generation_eq_commits hw (fun _ => rfl) r, ?_, ?_⟩
  · rintro m rfl hne
    exact stale_commit_refused hne
  · intro job hjob result hdone
    exact hkeeps.returned hjob hdone

end Service

/-! ## Two callers racing for one recording -/

namespace Race

/-- Digests that spell what distinguishes the hypotheses below. -/
def hashing : Hashing where
  semanticSha256
    | .eventHypothesis projection =>
      projection.semanticFingerprintSha256 ++ "/" ++ projection.fusionLogicalKey
    | .assignment projection =>
      projection.eventHypothesisSemanticSha256 ++ "@" ++ projection.identityPolicyVersion
    | .relation projection => projection.assignmentLogicalKey
  uuid5 := id

def context : AdmittedRecordingContextV2 :=
  ⟨"recording", "mcap", "mapping", "alignment", true, "context", "1.0", "admission"⟩

def service : EventIdentityRegistryService :=
  ⟨⟨"1.0", "identity"⟩, "uuid4-v1", ⟨"1.0", "output"⟩, .localConformance, 4⟩

def output : OrchestratorEnrichedOutput :=
  ⟨"recording", "mcap", "mapping", "alignment", "orchestrator-enrichment:1", "output", "1.0"⟩

def fact (ordinal : Nat) (fingerprint key : String) : ProductionAdmittedHypothesisFact :=
  ⟨ordinal, ⟨0, 10, by decide, by decide, by decide⟩, fingerprint, key⟩

/-- The hypothesis of a fact, in a batch that admits the given facts. -/
def hypothesis (facts : List ProductionAdmittedHypothesisFact)
    (admitted : ProductionAdmittedHypothesisFact) : PlatformEnrichedEventHypothesis where
  recordingIdentity := "recording"
  effectiveInterval := admitted.effectiveInterval
  semanticFingerprintSha256 := admitted.semanticFingerprintSha256
  fusionLogicalKey := admitted.fusionLogicalKey
  fusionOutputOrdinal := admitted.fusionOutputOrdinal
  sourceEnrichments := [.fromOutput output]
  productionAdmission :=
    ⟨.localConformance, false, "recording", "context", "1.0", "admission"⟩
  productionOutputAdmission :=
    ⟨.localConformance, false, "recording", [.fromOutput output], facts, "1.0", "output"⟩

def batch (facts : List ProductionAdmittedHypothesisFact) (name : String) : AssignBatch where
  service := service
  admittedContext := context
  hypotheses := facts.map (hypothesis facts)
  enrichedOutputs := [output]
  decidedAt := "2026-01-01T00:00:00Z"
  allocator := fun round index => .allocated (name ++ toString round ++ "." ++ toString index)

/-- One call reports the fingerprint `grasp`, the other `grasp` again and `place`. -/
def firstFacts : List ProductionAdmittedHypothesisFact := [fact 0 "grasp" "fusion:a"]

def secondFacts : List ProductionAdmittedHypothesisFact :=
  [fact 0 "grasp" "fusion:b", fact 1 "place" "fusion:c"]

/-- Both calls read their snapshot before either commits; the later one is
stale and begins again. -/
def schedule : List (Choice AssignBatch) :=
  [.spawn (batch firstFacts "first"), .spawn (batch secondFacts "second"),
    .advance 0, .advance 1, .advance 1, .advance 0, .advance 0, .advance 0]

def submitted : List PlatformEnrichedEventHypothesis :=
  firstFacts.map (hypothesis firstFacts) ++ secondFacts.map (hypothesis secondFacts)

end Race

open Race in
/-- After the race three assignments name two events, in two generations. -/
theorem registry_agrees_after_race :
    ∃ w, (World.initial Repository.empty).play? (registry hashing) schedule = some w ∧
      (w.db.states "recording").generation = 2 ∧
      (w.db.states "recording").assignments.rows.map (·.eventId) =
        ["first0.0", "first0.0", "second1.0"] ∧
      AgreesWithFingerprints hashing { h | h ∈ submitted } "recording"
        (w.db.states "recording") := by
  have hplayed : (((World.initial Repository.empty).play? (registry hashing) schedule).map
      fun w => ((w.db.states "recording").generation,
        (w.db.states "recording").assignments.rows.map (·.eventId))) =
      some (2, ["first0.0", "first0.0", "second1.0"]) := by
    decide +kernel
  obtain ⟨w, hw, hview⟩ := Option.map_eq_some_iff.mp hplayed
  rw [Prod.mk.injEq] at hview
  refine ⟨w, hw, hview.1, hview.2, ?_⟩
  have hcollision : CollisionFree hashing { h | h ∈ submitted } := by
    show ∀ h₁ ∈ submitted, ∀ h₂ ∈ submitted, _ → _
    decide +kernel
  have hsubmits : ∀ call, Choice.spawn call ∈ schedule → ∀ s,
      submits { h | h ∈ submitted } call s := by
    intro call hcall s
    have hcases : call = batch firstFacts "first" ∨ call = batch secondFacts "second" := by
      simpa [schedule] using hcall
    rcases hcases with rfl | rfl
    · exact fun h hh => mem_append_left _ hh
    · exact fun h hh => mem_append_right _ hh
  have hrun : RegistryRun hashing { h | h ∈ submitted } (World.initial .empty) w :=
    steps_of_play? (allowsAll_of_forall hsubmits fun _ _ => trivial) hw
  exact (registry_agrees_in_every_run hashing { h | h ∈ submitted } hcollision w w hrun .refl
    "recording").1

end Robata.EventPipeline
