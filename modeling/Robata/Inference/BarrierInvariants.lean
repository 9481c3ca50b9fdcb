import Robata.Inference.CallBarrier

/-!
# What the storage transactions keep

The invariant of the barrier tables and the direction in which they change, and
for each writing transaction that it stays within both.
-/

namespace Robata.Inference

open Contracts Lib List
open KeyedTable (find?_eq_none_iff find?_eq_some_iff forall_of_insert? insert?_eq_some mem_of_find?
  mem_of_insert? subset_of_insert?)

/-! ## Rows of one barrier -/

section Rows

variable {db db' : BarrierDb} {barrierId : OpaqueUuid}

variable {member : BarrierMember}

theorem mem_membersOf :
    member ∈ db.membersOf barrierId ↔ (⟨barrierId, member⟩ : MemberRow) ∈ db.members.rows := by
  unfold BarrierDb.membersOf
  rw [mem_insertionSort, mem_map]
  constructor
  · rintro ⟨row, hrow, rfl⟩
    rw [mem_filter, beq_iff_eq] at hrow
    obtain ⟨hrow, rfl⟩ := hrow
    exact hrow
  · intro hrow
    refine ⟨_, mem_filter.mpr ⟨hrow, ?_⟩, rfl⟩
    exact beq_self_eq_true barrierId

theorem membersOf_append (h : db'.members.rows = db.members.rows ++ [⟨barrierId, member⟩]) :
    (db'.membersOf barrierId).Perm (db.membersOf barrierId ++ [member]) := by
  unfold BarrierDb.membersOf
  rw [h, filter_append, map_append]
  simp only [filter_cons, beq_self_eq_true]
  refine (perm_insertionSort _ _).trans ?_
  exact (perm_insertionSort _ _).symm.append_right _

theorem membersOf_append_of_ne {other : OpaqueUuid}
    (h : db'.members.rows = db.members.rows ++ [⟨other, member⟩]) (hne : barrierId ≠ other) :
    db'.membersOf barrierId = db.membersOf barrierId := by
  have hskip : ((⟨other, member⟩ : MemberRow).barrierId == barrierId) = false :=
    beq_eq_false_iff_ne.mpr hne.symm
  unfold BarrierDb.membersOf
  rw [h, filter_append, filter_cons, hskip]
  simp

theorem mem_completionsOf {completion : InferenceCallPartCompletion} :
    completion ∈ db.completionsOf barrierId ↔
      completion ∈ db.completions.rows ∧ completion.barrierId = barrierId := by
  unfold BarrierDb.completionsOf
  rw [mem_insertionSort, mem_filter, beq_iff_eq]

theorem completionsOf_append_of_ne {completion : InferenceCallPartCompletion}
    (h : db'.completions.rows = db.completions.rows ++ [completion])
    (hne : completion.barrierId ≠ barrierId) :
    db'.completionsOf barrierId = db.completionsOf barrierId := by
  have hskip : (completion.barrierId == barrierId) = false := beq_eq_false_iff_ne.mpr hne
  unfold BarrierDb.completionsOf
  rw [h, filter_append, filter_cons, hskip]
  simp

theorem deriveState_perm {barrier : Barrier} {members members' : List BarrierMember}
    (h : members.Perm members') : deriveState barrier members = deriveState barrier members' := by
  have hlength := h.length_eq
  have hfailed := h.countP_eq (·.outcome.isFailure)
  have hsuccessful := h.countP_eq (·.outcome.isSuccess)
  have hdegraded := h.countP_eq fun member =>
    member.criticality == .degradable && member.outcome.isFailure
  have hrequired : members.any (fun member =>
      member.criticality == .required && !member.outcome.isSuccess) =
      members'.any fun member => member.criticality == .required && !member.outcome.isSuccess :=
    h.any_eq
  unfold deriveState acceptable
  rw [hlength, hfailed, hsuccessful, hdegraded, hrequired]

theorem deriveState_barrierId {barrier : Barrier} {members : List BarrierMember}
    {state : BarrierState} (h : deriveState barrier members = .ok state) :
    state.barrierId = barrier.barrierId := by
  obtain ⟨_, -, h⟩ := bind_eq_ok.mp h
  cases h
  rfl

end Rows

/-! ## The invariant -/

/-- The parts of a reduction, all succeeded, in part order. -/
structure ReductionBinds (db : BarrierDb) (definition : InferenceCallBarrierDefinition)
    (reduction : InferenceCallReduction) : Prop where
  barrierId : definition.barrierId = reduction.barrierId
  ordinals : (db.completionsOf reduction.barrierId).map (·.partOrdinal) =
    List.range definition.partCount
  succeeded : ∀ c ∈ db.completionsOf reduction.barrierId, c.status = .succeeded
  completionIds : reduction.orderedCompletionIds =
    (db.completionsOf reduction.barrierId).map (·.completionId)
  parts : reduction.orderedPartSemanticSha256s =
    (db.completionsOf reduction.barrierId).map (·.partSemanticSha256)
  outputs : reduction.orderedNormalizedOutputSha256s.map some =
    (db.completionsOf reduction.barrierId).map (·.normalizedOutputSha256)
  selections : reduction.orderedSelectionDecisionLogicalKeys.map some =
    (db.completionsOf reduction.barrierId).map (·.selectionDecisionLogicalKey)

variable {definition : InferenceCallBarrierDefinition} {reduction : InferenceCallReduction}

theorem ReductionBinds.congr {db db' : BarrierDb} (h : ReductionBinds db definition reduction)
    (hsame : db'.completionsOf reduction.barrierId = db.completionsOf reduction.barrierId) :
    ReductionBinds db' definition reduction := by
  obtain ⟨hid, hordinals, hsucceeded, hids, hparts, houtputs, hselections⟩ := h
  rw [← hsame] at hordinals hsucceeded hids hparts houtputs hselections
  exact ⟨hid, hordinals, hsucceeded, hids, hparts, houtputs, hselections⟩

/-- A reduction binds its completions by their digests, which its row has too. -/
theorem ReductionBinds.stored {db : BarrierDb} (h : ReductionBinds db definition reduction) :
    ReductionBinds db definition reduction.stored :=
  ⟨h.barrierId, h.ordinals, h.succeeded, h.completionIds, h.parts, h.outputs, h.selections⟩

/-- What holds of the tables in every reachable state. -/
structure BarrierSound (db : BarrierDb) : Prop where
  shape : ∀ b ∈ db.barriers.rows, 0 < b.expectedMemberCount ∧
    b.requiredSuccessCount = b.expectedMemberCount ∧ b.maxDegradedFailures = 0
  state : ∀ b ∈ db.barriers.rows, ∃ row, db.states.find? b.barrierId = some row ∧
    deriveState b (db.membersOf b.barrierId) = .ok row.state
  definition : ∀ d ∈ db.definitions.rows, ∃ b ∈ db.barriers.rows,
    b.barrierId = d.barrierId ∧ b.expectedMemberCount = d.partCount
  member : ∀ m ∈ db.members.rows, m.member.criticality = .required ∧
    ∃ d ∈ db.definitions.rows, d.barrierId = m.barrierId ∧
      m.member.workItemId ∈ d.expectedPartLogicalKeys ∧
      ∃ c ∈ db.completions.rows, c.barrierId = m.barrierId ∧
        c.partLogicalKey = m.member.workItemId ∧ m.member.outcome = stageStatus c.status ∧
        c.Readable = true
  completion : ∀ c ∈ db.completions.rows, ∃ d ∈ db.definitions.rows,
    d.barrierId = c.barrierId ∧ c.partOrdinal < d.partCount
  reduction : ∀ r ∈ db.reductions.rows, ∃ d ∈ db.definitions.rows, ReductionBinds db d r
  completionRow : ∀ c ∈ db.completions.rows, c.stored = c
  reductionRow : ∀ r ∈ db.reductions.rows, r.stored = r

/-- How the tables may change: rows are only added, except for the derived state,
and a cohort that is complete gets no further row. -/
structure BarrierGrows (before after : BarrierDb) : Prop where
  barriers : before.barriers.rows ⊆ after.barriers.rows
  members : before.members.rows ⊆ after.members.rows
  definitions : before.definitions.rows ⊆ after.definitions.rows
  completions : before.completions.rows ⊆ after.completions.rows
  reductions : before.reductions.rows ⊆ after.reductions.rows
  complete : ∀ b ∈ before.barriers.rows,
    (before.membersOf b.barrierId).length = b.expectedMemberCount →
    after.membersOf b.barrierId = before.membersOf b.barrierId
  covered : ∀ d ∈ before.definitions.rows,
    (before.completionsOf d.barrierId).map (·.partOrdinal) = List.range d.partCount →
    after.completionsOf d.barrierId = before.completionsOf d.barrierId

theorem BarrierGrows.refl (db : BarrierDb) : BarrierGrows db db :=
  ⟨fun _ => id, fun _ => id, fun _ => id, fun _ => id, fun _ => id, fun _ _ _ => rfl,
    fun _ _ _ => rfl⟩

theorem BarrierGrows.trans {a b c : BarrierDb} (hab : BarrierGrows a b) (hbc : BarrierGrows b c) :
    BarrierGrows a c where
  barriers := fun _ h => hbc.barriers (hab.barriers h)
  members := fun _ h => hbc.members (hab.members h)
  definitions := fun _ h => hbc.definitions (hab.definitions h)
  completions := fun _ h => hbc.completions (hab.completions h)
  reductions := fun _ h => hbc.reductions (hab.reductions h)
  complete := by
    intro barrier hbarrier hlength
    have hfirst := hab.complete barrier hbarrier hlength
    rw [hbc.complete barrier (hab.barriers hbarrier) (by rw [hfirst, hlength]), hfirst]
  covered := by
    intro definition hdefinition hordinals
    have hfirst := hab.covered definition hdefinition hordinals
    rw [hbc.covered definition (hab.definitions hdefinition) (by rw [hfirst, hordinals]), hfirst]

/-- The discipline every coordinator keeps. -/
def barrierDiscipline : Discipline BarrierDb where
  Inv := BarrierSound
  G := BarrierGrows
  refl := BarrierGrows.refl
  trans := BarrierGrows.trans

theorem BarrierSound.empty : BarrierSound .empty where
  shape := forall_mem_nil _
  state := forall_mem_nil _
  definition := forall_mem_nil _
  member := forall_mem_nil _
  completion := forall_mem_nil _
  reduction := forall_mem_nil _
  completionRow := forall_mem_nil _
  reductionRow := forall_mem_nil _

/-! ## Rows as they are read -/

section Decoding

variable {completion row : InferenceCallPartCompletion}

theorem completionFromRow_eq_ok :
    completionFromRow row = .ok completion ↔ row = completion ∧ row.Readable = true := by
  simp [completionFromRow, bind_eq_ok, and_comm]

theorem completionsFromRows_eq_ok {rows completions : List InferenceCallPartCompletion} :
    rows.mapM completionFromRow = .ok completions ↔
      completions = rows ∧ ∀ c ∈ rows, c.Readable = true := by
  induction rows generalizing completions with
  | nil =>
    constructor
    · rintro ⟨⟩
      exact ⟨rfl, forall_mem_nil _⟩
    · rintro ⟨rfl, -⟩
      rfl
  | cons row rows ih =>
    simp only [mapM_cons, bind_eq_ok, completionFromRow_eq_ok, ih, forall_mem_cons]
    constructor
    · rintro ⟨_, ⟨rfl, hrow⟩, _, ⟨rfl, hrows⟩, h⟩
      cases h
      exact ⟨rfl, hrow, hrows⟩
    · rintro ⟨rfl, hrow, hrows⟩
      exact ⟨row, ⟨rfl, hrow⟩, rows, ⟨rfl, hrows⟩, rfl⟩

theorem reductionFromRow_eq_ok {r row : InferenceCallReduction} :
    reductionFromRow row = .ok r ↔ row = r ∧ row.normalizedOutput.readBack ≠ .refused := by
  simp [reductionFromRow, bind_eq_ok, and_comm]

theorem JsonObject.stored_stored (value : JsonObject) : value.stored.stored = value.stored := by
  unfold JsonObject.stored
  cases value.readBack <;> rfl

theorem InferenceCallPartCompletion.stored_stored (c : InferenceCallPartCompletion) :
    c.stored.stored = c.stored := by
  unfold InferenceCallPartCompletion.stored
  simp [Function.comp_def, JsonObject.stored_stored]

theorem InferenceCallReduction.stored_of_equal (r : InferenceCallReduction)
    (h : r.normalizedOutput.readBack = .equal) : r.stored = r := by
  obtain ⟨_, _, _, _, _, ⟨_, _⟩, _⟩ := r
  cases h
  rfl

theorem InferenceCallReduction.stored_stored (r : InferenceCallReduction) :
    r.stored.stored = r.stored := by
  unfold InferenceCallReduction.stored
  simp [JsonObject.stored_stored]

end Decoding

/-! ## What a transaction has checked -/

section Checks

variable {db : BarrierDb} {barrierId : OpaqueUuid}

theorem loadGenericBarrier_spec {loaded : Barrier × StateRow × List BarrierMember}
    (h : db.loadGenericBarrier barrierId = .ok loaded) :
    db.barriers.find? barrierId = some loaded.1 ∧ db.states.find? barrierId = some loaded.2.1 ∧
      loaded.2.2 = db.membersOf barrierId ∧
      deriveState loaded.1 (db.membersOf barrierId) = .ok loaded.2.1.state := by
  unfold BarrierDb.loadGenericBarrier at h
  split at h
  · cases h
  · cases h
  · rename_i barrier row hbarrier hrow
    simp only [bind_eq_ok, refuse_eq_ok, bne_eq_false_iff_eq] at h
    obtain ⟨_, -, derived, hderived, _, hsame, h⟩ := h
    cases h
    exact ⟨hbarrier, hrow, rfl, hsame ▸ hderived⟩

theorem validateCallDefinitionBinding_spec {barrier : Barrier}
    (h : validateCallDefinitionBinding barrier definition = .ok ()) :
    barrier.barrierId = definition.barrierId ∧
      barrier.expectedMemberCount = definition.partCount := by
  unfold validateCallDefinitionBinding at h
  simp only [refuse_eq_ok, Bool.or_eq_false_iff, bne_eq_false_iff_eq] at h
  exact ⟨h.1.1.1.1.1, h.1.1.1.2⟩

theorem requireCallDefinition_spec (h : db.requireCallDefinition barrierId = .ok definition) :
    definition ∈ db.definitions.rows ∧ definition.barrierId = barrierId := by
  unfold BarrierDb.requireCallDefinition at h
  split at h
  · cases h
  · cases h
  · rename_i found barrier hfound hbarrier
    obtain ⟨_, -, h⟩ := bind_eq_ok.mp h
    cases h
    exact find?_eq_some_iff.mp hfound

theorem validateCompletionBinding_spec {completion : InferenceCallPartCompletion}
    (h : validateCompletionBinding definition completion = .ok ()) :
    completion.partOrdinal < definition.partCount ∧
      completion.barrierId = definition.barrierId := by
  unfold validateCompletionBinding at h
  simp only [refuse_eq_ok, Bool.or_eq_false_iff, bne_eq_false_iff_eq,
    decide_eq_false_iff_not, not_le] at h
  exact ⟨h.1.1.1.1.1.1.1.1, h.1.1.1.1.1.1.1.2⟩

theorem validateReduction_spec {completions : List InferenceCallPartCompletion}
    (hcompletions : completions = db.completionsOf definition.barrierId)
    (h : db.validateReduction definition completions reduction = .ok ()) :
    ReductionBinds db definition reduction := by
  unfold BarrierDb.validateReduction at h
  simp only [bind_eq_ok, refuse_eq_ok, Bool.or_eq_false_iff, bne_eq_false_iff_eq,
    decide_eq_false_iff_not, not_not, any_eq_false, bne_iff_ne] at h
  obtain ⟨_, ⟨-, hordinals⟩, _, hsucceeded, -, -, _, -, _, -, hid, -, -, -, -, -, hids, hparts,
    houtputs, hselections⟩ := h
  rw [hcompletions] at hordinals hsucceeded hids hparts houtputs hselections
  rw [← hid] at hordinals hsucceeded hids hparts houtputs hselections
  exact ⟨hid.symm, hordinals, hsucceeded, hids, hparts, houtputs, hselections⟩

theorem validateCallMember_spec {member : BarrierMember}
    (hdefinition : db.definitions.find? barrierId = some definition)
    (h : db.validateCallMember barrierId member = .ok ()) :
    member.workItemId ∈ definition.expectedPartLogicalKeys ∧
      ∃ c ∈ db.completions.rows, c.barrierId = barrierId ∧
        c.partLogicalKey = member.workItemId ∧ member.outcome = stageStatus c.status ∧
        c.Readable = true := by
  unfold BarrierDb.validateCallMember at h
  rw [hdefinition] at h
  simp only [bind_eq_ok, refuse_eq_ok, Bool.not_eq_false', contains_iff_mem] at h
  obtain ⟨_, hdeclared, h⟩ := h
  refine ⟨hdeclared, ?_⟩
  split at h
  · cases h
  · rename_i c hc
    simp only [bind_eq_ok, refuse_eq_ok, bne_eq_false_iff_eq, completionFromRow_eq_ok] at h
    obtain ⟨_, ⟨rfl, hreadable⟩, _, -, houtcome⟩ := h
    have hkeys := find?_some hc
    rw [Bool.and_eq_true, beq_iff_eq, beq_iff_eq] at hkeys
    exact ⟨c, mem_of_find?_eq_some hc, hkeys.1, hkeys.2, houtcome, hreadable⟩

theorem callCompletions_eq {completions : List InferenceCallPartCompletion}
    (h : db.callCompletions definition = .ok completions) :
    completions = db.completionsOf definition.barrierId := by
  simp only [BarrierDb.callCompletions, bind_eq_ok] at h
  obtain ⟨read, hread, _, -, h⟩ := h
  cases h
  exact (completionsFromRows_eq_ok.mp hread).1

end Checks

/-! ## The writing transactions -/

/-- The rows a transaction may have added to each table. -/
structure Adds (db db' : BarrierDb) (barriers : List Barrier)
    (definitions : List InferenceCallBarrierDefinition)
    (completions : List InferenceCallPartCompletion) (reductions : List InferenceCallReduction) :
    Prop where
  barriers : db'.barriers.rows ⊆ db.barriers.rows ++ barriers
  states : ∀ row ∈ db'.states.rows,
    (∃ old ∈ db.states.rows, old.state.barrierId = row.state.barrierId) ∨
      ∃ b ∈ db'.barriers.rows, b.barrierId = row.state.barrierId
  definitions : db'.definitions.rows ⊆ db.definitions.rows ++ definitions
  completions : db'.completions.rows ⊆ db.completions.rows ++ completions
  reductions : db'.reductions.rows ⊆ db.reductions.rows ++ reductions

theorem Adds.refl (db : BarrierDb) {barriers : List Barrier}
    {definitions : List InferenceCallBarrierDefinition}
    {completions : List InferenceCallPartCompletion} {reductions : List InferenceCallReduction} :
    Adds db db barriers definitions completions reductions where
  barriers := subset_append_left _ _
  states := fun row hrow => .inl ⟨row, hrow, rfl⟩
  definitions := subset_append_left _ _
  completions := subset_append_left _ _
  reductions := subset_append_left _ _

section Writes

variable {db db' : BarrierDb}

theorem saveBarrier_spec {barrier : Barrier} (hsound : BarrierSound db)
    (hshape : 0 < barrier.expectedMemberCount ∧
      barrier.requiredSuccessCount = barrier.expectedMemberCount ∧
      barrier.maxDegradedFailures = 0)
    (h : db.saveBarrier barrier = .ok db') :
    BarrierSound db' ∧ BarrierGrows db db' ∧ Adds db db' [barrier] [] [] [] ∧
      barrier ∈ db'.barriers.rows := by
  obtain ⟨_, -, h⟩ := bind_eq_ok.mp h
  split at h
  · rename_i existing hexisting
    simp only [bind_eq_ok, refuse_eq_ok, bne_eq_false_iff_eq] at h
    obtain ⟨_, hsame, -, -, h⟩ := h
    cases h
    subst hsame
    exact ⟨hsound, .refl _, .refl _, mem_of_find? hexisting⟩
  · rename_i hfresh
    simp only [bind_eq_ok, inserted_eq_ok] at h
    obtain ⟨_, -, barriers, hbarriers, state, hstate, states, hstates, h⟩ := h
    cases h
    have hrows := (insert?_eq_some hbarriers).2
    have hsub := subset_of_insert? hbarriers
    have hmem := mem_of_insert? hbarriers
    have hstateId := deriveState_barrierId hstate
    have hnew : db.membersOf barrier.barrierId = [] := by
      rw [eq_nil_iff_forall_not_mem]
      intro member hmember
      obtain ⟨-, d, hd, hid, -⟩ := hsound.member _ (mem_membersOf.mp hmember)
      obtain ⟨b, hb, hbid, -⟩ := hsound.definition d hd
      exact find?_eq_none_iff.mp hfresh b hb (hbid.trans hid)
    refine ⟨⟨?_, ?_, ?_, hsound.member, hsound.completion, ?_, hsound.completionRow,
      hsound.reductionRow⟩, ⟨?_, fun _ => id, fun _ => id,
      fun _ => id, fun _ => id, fun _ _ _ => rfl, fun _ _ _ => rfl⟩, ⟨hrows ▸ Subset.refl _, ?_,
      subset_append_left _ _, subset_append_left _ _, subset_append_left _ _⟩, ?_⟩
    · exact forall_of_insert? hbarriers hsound.shape hshape
    · refine forall_of_insert? hbarriers (fun b hb => ?_) ?_
      · have hne : b.barrierId ≠ state.barrierId := by
          rw [hstateId]
          exact find?_eq_none_iff.mp hfresh b hb
        rw [KeyedTable.find?_of_insert? hstates, if_neg hne]
        exact hsound.state b hb
      · rw [KeyedTable.find?_of_insert? hstates, if_pos hstateId.symm]
        refine ⟨_, rfl, ?_⟩
        show deriveState barrier (db.membersOf barrier.barrierId) = _
        rw [hnew, hstate]
    · intro d hd
      obtain ⟨b, hb, hbd⟩ := hsound.definition d hd
      exact ⟨b, hsub hb, hbd⟩
    · intro r hr
      obtain ⟨d, hd, hbinds⟩ := hsound.reduction r hr
      exact ⟨d, hd, hbinds.congr rfl⟩
    · exact hsub
    · exact forall_of_insert? hstates (fun row hrow => .inl ⟨row, hrow, rfl⟩)
        (.inr ⟨barrier, hmem, hstateId.symm⟩)
    · exact hmem

theorem saveState_eq {state : BarrierState} (h : db.saveState state = .ok db') : db' = db := by
  unfold BarrierDb.saveState at h
  simp only [bind_eq_ok] at h
  obtain ⟨-, -, _, -, h⟩ := h
  cases h
  rfl

theorem addMember_spec {barrierId : OpaqueUuid} {member : BarrierMember} (hsound : BarrierSound db)
    (hrequired : member.criticality = .required) (hdefinition : definition ∈ db.definitions.rows)
    (hid : definition.barrierId = barrierId) (h : db.addMember barrierId member = .ok db') :
    BarrierSound db' ∧ BarrierGrows db db' ∧ Adds db db' [] [] [] [] ∧
      (⟨barrierId, member⟩ : MemberRow) ∈ db'.members.rows := by
  unfold BarrierDb.addMember at h
  simp only [bind_eq_ok] at h
  obtain ⟨_, -, loaded, hloaded, h⟩ := h
  obtain ⟨hbarrier, hstateRow, hmembers, hderived⟩ := loadGenericBarrier_spec hloaded
  split at h
  · rename_i existing hexisting
    simp only [bind_eq_ok, refuse_eq_ok, bne_eq_false_iff_eq] at h
    obtain ⟨_, hsame, h⟩ := h
    cases h
    subst hsame
    have hmem := mem_of_find?_eq_some hexisting
    rw [hmembers] at hmem
    exact ⟨hsound, .refl _, .refl _, mem_membersOf.mp hmem⟩
  · simp only [bind_eq_ok, refuse_eq_ok, inserted_eq_ok, decide_eq_false_iff_not] at h
    obtain ⟨_, hcapacity, _, hchecked, rows, hrows, state, hstate, h⟩ := h
    cases h
    have hrows' := (insert?_eq_some hrows).2
    obtain ⟨hbarrierMem, hbarrierId⟩ := find?_eq_some_iff.mp hbarrier
    have hstateId : state.barrierId = barrierId := (deriveState_barrierId hstate).trans hbarrierId
    obtain ⟨hdeclared, c, hc, hcid, hckey, hread⟩ := validateCallMember_spec
      (find?_eq_some_iff.mpr ⟨hdefinition, hid⟩) hchecked
    rw [hmembers] at hcapacity hstate
    refine ⟨⟨hsound.shape, ?_, hsound.definition, ?_, hsound.completion, ?_,
      hsound.completionRow, hsound.reductionRow⟩, ⟨fun _ => id, ?_,
      fun _ => id, fun _ => id, fun _ => id, ?_, fun _ _ _ => rfl⟩, ⟨subset_append_left _ _, ?_,
      subset_append_left _ _, subset_append_left _ _, subset_append_left _ _⟩, ?_⟩
    · intro b hb
      rw [KeyedTable.find?_upsert]
      by_cases hsame : b.barrierId = barrierId
      · have hb' : b = loaded.1 :=
          db.barriers.eq_of_key_eq hb hbarrierMem (hsame.trans hbarrierId.symm)
        rw [if_pos (hsame.trans hstateId.symm)]
        refine ⟨_, rfl, ?_⟩
        rw [hsame, deriveState_perm (membersOf_append hrows'), hb']
        exact hstate
      · rw [if_neg (fun heq => hsame (heq.trans hstateId)), membersOf_append_of_ne hrows' hsame]
        exact hsound.state b hb
    · exact forall_of_insert? hrows hsound.member
        ⟨hrequired, definition, hdefinition, hid, hdeclared, c, hc, hcid, hckey, hread⟩
    · intro r hr
      obtain ⟨d, hd, hbinds⟩ := hsound.reduction r hr
      exact ⟨d, hd, hbinds.congr rfl⟩
    · exact subset_of_insert? hrows
    · intro b hb hlength
      by_cases hsame : b.barrierId = barrierId
      · have hb' : b = loaded.1 :=
          db.barriers.eq_of_key_eq hb hbarrierMem (hsame.trans hbarrierId.symm)
        rw [hsame, hb'] at hlength
        omega
      · exact membersOf_append_of_ne hrows' hsame
    · intro row hrow
      have hfind := KeyedTable.mem_rows_iff.mp hrow
      rw [KeyedTable.find?_upsert] at hfind
      split at hfind
      · rename_i hsame
        exact .inr ⟨loaded.1, hbarrierMem, hbarrierId.trans (hstateId.symm.trans hsame.symm)⟩
      · exact .inl ⟨row, mem_of_find? hfind, rfl⟩
    · exact mem_of_insert? hrows

theorem appendDefinition_spec {stored : InferenceCallBarrierDefinition} (hsound : BarrierSound db)
    (h : db.appendDefinition definition = .ok (stored, db')) :
    BarrierSound db' ∧ BarrierGrows db db' ∧ Adds db db' [] [definition] [] [] ∧
      stored = definition ∧ definition ∈ db'.definitions.rows := by
  unfold BarrierDb.appendDefinition at h
  split at h
  · cases h
  rename_i barrier hbarrier
  simp only [bind_eq_ok] at h
  obtain ⟨_, hbinding, h⟩ := h
  obtain ⟨hbid, hcount⟩ := validateCallDefinitionBinding_spec hbinding
  split at h
  · rename_i existing hexisting
    simp only [bind_eq_ok, refuse_eq_ok, bne_eq_false_iff_eq] at h
    obtain ⟨_, hsame, h⟩ := h
    cases h
    subst hsame
    exact ⟨hsound, .refl _, .refl _, rfl, mem_of_find? hexisting⟩
  · simp only [bind_eq_ok, inserted_eq_ok] at h
    obtain ⟨definitions, hdefinitions, h⟩ := h
    cases h
    have hrows := (insert?_eq_some hdefinitions).2
    have hsub := subset_of_insert? hdefinitions
    refine ⟨⟨hsound.shape, hsound.state, ?_, ?_, ?_, ?_, hsound.completionRow,
      hsound.reductionRow⟩, ⟨fun _ => id, fun _ => id, hsub,
      fun _ => id, fun _ => id, fun _ _ _ => rfl, fun _ _ _ => rfl⟩, ⟨subset_append_left _ _,
      fun row hrow => .inl ⟨row, hrow, rfl⟩, hrows ▸ Subset.refl _, subset_append_left _ _,
      subset_append_left _ _⟩, rfl, ?_⟩
    · exact forall_of_insert? hdefinitions hsound.definition
        ⟨barrier, mem_of_find? hbarrier, hbid, hcount⟩
    · intro m hm
      obtain ⟨hrequired, d, hd, hmember⟩ := hsound.member m hm
      exact ⟨hrequired, d, hsub hd, hmember⟩
    · intro c hc
      obtain ⟨d, hd, hcompletion⟩ := hsound.completion c hc
      exact ⟨d, hsub hd, hcompletion⟩
    · intro r hr
      obtain ⟨d, hd, hbinds⟩ := hsound.reduction r hr
      exact ⟨d, hsub hd, hbinds.congr rfl⟩
    · exact mem_of_insert? hdefinitions

theorem completionsOf_covered {completion : InferenceCallPartCompletion} {barrierId : OpaqueUuid}
    (hrows : db'.completions.rows = db.completions.rows ++ [completion])
    (hfresh : db.completions.find? (completion.barrierId, completion.partOrdinal) = none)
    (hordinal : completion.barrierId = barrierId → completion.partOrdinal < definition.partCount)
    (hcovered : (db.completionsOf barrierId).map (·.partOrdinal) =
      List.range definition.partCount) :
    db'.completionsOf barrierId = db.completionsOf barrierId := by
  by_cases hsame : completion.barrierId = barrierId
  · exfalso
    have hmem : completion.partOrdinal ∈
        (db.completionsOf barrierId).map fun c => c.partOrdinal := by
      rw [hcovered, mem_range]
      exact hordinal hsame
    obtain ⟨c, hc, hcordinal⟩ := mem_map.mp hmem
    obtain ⟨hc, hcid⟩ := mem_completionsOf.mp hc
    refine find?_eq_none_iff.mp hfresh c hc ?_
    rw [hcid, hcordinal, hsame]
  · exact completionsOf_append_of_ne hrows hsame

theorem appendCompletion_spec {completion stored : InferenceCallPartCompletion}
    (hsound : BarrierSound db) (h : db.appendCompletion completion = .ok (stored, db')) :
    BarrierSound db' ∧ BarrierGrows db db' ∧ Adds db db' [] [] [completion.stored] [] ∧
      stored = completion ∧ completion.stored ∈ db'.completions.rows := by
  unfold BarrierDb.appendCompletion at h
  simp only [bind_eq_ok] at h
  obtain ⟨definition, hfound, _, hbinding, h⟩ := h
  obtain ⟨hdefinition, hdefinitionId⟩ := requireCallDefinition_spec hfound
  obtain ⟨hordinal, -⟩ := validateCompletionBinding_spec hbinding
  split at h
  · rename_i existing hexisting
    simp only [bind_eq_ok, refuse_eq_ok, bne_eq_false_iff_eq, completionFromRow_eq_ok] at h
    obtain ⟨_, ⟨rfl, -⟩, _, rfl, h⟩ := h
    cases h
    have hmem := mem_of_find? hexisting
    exact ⟨hsound, .refl _, .refl _, rfl, (hsound.completionRow _ hmem).symm ▸ hmem⟩
  · rename_i hfresh
    simp only [bind_eq_ok, inserted_eq_ok] at h
    obtain ⟨_, -, _, -, completions, hcompletions, h⟩ := h
    cases h
    have hrows := (insert?_eq_some hcompletions).2
    have hsub := subset_of_insert? hcompletions
    -- the definition of a barrier is unique, so its part count bounds the new ordinal
    have hbound : ∀ d ∈ db.definitions.rows, completion.barrierId = d.barrierId →
        completion.partOrdinal < d.partCount := by
      intro d hd hid
      have hd' : d = definition :=
        db.definitions.eq_of_key_eq hd hdefinition (hid.symm.trans hdefinitionId.symm)
      rw [hd']
      exact hordinal
    refine ⟨⟨hsound.shape, hsound.state, hsound.definition, ?_, ?_, ?_, ?_,
      hsound.reductionRow⟩, ⟨fun _ => id,
      fun _ => id, fun _ => id, hsub, fun _ => id, fun _ _ _ => rfl, ?_⟩, ⟨subset_append_left _ _,
      fun row hrow => .inl ⟨row, hrow, rfl⟩, subset_append_left _ _, hrows ▸ Subset.refl _,
      subset_append_left _ _⟩, rfl, ?_⟩
    · intro m hm
      obtain ⟨hrequired, d, hd, hid, hdeclared, c, hc, hmember⟩ := hsound.member m hm
      exact ⟨hrequired, d, hd, hid, hdeclared, c, hsub hc, hmember⟩
    · exact forall_of_insert? hcompletions hsound.completion
        ⟨definition, hdefinition, hdefinitionId, hordinal⟩
    · intro r hr
      obtain ⟨d, hd, hbinds⟩ := hsound.reduction r hr
      refine ⟨d, hd, hbinds.congr ?_⟩
      exact completionsOf_covered hrows hfresh
        (fun hid => hbound d hd (hid.trans hbinds.barrierId.symm)) hbinds.ordinals
    · exact forall_of_insert? hcompletions hsound.completionRow completion.stored_stored
    · intro d hd hcovered
      exact completionsOf_covered hrows hfresh (hbound d hd) hcovered
    · exact mem_of_insert? hcompletions

theorem appendReduction_spec {stored : InferenceCallReduction} (hsound : BarrierSound db)
    (h : db.appendReduction reduction = .ok (stored, db')) :
    BarrierSound db' ∧ BarrierGrows db db' ∧ Adds db db' [] [] [] [reduction.stored] ∧
      stored = reduction ∧ reduction.stored ∈ db'.reductions.rows := by
  unfold BarrierDb.appendReduction at h
  simp only [bind_eq_ok] at h
  obtain ⟨definition, hfound, completions, hcompletions, _, hvalid, h⟩ := h
  obtain ⟨hdefinition, hdefinitionId⟩ := requireCallDefinition_spec hfound
  have hbinds := validateReduction_spec (callCompletions_eq hcompletions) hvalid
  split at h
  · rename_i existing hexisting
    simp only [bind_eq_ok, refuse_eq_ok, bne_eq_false_iff_eq, reductionFromRow_eq_ok] at h
    obtain ⟨_, ⟨rfl, -⟩, _, rfl, h⟩ := h
    cases h
    have hmem := mem_of_find? hexisting
    exact ⟨hsound, .refl _, .refl _, rfl, (hsound.reductionRow _ hmem).symm ▸ hmem⟩
  · simp only [bind_eq_ok, inserted_eq_ok] at h
    obtain ⟨_, -, reductions, hreductions, h⟩ := h
    cases h
    have hrows := (insert?_eq_some hreductions).2
    refine ⟨⟨hsound.shape, hsound.state, hsound.definition, hsound.member, hsound.completion,
      ?_, hsound.completionRow, ?_⟩, ⟨fun _ => id, fun _ => id, fun _ => id, fun _ => id, ?_,
      fun _ _ _ => rfl, fun _ _ _ => rfl⟩,
      ⟨subset_append_left _ _, fun row hrow => .inl ⟨row, hrow, rfl⟩,
      subset_append_left _ _, subset_append_left _ _, hrows ▸ Subset.refl _⟩, rfl, ?_⟩
    · refine forall_of_insert? hreductions (fun r hr => ?_) ⟨definition, hdefinition,
        hbinds.stored.congr rfl⟩
      obtain ⟨d, hd, hbinds⟩ := hsound.reduction r hr
      exact ⟨d, hd, hbinds.congr rfl⟩
    · exact forall_of_insert? hreductions hsound.reductionRow reduction.stored_stored
    · exact subset_of_insert? hreductions
    · exact mem_of_insert? hreductions

end Writes

end Robata.Inference
