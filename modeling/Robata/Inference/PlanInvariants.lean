import Robata.Inference.BarrierRuns

/-!
# The tables of one plan

While all coordinators work on one input plan, with one set of reducers, every row
is the one that the plan determines: its barrier, its definition up to the time,
completions of its parts, and the reduction of these completions up to the time.
Then no read fails, and the storage refuses a row only because of its time.
-/

namespace Robata.Inference

open Contracts Lib List
open KeyedTable (find?_eq_none_iff find?_eq_some_iff mem_of_find? mem_rows_iff)

variable {H : Hashing} {R : Reducers} {plan : InferenceInputPlan}

/-! ## One plan -/

/-- The calls of coordinators of one plan, with one set of reducers. -/
def OnPlan (R : Reducers) (plan : InferenceInputPlan) : BarrierCall → BarrierDb → Prop
  | .declare p _, _ => p = plan
  | .submitPartTerminal p _ _ _, _ => p = plan
  | .getAggregateStatus p, _ => p = plan
  | .reduce reducers p _, _ => p = plan ∧ reducers = R

/-- An append does not meet a row with another time, and an output that is appended is equal to
what its text decodes to. -/
def Replayable : BarrierCommand → BarrierDb → Prop
  | .appendDefinition definition, db => ∀ stored,
      db.definitions.find? definition.barrierId = some stored →
        stored.createdAt = definition.createdAt
  | .appendReduction reduction, db => reduction.normalizedOutput.readBack = .equal ∧
      ∀ stored, db.reductions.find? reduction.barrierId = some stored →
        stored.reducedAt = reduction.reducedAt
  | _, _ => True

abbrev planBarrierId (H : Hashing) (plan : InferenceInputPlan) : OpaqueUuid :=
  barrierIdOf H plan.callPlan.barrierLogicalKey

variable (H plan) in
/-- A completion of a part of the plan. -/
structure CompletionOf (completion : InferenceCallPartCompletion) : Prop where
  bound : ∀ d : InferenceCallBarrierDefinition,
    d.toDefinitionProjection = planDefinition H plan →
      validateCompletionBinding d completion = .ok ()
  output : completion.status = .succeeded → completion.normalizedOutputSha256.isSome
  selected : completion.status = .succeeded → completion.selectionDecisionLogicalKey.isSome

/-- Nothing that binds a completion to its plan reads the output itself. -/
theorem CompletionOf.stored {completion : InferenceCallPartCompletion}
    (h : CompletionOf H plan completion) : CompletionOf H plan completion.stored :=
  ⟨h.bound, h.output, h.selected⟩

variable (H plan) in
/-- The barrier of the plan is closed. -/
def Closed (db : BarrierDb) : Prop :=
  ∃ b ∈ db.barriers.rows, b.barrierId = planBarrierId H plan ∧
    ∃ row, db.states.find? (planBarrierId H plan) = some row ∧ row.state.status = .closed

variable (H R plan) in
/-- The reduction that the reducers give for the stored completions. -/
def ReductionOf (db : BarrierDb) (reduction : InferenceCallReduction) : Prop :=
  Closed H plan db ∧ reduction.normalizedOutput.readBack = .equal ∧
  ∃ d ∈ db.definitions.rows, ∃ output,
    reducedOutput R plan d (db.completionsOf d.barrierId) = .ok output ∧
    buildReduction H plan d (db.completionsOf d.barrierId) output reduction.reducedAt =
      .ok reduction

variable (H R plan) in
/-- What holds of the tables while all coordinators work on one plan. -/
structure PlanSound (db : BarrierDb) : Prop extends BarrierSound db where
  barriers : ∀ b ∈ db.barriers.rows, b = planBarrier H plan
  states : ∀ row ∈ db.states.rows, ∃ b ∈ db.barriers.rows, b.barrierId = row.state.barrierId
  definitions : ∀ d ∈ db.definitions.rows, d.toDefinitionProjection = planDefinition H plan
  completions : ∀ c ∈ db.completions.rows, CompletionOf H plan c
  reductions : ∀ r ∈ db.reductions.rows, ReductionOf H R plan db r

theorem PlanSound.empty : PlanSound H R plan .empty where
  toBarrierSound := BarrierSound.empty
  barriers := forall_mem_nil _
  states := forall_mem_nil _
  definitions := forall_mem_nil _
  completions := forall_mem_nil _
  reductions := forall_mem_nil _

def planDiscipline (H : Hashing) (R : Reducers) (plan : InferenceInputPlan) :
    Discipline BarrierDb where
  Inv := PlanSound H R plan
  G := BarrierGrows
  refl := BarrierGrows.refl
  trans := BarrierGrows.trans

/-! ## Later tables -/

section Added

variable {db db' : BarrierDb}

theorem Closed.later (h : Closed H plan db) (hsound : BarrierSound db)
    (hsound' : BarrierSound db') (hgrows : BarrierGrows db db') : Closed H plan db' := by
  obtain ⟨b, hb, hid, row, hrow, hclosed⟩ := h
  obtain ⟨row₁, hrow₁, hderived₁⟩ := hsound.state b hb
  rw [hid, hrow] at hrow₁
  cases hrow₁
  obtain ⟨-, -, -, -, hiff, -⟩ := deriveState_spec (hsound.shape b hb).1 hderived₁
  have hsame := hgrows.complete b hb (hiff.mp hclosed).1
  obtain ⟨row₂, hrow₂, hderived₂⟩ := hsound'.state b (hgrows.barriers hb)
  rw [hsame, hderived₁, Except.ok.injEq] at hderived₂
  rw [hid] at hrow₂
  refine ⟨b, hgrows.barriers hb, hid, row₂, hrow₂, ?_⟩
  rw [← hderived₂]
  exact hclosed

/-- A reduction stays the one its completions give: it covers all parts, so no
completion is added. -/
theorem ReductionOf.later {reduction : InferenceCallReduction} (hsound : PlanSound H R plan db)
    (hsound' : BarrierSound db') (hgrows : BarrierGrows db db')
    (hmem : reduction ∈ db.reductions.rows) (h : ReductionOf H R plan db reduction) :
    ReductionOf H R plan db' reduction := by
  obtain ⟨hclosed, hequal, d, hd, output, houtput, hbuilt⟩ := h
  obtain ⟨d', hd', hbinds⟩ := hsound.reduction reduction hmem
  have hsame : d' = d := by
    refine db.definitions.eq_of_key_eq hd' hd ?_
    have hplan := (hsound.definitions d hd).trans (hsound.definitions d' hd').symm
    exact (congrArg DefinitionProjection.barrierId hplan).symm
  subst hsame
  have hcovered := hgrows.covered d' hd' (by rw [hbinds.barrierId]; exact hbinds.ordinals)
  refine ⟨hclosed.later hsound.toBarrierSound hsound' hgrows, hequal, d', hgrows.definitions hd',
    output, ?_, ?_⟩
  · rw [hcovered]
    exact houtput
  · rw [hcovered]
    exact hbuilt

theorem PlanSound.grow {bs : List Barrier} {ds : List InferenceCallBarrierDefinition}
    {cs : List InferenceCallPartCompletion} {rs : List InferenceCallReduction}
    (h : PlanSound H R plan db) (hsound : BarrierSound db') (hgrows : BarrierGrows db db')
    (hadds : Adds db db' bs ds cs rs) (hb : ∀ b ∈ bs, b = planBarrier H plan)
    (hd : ∀ d ∈ ds, d.toDefinitionProjection = planDefinition H plan)
    (hc : ∀ c ∈ cs, CompletionOf H plan c) (hr : ∀ r ∈ rs, ReductionOf H R plan db' r) :
    PlanSound H R plan db' where
  toBarrierSound := hsound
  barriers b hmem := forall_mem_append.mpr ⟨h.barriers, hb⟩ b (hadds.barriers hmem)
  states := by
    intro row hrow
    rcases hadds.states row hrow with ⟨old, hold, hid⟩ | hnew
    · obtain ⟨b, hmem, hbid⟩ := h.states old hold
      exact ⟨b, hgrows.barriers hmem, hbid.trans hid⟩
    · exact hnew
  definitions d hmem := forall_mem_append.mpr ⟨h.definitions, hd⟩ d (hadds.definitions hmem)
  completions c hmem := forall_mem_append.mpr ⟨h.completions, hc⟩ c (hadds.completions hmem)
  reductions := by
    intro r hmem
    rcases mem_append.mp (hadds.reductions hmem) with hold | hnew
    · exact (h.reductions r hold).later h hsound hgrows hold
    · exact hr r hnew

end Added

/-! ## Reading under the invariant -/

section Reads

variable {db db' : BarrierDb}

variable {d : InferenceCallBarrierDefinition}

theorem planDefinition_id (hd : d.toDefinitionProjection = planDefinition H plan) :
    d.barrierId = planBarrierId H plan :=
  congrArg DefinitionProjection.barrierId hd

theorem loadGenericBarrier_ok (hsound : BarrierSound db) {barrier : Barrier}
    (hbarrier : barrier ∈ db.barriers.rows) :
    ∃ row, db.loadGenericBarrier barrier.barrierId =
      .ok (barrier, row, db.membersOf barrier.barrierId) := by
  obtain ⟨row, hrow, hderived⟩ := hsound.state barrier hbarrier
  have hfound := mem_rows_iff.mp hbarrier
  have hcapacity := (deriveState_spec (hsound.shape barrier hbarrier).1 hderived).1
  refine ⟨row, ?_⟩
  unfold BarrierDb.loadGenericBarrier
  rw [hfound, hrow]
  simp only [bind_eq_ok, refuse_eq_ok, decide_eq_false_iff_not, not_lt, bne_eq_false_iff_eq]
  exact ⟨(), hcapacity, row.state, hderived, (), rfl, trivial⟩

theorem binding_ok (hd : d.toDefinitionProjection = planDefinition H plan) :
    validateCallDefinitionBinding (planBarrier H plan) d = .ok () := by
  obtain ⟨projection, createdAt⟩ := d
  cases hd
  simp [validateCallDefinitionBinding, planBarrier]

variable (h : PlanSound H R plan db)
include h

theorem requireCallDefinition_ok (hd : d ∈ db.definitions.rows) :
    db.requireCallDefinition (planBarrierId H plan) = .ok d := by
  have hplan := h.definitions d hd
  have hid := planDefinition_id hplan
  obtain ⟨b, hb, hbid, -⟩ := h.definition d hd
  have hfound : db.definitions.find? (planBarrierId H plan) = some d :=
    find?_eq_some_iff.mpr ⟨hd, hid⟩
  have hbarrier : db.barriers.find? (planBarrierId H plan) = some b :=
    find?_eq_some_iff.mpr ⟨hb, hbid.trans hid⟩
  unfold BarrierDb.requireCallDefinition
  rw [hfound, hbarrier]
  show (validateCallDefinitionBinding b d >>= fun _ => .ok d) = .ok d
  rw [h.barriers b hb, binding_ok hplan, ok_bind]

theorem getDefinition_ok : db.getDefinition (planBarrierId H plan) =
      .ok (db.definitions.find? (planBarrierId H plan)) := by
  unfold BarrierDb.getDefinition
  cases hfound : db.definitions.find? (planBarrierId H plan) with
  | none => rfl
  | some d =>
    rw [requireCallDefinition_ok h (mem_of_find? hfound), ok_bind]

theorem callCompletions_ok (hd : d ∈ db.definitions.rows)
    (hreadable : ∀ c ∈ db.completionsOf d.barrierId, c.Readable = true) :
    db.callCompletions d = .ok (db.completionsOf d.barrierId) := by
  unfold BarrierDb.callCompletions
  simp only [bind_eq_ok]
  refine ⟨_, completionsFromRows_eq_ok.mpr ⟨rfl, hreadable⟩, (), forM_eq_ok_iff.mpr ?_, rfl⟩
  intro c hc
  exact (h.completions c (mem_completionsOf.mp hc).1).bound d (h.definitions d hd)

end Reads

/-! ## A closed barrier -/

section Covered

variable {db : BarrierDb}

/-- A sorted list of distinct numbers with the elements of a range is that range. -/
theorem eq_range_of_mem_iff {ordinals : List Nat} {n : Nat} (hsorted : ordinals.Pairwise (· ≤ ·))
    (hnodup : ordinals.Nodup) (hmem : ∀ i, i ∈ ordinals ↔ i < n) : ordinals = List.range n := by
  have hperm : ordinals.Perm (List.range n) := by
    rw [perm_ext_iff_of_nodup hnodup nodup_range]
    intro i
    rw [hmem, mem_range]
  exact hperm.eq_of_pairwise' hsorted pairwise_le_range

theorem membersOf_keys_nodup (barrierId : OpaqueUuid) :
    ((db.membersOf barrierId).map (·.workItemId)).Nodup := by
  refine (((perm_insertionSort _ _).map _).nodup_iff).mpr ?_
  rw [map_map]
  exact db.members.nodup_map_filter fun a b ha hb heq =>
    Prod.ext ((eq_of_beq ha).trans (eq_of_beq hb).symm) heq

theorem completionsOf_ordinals_nodup (barrierId : OpaqueUuid) :
    ((db.completionsOf barrierId).map (·.partOrdinal)).Nodup := by
  refine (((perm_insertionSort _ _).map _).nodup_iff).mpr ?_
  exact db.completions.nodup_map_filter fun a b ha hb heq =>
    Prod.ext ((eq_of_beq ha).trans (eq_of_beq hb).symm) heq

theorem completionsOf_ordinals_sorted (barrierId : OpaqueUuid) :
    ((db.completionsOf barrierId).map (·.partOrdinal)).Pairwise (· ≤ ·) := by
  rw [pairwise_map]
  exact pairwise_insertionSort _ _

theorem CompletionOf.part {c : InferenceCallPartCompletion} (h : CompletionOf H plan c) :
    c.partOrdinal < plan.callPlan.parts.length ∧ c.barrierId = planBarrierId H plan ∧
      (plan.callPlan.parts.map (·.partSemanticSha256))[c.partOrdinal]? = some c.partSemanticSha256 ∧
      (plan.callPlan.parts.map (·.partLogicalKey))[c.partOrdinal]? = some c.partLogicalKey := by
  have hbound := h.bound ⟨planDefinition H plan, ""⟩ rfl
  unfold validateCompletionBinding at hbound
  simp only [refuse_eq_ok, Bool.or_eq_false_iff, bne_eq_false_iff_eq,
    decide_eq_false_iff_not, not_le] at hbound
  obtain ⟨⟨⟨⟨⟨⟨⟨⟨hordinal, hid⟩, -⟩, -⟩, -⟩, -⟩, hsemantic⟩, hkey⟩, -⟩ := hbound
  exact ⟨hordinal, hid, hsemantic, hkey⟩

theorem Closed.cohort (hclosed : Closed H plan db) (h : PlanSound H R plan db) :
    (∃ d, d ∈ db.definitions.rows) ∧
      (db.membersOf (planBarrierId H plan)).length = plan.callPlan.parts.length ∧
      ∀ m ∈ db.membersOf (planBarrierId H plan), m.outcome = .succeeded := by
  obtain ⟨b, hb, hid, row, hrow, hstatus⟩ := hclosed
  obtain ⟨row₁, hrow₁, hderived⟩ := h.state b hb
  rw [hid] at hrow₁ hderived
  rw [hrow] at hrow₁
  cases hrow₁
  obtain ⟨-, -, -, -, hiff, -⟩ := deriveState_spec (h.shape b hb).1 hderived
  have hlength := (hiff.mp hstatus).1
  have hcount : b.expectedMemberCount = plan.callPlan.parts.length := by
    rw [h.barriers b hb]
    rfl
  have hdeclared : ∃ d, d ∈ db.definitions.rows := by
    obtain ⟨m, hm⟩ := exists_mem_of_length_pos (by rw [hlength]; exact (h.shape b hb).1)
    obtain ⟨-, d, hd, -⟩ := h.member _ (mem_membersOf.mp hm)
    exact ⟨d, hd⟩
  obtain ⟨d, hd⟩ := hdeclared
  obtain ⟨row₂, hrow₂, hcohort⟩ := h.cohortState hd
  rw [planDefinition_id (h.definitions d hd), hrow] at hrow₂
  cases hrow₂
  have hall := (hcohort.closed.mp hstatus).2
  rw [planDefinition_id (h.definitions d hd)] at hall
  exact ⟨⟨d, hd⟩, hlength.trans hcount, hall⟩

theorem Closed.member_of_key (hclosed : Closed H plan db) (h : PlanSound H R plan db)
    {key : String} (hkey : key ∈ plan.callPlan.parts.map (·.partLogicalKey)) :
    ∃ m ∈ db.membersOf (planBarrierId H plan), m.workItemId = key := by
  obtain ⟨-, hlength, -⟩ := hclosed.cohort h
  have hsub : (db.membersOf (planBarrierId H plan)).map (·.workItemId) ⊆
      plan.callPlan.parts.map fun part => part.partLogicalKey := by
    intro k hk
    obtain ⟨m, hm, rfl⟩ := mem_map.mp hk
    obtain ⟨-, d, hd, -, hdeclared, -⟩ := h.member _ (mem_membersOf.mp hm)
    have hplan := congrArg DefinitionProjection.expectedPartLogicalKeys (h.definitions d hd)
    rw [hplan] at hdeclared
    exact hdeclared
  -- as many distinct keys as there are parts, so every part has its member
  have hperm := (subperm_of_subset (membersOf_keys_nodup _) hsub).perm_of_length_le
    (by rw [length_map, length_map, hlength])
  exact mem_map.mp (hperm.mem_iff.mpr hkey)

theorem ordinal_eq {c c' : InferenceCallPartCompletion} (hc : CompletionOf H plan c)
    (hc' : CompletionOf H plan c') (hkey : c.partLogicalKey = c'.partLogicalKey) :
    c.partOrdinal = c'.partOrdinal := by
  obtain ⟨hlt, -, -, hget⟩ := hc.part
  obtain ⟨-, -, -, hget'⟩ := hc'.part
  rw [hkey, ← hget'] at hget
  exact (getElem?_inj (by rw [length_map]; exact hlt) plan.callPlan.logicalKeys).mp hget

/-- The completions of a closed barrier: one success for each part, in part order, each of them
read when its member was added. -/
theorem Closed.completions (hclosed : Closed H plan db) (h : PlanSound H R plan db) :
    (db.completionsOf (planBarrierId H plan)).map (·.partOrdinal) =
        List.range plan.callPlan.parts.length ∧
      ∀ c ∈ db.completionsOf (planBarrierId H plan), c.status = .succeeded ∧
        c.Readable = true := by
  obtain ⟨-, -, hall⟩ := hclosed.cohort h
  -- a member stands for a successful completion under its key
  have hmember : ∀ key ∈ plan.callPlan.parts.map (·.partLogicalKey),
      ∃ c ∈ db.completionsOf (planBarrierId H plan), c.partLogicalKey = key ∧
        c.status = .succeeded ∧ c.Readable = true := by
    intro key hkey
    obtain ⟨m, hm, rfl⟩ := hclosed.member_of_key h hkey
    obtain ⟨-, -, -, -, -, c, hc, hid, hckey, houtcome, hread⟩ := h.member _ (mem_membersOf.mp hm)
    refine ⟨c, mem_completionsOf.mpr ⟨hc, hid⟩, hckey, ?_, hread⟩
    have hsucceeded : stageStatus c.status = .succeeded := houtcome.symm.trans (hall m hm)
    cases hstatus : c.status <;> rw [hstatus] at hsucceeded <;> first | rfl | cases hsucceeded
  have hof : ∀ c ∈ db.completionsOf (planBarrierId H plan), CompletionOf H plan c :=
    fun c hc => h.completions c (mem_completionsOf.mp hc).1
  refine ⟨eq_range_of_mem_iff (completionsOf_ordinals_sorted _) (completionsOf_ordinals_nodup _)
    ?_, ?_⟩
  · intro i
    constructor
    · intro hi
      obtain ⟨c, hc, rfl⟩ := mem_map.mp hi
      exact (hof c hc).part.1
    · intro hi
      obtain ⟨c, hc, hckey, -⟩ := hmember _ (mem_map.mpr
        ⟨plan.callPlan.parts[i], getElem_mem hi, rfl⟩)
      obtain ⟨hlt, -, -, hget⟩ := (hof c hc).part
      have hsame : (plan.callPlan.parts.map (·.partLogicalKey))[c.partOrdinal]? =
          (plan.callPlan.parts.map (·.partLogicalKey))[i]? := by
        rw [hget, hckey, getElem?_map, getElem?_eq_getElem hi]
        rfl
      have hordinal := (getElem?_inj (by rw [length_map]; exact hlt)
        plan.callPlan.logicalKeys).mp hsame
      exact mem_map.mpr ⟨c, hc, hordinal⟩
  · intro c hc
    obtain ⟨-, -, -, hget⟩ := (hof c hc).part
    obtain ⟨c', hc', hkey, hsucceeded⟩ := hmember c.partLogicalKey (mem_of_getElem? hget)
    have hordinal := ordinal_eq (hof c' hc') (hof c hc) hkey
    have hsame : c' = c := by
      refine db.completions.eq_of_key_eq (mem_completionsOf.mp hc').1 (mem_completionsOf.mp hc).1 ?_
      rw [(mem_completionsOf.mp hc').2, (mem_completionsOf.mp hc).2, hordinal]
    rw [← hsame]
    exact hsucceeded

theorem Closed.parts (hclosed : Closed H plan db) (h : PlanSound H R plan db) :
    (db.completionsOf (planBarrierId H plan)).map (·.partSemanticSha256) =
      plan.callPlan.parts.map fun part => part.partSemanticSha256 := by
  obtain ⟨hordinals, -⟩ := hclosed.completions h
  apply map_injective_iff.mpr (Option.some_injective _)
  calc ((db.completionsOf (planBarrierId H plan)).map (·.partSemanticSha256)).map some
      = (db.completionsOf (planBarrierId H plan)).map fun c =>
          (plan.callPlan.parts.map (·.partSemanticSha256))[c.partOrdinal]? := by
        rw [map_map]
        apply map_congr_left
        intro c hc
        exact (h.completions c (mem_completionsOf.mp hc).1).part.2.2.1.symm
    _ = ((db.completionsOf (planBarrierId H plan)).map (·.partOrdinal)).map fun i =>
          (plan.callPlan.parts.map (·.partSemanticSha256))[i]? := by
        rw [map_map]
        rfl
    _ = (plan.callPlan.parts.map (·.partSemanticSha256)).map some := by
        rw [hordinals]
        apply ext_getElem?
        intro i
        by_cases hi : i < plan.callPlan.parts.length
        · simp [hi]
        · simp [hi]

end Covered

/-! ## Reductions of a closed barrier -/

section Reductions

variable {db : BarrierDb}

theorem requiredOf_eq_ok {α : Type} {values : List (Option α)} {message : String}
    {present : List α} (h : requiredOf values message = .ok present) :
    present.map some = values := by
  unfold requiredOf at h
  split at h
  · rename_i found hfound
    cases h
    have hmap := mapM_eq_some_iff.mp hfound
    rw [map_id] at hmap
    exact hmap.symm
  · cases h

theorem requiredOf_ok {α : Type} {values : List (Option α)} {message : String}
    (h : ∀ value ∈ values, value.isSome) : ∃ present, requiredOf values message = .ok present := by
  have hmap : values.mapM id = some (values.pmap Option.get h) := by
    simp [mapM_eq_some_iff, map_pmap]
  unfold requiredOf
  rw [hmap]
  exact ⟨_, rfl⟩

theorem Closed.build_ok (hclosed : Closed H plan db) (h : PlanSound H R plan db)
    (d : InferenceCallBarrierDefinition) (output : JsonObject) (reducedAt : String) :
    ∃ reduction, buildReduction H plan d (db.completionsOf (planBarrierId H plan)) output
      reducedAt = .ok reduction := by
  obtain ⟨-, hmember⟩ := hclosed.completions h
  have houtputs : ∀ value ∈ (db.completionsOf (planBarrierId H plan)).map
      (·.normalizedOutputSha256), value.isSome := by
    intro value hvalue
    obtain ⟨c, hc, rfl⟩ := mem_map.mp hvalue
    exact (h.completions c (mem_completionsOf.mp hc).1).output (hmember c hc).1
  have hselections : ∀ value ∈ (db.completionsOf (planBarrierId H plan)).map
      (·.selectionDecisionLogicalKey), value.isSome := by
    intro value hvalue
    obtain ⟨c, hc, rfl⟩ := mem_map.mp hvalue
    exact (h.completions c (mem_completionsOf.mp hc).1).selected (hmember c hc).1
  obtain ⟨digests, hdigests⟩ := requiredOf_ok houtputs
  obtain ⟨keys, hkeys⟩ := requiredOf_ok hselections
  unfold buildReduction
  rw [hdigests, hkeys]
  exact ⟨_, rfl⟩

/-- The barrier of a reduction is the one it was built for, at the time given. -/
theorem buildReduction_spec {d : InferenceCallBarrierDefinition}
    {completions : List InferenceCallPartCompletion} {output : JsonObject} {reducedAt : String}
    {reduction : InferenceCallReduction}
    (h : buildReduction H plan d completions output reducedAt = .ok reduction) :
    reduction.barrierId = d.barrierId ∧ reduction.reducedAt = reducedAt := by
  unfold buildReduction at h
  simp only [bind_eq_ok] at h
  obtain ⟨_, -, _, -, h⟩ := h
  cases h
  exact ⟨rfl, rfl⟩

theorem Closed.validate_ok (hclosed : Closed H plan db) (h : PlanSound H R plan db)
    {d : InferenceCallBarrierDefinition} (hd : d ∈ db.definitions.rows) {output : JsonObject}
    {reducedAt : String} {reduction : InferenceCallReduction}
    (hbuilt : buildReduction H plan d (db.completionsOf d.barrierId) output reducedAt =
      .ok reduction) :
    db.validateReduction d (db.completionsOf d.barrierId) reduction = .ok () := by
  have hplan := h.definitions d hd
  have hid := planDefinition_id hplan
  rw [hid] at hbuilt
  have hcount : d.partCount = plan.callPlan.parts.length :=
    congrArg DefinitionProjection.partCount hplan
  obtain ⟨hordinals, hmember⟩ := hclosed.completions h
  have hsucceeded : ∀ c ∈ db.completionsOf (planBarrierId H plan), c.status = .succeeded :=
    fun c hc => (hmember c hc).1
  obtain ⟨-, hmembers, -⟩ := hclosed.cohort h
  obtain ⟨b, hb, hbid, row, hrow, hstatus⟩ := hclosed
  obtain ⟨loaded, hloaded⟩ := loadGenericBarrier_ok h.toBarrierSound hb
  rw [hbid] at hloaded
  obtain ⟨-, hrow', -, -⟩ := loadGenericBarrier_spec hloaded
  rw [hrow] at hrow'
  cases hrow'
  have hlength : (db.completionsOf (planBarrierId H plan)).length = d.partCount := by
    rw [hcount, ← length_range (n := plan.callPlan.parts.length), ← hordinals, length_map]
  have hof : ∀ c ∈ db.completionsOf (planBarrierId H plan), CompletionOf H plan c :=
    fun c hc => h.completions c (mem_completionsOf.mp hc).1
  unfold buildReduction at hbuilt
  simp only [bind_eq_ok] at hbuilt
  obtain ⟨digests, hdigests, keys, hkeys, hbuilt⟩ := hbuilt
  cases hbuilt
  unfold BarrierDb.validateReduction
  rw [hid]
  simp only [bind_eq_ok, refuse_eq_ok, Bool.or_eq_false_iff, bne_eq_false_iff_eq,
    decide_eq_false_iff_not, not_not, any_eq_false, bne_iff_ne, true_and]
  refine ⟨(), ⟨hlength, hcount ▸ hordinals⟩, (), hsucceeded, _, hloaded, (), ⟨hstatus, ?_⟩, (),
    ⟨?_, ?_⟩, ?_, ?_, requiredOf_eq_ok hdigests, requiredOf_eq_ok hkeys⟩
  · rw [hcount]
    exact hmembers
  · intro c hc
    simp [Option.isSome_iff_ne_none.mp ((hof c hc).output (hsucceeded c hc))]
  · intro c hc
    simp [Option.isSome_iff_ne_none.mp ((hof c hc).selected (hsucceeded c hc))]
  · exact (congrArg DefinitionProjection.inputPlanSemanticSha256 hplan).symm
  · exact (congrArg DefinitionProjection.callPlanSha256 hplan).symm

theorem Closed.read_ok (hclosed : Closed H plan db) (h : PlanSound H R plan db)
    {d : InferenceCallBarrierDefinition} (hd : d ∈ db.definitions.rows) :
    db.callCompletions d = .ok (db.completionsOf d.barrierId) := by
  refine callCompletions_ok h hd ?_
  rw [planDefinition_id (h.definitions d hd)]
  exact fun c hc => ((hclosed.completions h).2 c hc).2

theorem getReduction_ok (h : PlanSound H R plan db) :
    db.getReduction (planBarrierId H plan) = .ok (db.reductions.find? (planBarrierId H plan)) := by
  unfold BarrierDb.getReduction
  cases hfound : db.reductions.find? (planBarrierId H plan) with
  | none => rfl
  | some r =>
    obtain ⟨hclosed, hequal, d, hd, output, -, hbuilt⟩ := h.reductions r (mem_of_find? hfound)
    have hread : reductionFromRow r = .ok r := by
      rw [reductionFromRow_eq_ok, hequal]
      exact ⟨rfl, by decide⟩
    simp only [hread, ok_bind, bind_eq_ok]
    exact ⟨d, requireCallDefinition_ok h hd, _, hclosed.read_ok h hd, (),
      hclosed.validate_ok h hd hbuilt, trivial⟩

end Reductions

/-! ## Transactions that go through -/

section Writes

variable {db db' : BarrierDb}

theorem insert?_ok {ρ κ : Type} [DecidableEq κ] {key : ρ → κ} {table : KeyedTable ρ κ key}
    {row : ρ} (hfresh : table.find? (key row) = none) :
    ∃ table', inserted (table.insert? row) = .ok table' := by
  obtain ⟨table', hinsert⟩ := KeyedTable.insert?_of_free hfresh
  rw [hinsert]
  exact ⟨table', rfl⟩

variable (h : PlanSound H R plan db)
include h

theorem saveBarrier_ok : ∃ db', db.saveBarrier (planBarrier H plan) = .ok db' := by
  have hpos := length_pos_of_ne_nil plan.callPlan.nonempty
  have hvalid : validateBarrierDefinition (planBarrier H plan) = .ok () := by
    simp [validateBarrierDefinition, planBarrier, refuse, StageStatus.isSuccess, hpos.ne']
  unfold BarrierDb.saveBarrier
  rw [hvalid, ok_bind]
  cases hfound : db.barriers.find? (planBarrier H plan).barrierId with
  | some existing =>
    have hmem := mem_of_find? hfound
    have hsame := h.barriers existing hmem
    rw [hsame] at hmem ⊢
    obtain ⟨row, hloaded⟩ := loadGenericBarrier_ok h.toBarrierSound hmem
    simp only [bind_eq_ok, refuse_eq_ok, bne_eq_false_iff_eq]
    exact ⟨db, (), trivial, _, hloaded, rfl⟩
  | none =>
    -- a row of the plan would have been found, so the tables are empty
    have hempty : ∀ b, b ∉ db.barriers.rows := by
      intro b hb
      refine find?_eq_none_iff.mp hfound b hb ?_
      rw [h.barriers b hb]
    have hkeys : (db.barriers.rows.any fun row =>
        row.logicalKey == (planBarrier H plan).logicalKey) = false := by
      rw [any_eq_false]
      intro b hb
      exact absurd hb (hempty b)
    have hderived : ∃ state, deriveState (planBarrier H plan) [] = .ok state ∧
        db.states.find? state.barrierId = none := by
      refine ⟨_, rfl, ?_⟩
      rw [find?_eq_none_iff]
      intro row hrow _
      obtain ⟨b, hb, -⟩ := h.states row hrow
      exact hempty b hb
    obtain ⟨state, hstate, hfresh⟩ := hderived
    obtain ⟨barriers, hbarriers⟩ := insert?_ok hfound
    have hrow := @insert?_ok _ _ _ _ db.states ⟨state, 0⟩ hfresh
    obtain ⟨states, hstates⟩ := hrow
    simp only [bind_eq_ok, refuse_eq_ok]
    exact ⟨_, (), hkeys, barriers, hbarriers, state, hstate, states, hstates, rfl⟩

theorem appendDefinition_ok
    (hbarrier : planBarrier H plan ∈ db.barriers.rows) {d : InferenceCallBarrierDefinition}
    (hd : d.toDefinitionProjection = planDefinition H plan)
    (htime : Replayable (.appendDefinition d) db) :
    ∃ result, db.appendDefinition d = .ok result := by
  have hid := planDefinition_id hd
  have hfound : db.barriers.find? d.barrierId = some (planBarrier H plan) :=
    find?_eq_some_iff.mpr ⟨hbarrier, hid.symm⟩
  unfold BarrierDb.appendDefinition
  rw [hfound]
  show ∃ result, (validateCallDefinitionBinding (planBarrier H plan) d >>= fun _ => _) = .ok result
  rw [binding_ok hd, ok_bind]
  cases hstored : db.definitions.find? d.barrierId with
  | some stored =>
    have hplan := h.definitions stored (mem_of_find? hstored)
    have hsame : stored = d := by
      obtain ⟨projection, createdAt⟩ := stored
      obtain ⟨projection', createdAt'⟩ := d
      have htimes : createdAt = createdAt' := htime _ hstored
      have hprojections : projection = projection' := hplan.trans hd.symm
      rw [htimes, hprojections]
    subst hsame
    simp only [bind_eq_ok, refuse_eq_ok, bne_eq_false_iff_eq]
    exact ⟨_, (), trivial, rfl⟩
  | none =>
    obtain ⟨definitions, hdefinitions⟩ := insert?_ok hstored
    simp only [bind_eq_ok]
    exact ⟨_, definitions, hdefinitions, rfl⟩

theorem appendReduction_ok (hclosed : Closed H plan db)
    {d : InferenceCallBarrierDefinition} (hd : d ∈ db.definitions.rows) {output : JsonObject}
    {reducedAt : String} {reduction : InferenceCallReduction}
    (houtput : reducedOutput R plan d (db.completionsOf d.barrierId) = .ok output)
    (hbuilt : buildReduction H plan d (db.completionsOf d.barrierId) output reducedAt =
      .ok reduction)
    (htime : Replayable (.appendReduction reduction) db) :
    ∃ result, db.appendReduction reduction = .ok result := by
  obtain ⟨hrid, hat⟩ := buildReduction_spec hbuilt
  have hid := planDefinition_id (h.definitions d hd)
  have hrequire := requireCallDefinition_ok h hd
  rw [← hid, ← hrid] at hrequire
  have hone : ∀ r ∈ db.reductions.rows, r.reducedAt = reduction.reducedAt → r = reduction := by
    intro r hr hsame
    obtain ⟨-, -, d', hd', output', houtput', hbuilt'⟩ := h.reductions r hr
    have hd'' : d' = d := db.definitions.eq_of_key_eq hd' hd
      ((planDefinition_id (h.definitions d' hd')).trans hid.symm)
    subst hd''
    rw [houtput] at houtput'
    cases houtput'
    rw [hsame, hat, hbuilt] at hbuilt'
    exact (Except.ok.inj hbuilt').symm
  have hkey : ∀ r ∈ db.reductions.rows, r.barrierId = reduction.barrierId := by
    intro r hr
    obtain ⟨-, -, d', hd', _, -, hbuilt'⟩ := h.reductions r hr
    rw [(buildReduction_spec hbuilt').1, hrid, hid]
    exact planDefinition_id (h.definitions d' hd')
  unfold BarrierDb.appendReduction
  rw [hrequire, ok_bind, hclosed.read_ok h hd, ok_bind, hclosed.validate_ok h hd hbuilt, ok_bind]
  cases hstored : db.reductions.find? reduction.barrierId with
  | some stored =>
    have hsame := hone stored (mem_of_find? hstored) (htime.2 stored hstored)
    subst hsame
    have hread : reductionFromRow stored = .ok stored := by
      rw [reductionFromRow_eq_ok, htime.1]
      exact ⟨rfl, by decide⟩
    simp only [hread, ok_bind, bind_eq_ok, refuse_eq_ok, bne_eq_false_iff_eq]
    exact ⟨_, (), trivial, rfl⟩
  | none =>
    have hnone : (db.reductions.rows.any (·.reductionId == reduction.reductionId)) = false := by
      rw [any_eq_false]
      intro r hr
      exact absurd (hkey r hr) (find?_eq_none_iff.mp hstored r hr)
    obtain ⟨reductions, hreductions⟩ := @insert?_ok _ _ _ _ db.reductions reduction.stored hstored
    simp only [bind_eq_ok, refuse_eq_ok]
    exact ⟨_, (), hnone, reductions, hreductions, rfl⟩

end Writes

end Robata.Inference
