import Robata.Inference.BarrierInvariants

/-!
# Workers interleaved over one barrier storage

Every method of the coordinator keeps the discipline of the tables between its
transactions.  A member is only added after the definition of its barrier has
been read, which stays, so the storage checks it against its completion; and the
separate reads of `get_aggregate_status` agree because a cohort whose state is
terminal takes no further member.
-/

namespace Robata.Inference

open Contracts Lib
open Returns (error)
open Safe (ofExcept_bind perform query_bind returns_bind transact_bind)

variable {H : Hashing} {admits : BarrierCommand → BarrierDb → Prop} {s : BarrierDb}

/-! ## Derived states -/

variable {barrier : Barrier} {members : List BarrierMember}

theorem deriveState_spec {state : BarrierState} (hpos : 0 < barrier.expectedMemberCount)
    (h : deriveState barrier members = .ok state) :
    members.length ≤ barrier.expectedMemberCount ∧
      state.completedMembers = members.length ∧
      state.completedMembers + state.pendingMembers = barrier.expectedMemberCount ∧
      (state.status = .opened ↔ members.length < barrier.expectedMemberCount) ∧
      (state.status = .closed ↔ members.length = barrier.expectedMemberCount ∧
        acceptable barrier members = true) ∧
      (state.status = .failed ↔ members.length = barrier.expectedMemberCount ∧
        acceptable barrier members = false) := by
  unfold deriveState at h
  simp only [bind_eq_ok, refuse_eq_ok, decide_eq_false_iff_not, not_lt] at h
  obtain ⟨_, hcapacity, h⟩ := h
  cases h
  simp only [if_neg hpos.ne']
  refine ⟨hcapacity, trivial, by omega, ?_⟩
  by_cases hlt : members.length < barrier.expectedMemberCount
  · have hne : members.length ≠ barrier.expectedMemberCount := hlt.ne
    simp [hlt, hne]
  · have heq : members.length = barrier.expectedMemberCount := by omega
    cases hacceptable : acceptable barrier members <;> simp [heq]

/-- A cohort of required members is acceptable when all of them are successful. -/
theorem acceptable_iff (hrequired : barrier.requiredSuccessCount = members.length)
    (hcritical : ∀ m ∈ members, m.criticality = .required) :
    acceptable barrier members = true ↔ ∀ m ∈ members, m.outcome.isSuccess = true := by
  have hdegraded : (members.countP fun member =>
      member.criticality == .degradable && member.outcome.isFailure) = 0 := by
    rw [List.countP_eq_zero]
    intro m hm
    rw [hcritical m hm]
    simp
  unfold acceptable
  rw [hdegraded, hrequired]
  simp only [Bool.and_eq_true, Bool.not_eq_true', List.any_eq_false, decide_eq_true_eq,
    Nat.zero_le, and_true]
  constructor
  · rintro ⟨hnone, -⟩ m hm
    have hm' := hnone m hm
    rw [hcritical m hm] at hm'
    simpa using hm'
  · intro hall
    refine ⟨?_, ?_⟩
    · intro m hm
      simp [hall m hm]
    · exact (List.countP_eq_length.mpr hall).ge

theorem stageStatus_isSuccess_iff {status : InferenceStatus} :
    (stageStatus status).isSuccess = true ↔ stageStatus status = .succeeded := by
  cases status <;> decide

/-! ## The methods -/

theorem planBarrier_shape (plan : InferenceInputPlan) :
    0 < (planBarrier H plan).expectedMemberCount ∧
      (planBarrier H plan).requiredSuccessCount = (planBarrier H plan).expectedMemberCount ∧
      (planBarrier H plan).maxDegradedFailures = 0 :=
  ⟨List.length_pos_of_ne_nil plan.callPlan.nonempty, rfl, rfl⟩

theorem createBarrier_safe
    (hshape : 0 < barrier.expectedMemberCount ∧
      barrier.requiredSuccessCount = barrier.expectedMemberCount ∧
      barrier.maxDegradedFailures = 0) :
    Safe BarrierCommand.run admits barrierDiscipline
      (Returns fun b db => b = barrier ∧ barrier ∈ db.barriers.rows) (createBarrier barrier) s := by
  refine ofExcept_bind ?_ (fun _ _ _ _ _ => error)
  intro _ _
  refine transact_bind (Method.answerless (·.saveBarrier barrier)) rfl ?_
    (fun _ _ _ _ _ _ _ _ _ => error)
  intro db _ db' hsound _ _ hsaved
  rw [Method.answerless_eq_ok] at hsaved
  obtain ⟨hsound', hgrows, -, hmem⟩ := saveBarrier_spec hsound hshape hsaved
  refine ⟨hsound', hgrows, ?_⟩
  have hreturns : ∀ later, BarrierGrows db' later → Returns (ε := BarrierError)
      (fun b db => b = barrier ∧ barrier ∈ db.barriers.rows) (.ok barrier) later :=
    fun later hlater => Returns.ok ⟨rfl, hlater.barriers hmem⟩
  refine query_bind rfl ?_ (fun _ _ _ _ _ _ _ _ _ => error)
  intro read state _ hread _ _
  cases state with
  | some _ => exact fun later _ hlater => hreturns later (hread.trans hlater)
  | none =>
    refine transact_bind (Method.answerless (·.saveState _)) rfl ?_ (fun _ _ _ _ _ _ _ _ _ => error)
    intro db₂ _ db₂' hsound₂ hgrows₂ _ hsaved₂
    rw [Method.answerless_eq_ok] at hsaved₂
    have hsame := saveState_eq hsaved₂
    subst hsame
    exact ⟨hsound₂, .refl _, fun later _ hlater =>
      hreturns later (hread.trans (hgrows₂.trans hlater))⟩

theorem raises {α : Type} {P : α → BarrierDb → Prop} (e : BarrierError) (db : BarrierDb)
    (_ : BarrierSound db) (_ : BarrierGrows s db) : Returns P (.error e) db :=
  error

variable {db : BarrierDb} {barrierId : OpaqueUuid} {definition : InferenceCallBarrierDefinition}

theorem getDefinition_spec (h : db.getDefinition barrierId = .ok (some definition)) :
    definition ∈ db.definitions.rows ∧ definition.barrierId = barrierId := by
  unfold BarrierDb.getDefinition at h
  split at h
  · cases h
  · obtain ⟨found, hfound, h⟩ := bind_eq_ok.mp h
    cases h
    exact requireCallDefinition_spec hfound

theorem requireDefinition_safe (plan : InferenceInputPlan) :
    Safe BarrierCommand.run admits barrierDiscipline
      (Returns fun definition db => definition ∈ db.definitions.rows ∧
        definition.toDefinitionProjection = planDefinition H plan)
      (requireDefinition H plan) s := by
  refine query_bind rfl ?_ (fun _ e _ _ _ _ => raises e)
  intro db found hsound hgrows _ hread
  cases found with
  | none => exact raises _
  | some definition =>
    obtain ⟨hmem, hid⟩ := getDefinition_spec hread
    refine ofExcept_bind ?_ (fun e _ => raises e)
    intro _ hsame
    simp only [refuse_eq_ok, bne_eq_false_iff_eq] at hsame
    have hid' : (planDefinition H plan).barrierId = definition.barrierId := hid.symm
    rw [hid'] at hsame
    exact fun later _ hlater => Returns.ok ⟨hlater.definitions hmem, hsame⟩

theorem declare_safe (hsound : BarrierSound s) (plan : InferenceInputPlan) (createdAt : String) :
    Safe BarrierCommand.run admits barrierDiscipline
      (Returns fun definition db => definition ∈ db.definitions.rows ∧
        definition.toDefinitionProjection = planDefinition H plan)
      (declare H plan createdAt) s := by
  refine returns_bind hsound (createBarrier_safe (planBarrier_shape plan)) ?_ raises
  rintro barrier db hsound' _ ⟨rfl, -⟩
  refine query_bind rfl ?_ (fun _ e _ _ _ _ => raises e)
  intro read existing _ _ _ hread
  cases existing with
  | some stored =>
    obtain ⟨hmem, -⟩ := getDefinition_spec hread
    refine ofExcept_bind ?_ (fun e _ => raises e)
    intro _ hsame
    simp only [refuse_eq_ok, bne_eq_false_iff_eq] at hsame
    exact fun later _ hlater => Returns.ok ⟨hlater.definitions hmem, hsame⟩
  | none =>
    refine perform (transact_bind (·.appendDefinition _) rfl ?_ (fun _ e _ _ _ _ => raises e))
    intro db₁ stored db₂ hsound₁ _ _ happended
    obtain ⟨hsound₂, hgrows₂, -, rfl, hmem⟩ := appendDefinition_spec hsound₁ happended
    exact ⟨hsound₂, hgrows₂, fun later _ hlater => Returns.ok ⟨hlater.definitions hmem, rfl⟩⟩

theorem submitMember_safe {member : BarrierMember} (hrequired : member.criticality = .required)
    (hdefinition : definition ∈ s.definitions.rows) (hid : definition.barrierId = barrierId) :
    Safe BarrierCommand.run admits barrierDiscipline
      (Returns fun _ db => (⟨barrierId, member⟩ : MemberRow) ∈ db.members.rows)
      (submitMember barrierId member) s := by
  refine transact_bind (Method.answerless (·.addMember barrierId member)) rfl ?_
    (fun _ e _ _ _ _ => raises e)
  intro db _ db' hsound hgrows _ hadded
  rw [Method.answerless_eq_ok] at hadded
  obtain ⟨hsound', hgrows', -, hmem⟩ :=
    addMember_spec hsound hrequired (hgrows.definitions hdefinition) hid hadded
  refine ⟨hsound', hgrows', ?_⟩
  refine query_bind rfl ?_ (fun _ e _ _ _ _ => raises e)
  intro read state _ hread _ _
  cases state with
  | none => exact raises _
  | some _ => exact fun later _ hlater => Returns.ok (hlater.members (hread.members hmem))

theorem submitPartTerminal_safe (hsound : BarrierSound s) (plan : InferenceInputPlan)
    (inference : ModelInference) (selection : Option InferenceAttemptSelection)
    (failureIsFinal : Bool) :
    Safe BarrierCommand.run admits barrierDiscipline
      (Returns fun completion db => completion.stored ∈ db.completions.rows)
      (submitPartTerminal H plan inference selection failureIsFinal) s := by
  refine returns_bind hsound (requireDefinition_safe plan) ?_ raises
  rintro definition db₁ _ _ ⟨hdefinition, -⟩
  refine ofExcept_bind ?_ (fun e _ => raises e)
  intro part _
  refine ofExcept_bind ?_ (fun e _ => raises e)
  intro raw _
  refine ofExcept_bind ?_ (fun e _ => raises e)
  intro outcome _
  refine transact_bind (·.appendCompletion _) rfl ?_ (fun _ e _ _ _ _ => raises e)
  intro db₂ stored db₃ hsound₂ hgrows₂ _ happended
  obtain ⟨hsound₃, hgrows₃, -, rfl, hmem⟩ := appendCompletion_spec hsound₂ happended
  refine ⟨hsound₃, hgrows₃, ?_⟩
  refine returns_bind hsound₃ (submitMember_safe rfl
    (hgrows₃.definitions (hgrows₂.definitions hdefinition)) rfl) ?_ raises
  intro _ db₄ _ hgrows₄ _
  exact fun later _ hlater => Returns.ok (hlater.completions (hgrows₄.completions hmem))

/-- A complete aggregate is that of the stored members, which are all there are
going to be. -/
def Final (barrierId : OpaqueUuid) (status : AggregateStatus) (db : BarrierDb) : Prop :=
  ∃ b ∈ db.barriers.rows, b.barrierId = barrierId ∧
    (db.membersOf barrierId).length = b.expectedMemberCount ∧
    status = aggregate b (db.membersOf barrierId) true

theorem getState_spec {state : BarrierState} (h : db.getState barrierId = .ok (some state)) :
    ∃ b ∈ db.barriers.rows, b.barrierId = barrierId ∧
      deriveState b (db.membersOf barrierId) = .ok state := by
  unfold BarrierDb.getState at h
  split at h
  · cases h
  · obtain ⟨loaded, hloaded, h⟩ := bind_eq_ok.mp h
    cases h
    obtain ⟨hbarrier, -, -, hderived⟩ := loadGenericBarrier_spec hloaded
    obtain ⟨hmem, hid⟩ := KeyedTable.find?_eq_some_iff.mp hbarrier
    exact ⟨loaded.1, hmem, hid, hderived⟩

theorem getMembers_eq (h : db.getMembers barrierId = .ok members) :
    members = db.membersOf barrierId := by
  obtain ⟨loaded, hloaded, h⟩ := bind_eq_ok.mp h
  cases h
  exact (loadGenericBarrier_spec hloaded).2.2.1

theorem Final.later {status : AggregateStatus} {db' : BarrierDb} (h : Final barrierId status db)
    (hgrows : BarrierGrows db db') :
    Final barrierId status db' := by
  obtain ⟨b, hb, rfl, hlength, hstatus⟩ := h
  have hsame := hgrows.complete b hb hlength
  refine ⟨b, hgrows.barriers hb, rfl, ?_, ?_⟩
  · rw [hsame]
    exact hlength
  · rw [hsame]
    exact hstatus

theorem getAggregateStatusOf_safe (barrierId : OpaqueUuid) :
    Safe BarrierCommand.run admits barrierDiscipline
      (Returns fun status db => status.isComplete = true → Final barrierId status db)
      (getAggregateStatusOf barrierId) s := by
  refine query_bind rfl ?_ (fun _ e _ _ _ _ => raises e)
  intro db₁ barrier _ _ _ hbarrier
  refine query_bind rfl ?_ (fun _ e _ _ _ _ => raises e)
  intro db₂ state hsound₂ hgrows₂ _ hstate
  cases barrier with
  | none => exact raises _
  | some barrier =>
    cases state with
    | none => exact raises _
    | some state =>
      have hfound : db₁.barriers.find? barrierId = some barrier := Except.ok.inj hbarrier
      obtain ⟨hmem, hid⟩ := KeyedTable.find?_eq_some_iff.mp hfound
      have hmem₂ := hgrows₂.barriers hmem
      obtain ⟨barrier', hmem', hid', hderived⟩ := getState_spec hstate
      have hsame : barrier' = barrier :=
        db₂.barriers.eq_of_key_eq hmem' hmem₂ (hid'.trans hid.symm)
      rw [hsame] at hderived
      have hpos := (hsound₂.shape barrier hmem₂).1
      obtain ⟨-, -, -, -, hclosed, hfailed⟩ := deriveState_spec hpos hderived
      refine query_bind rfl ?_ (fun _ e _ _ _ _ => raises e)
      intro db₃ members _ hgrows₃ _ hmembers later _ hlater
      refine Returns.ok ?_
      intro hcomplete
      -- a terminal state was read, so the cohort was complete and has stayed as it was
      have hterminal : state.status == .closed || state.status == .failed := by
        by_contra hopen
        rw [Bool.not_eq_true] at hopen
        rw [hopen] at hcomplete
        simp [aggregate, hpos.ne'] at hcomplete
      have hlength : (db₂.membersOf barrier.barrierId).length = barrier.expectedMemberCount := by
        rw [hid]
        rw [Bool.or_eq_true, beq_iff_eq, beq_iff_eq] at hterminal
        rcases hterminal with h | h
        · exact (hclosed.mp h).1
        · exact (hfailed.mp h).1
      have hread := hgrows₃.complete barrier hmem₂ hlength
      have hlast := (hgrows₃.trans hlater).complete barrier hmem₂ hlength
      rw [hid] at hread hlast hlength
      refine ⟨barrier, (hgrows₃.trans hlater).barriers hmem₂, hid, ?_, ?_⟩
      · rw [hlast]
        exact hlength
      · rw [getMembers_eq hmembers, hread, hlast, hterminal]

theorem getAggregateStatus_safe (hsound : BarrierSound s) (plan : InferenceInputPlan) :
    Safe BarrierCommand.run admits barrierDiscipline
      (Returns fun status db => status.isComplete = true →
        Final (barrierIdOf H plan.callPlan.barrierLogicalKey) status db)
      (getAggregateStatus H plan) s := by
  refine returns_bind hsound (requireDefinition_safe plan) ?_ raises
  rintro definition db _ _ ⟨-, hplan⟩
  have hid : definition.barrierId = barrierIdOf H plan.callPlan.barrierLogicalKey :=
    congrArg DefinitionProjection.barrierId hplan
  rw [← hid]
  exact getAggregateStatusOf_safe definition.barrierId

theorem getReduction_spec {reduction : InferenceCallReduction} (hsound : BarrierSound db)
    (h : db.getReduction barrierId = .ok (some reduction)) :
    reduction.stored ∈ db.reductions.rows := by
  unfold BarrierDb.getReduction at h
  split at h
  · cases h
  · rename_i found hfound
    simp only [bind_eq_ok, reductionFromRow_eq_ok] at h
    obtain ⟨-, -, -, -, _, ⟨rfl, -⟩, _, -, h⟩ := h
    cases h
    have hmem := KeyedTable.mem_of_find? hfound
    exact (hsound.reductionRow _ hmem).symm ▸ hmem

theorem reduce_safe (hsound : BarrierSound s) (reducers : Reducers) (plan : InferenceInputPlan)
    (reducedAt : String) :
    Safe BarrierCommand.run admits barrierDiscipline
      (Returns fun reduction db => reduction.stored ∈ db.reductions.rows)
      (reduce H reducers plan reducedAt) s := by
  refine returns_bind hsound (requireDefinition_safe plan) ?_ raises
  rintro definition db₁ hsound₁ _ -
  refine query_bind rfl ?_ (fun _ e _ _ _ _ => raises e)
  intro db₂ existing hsound₂ _ _ hexisting
  cases existing with
  | some stored =>
    have hmem := getReduction_spec hsound₂ hexisting
    exact fun later _ hlater => Returns.ok (hlater.reductions hmem)
  | none =>
    refine returns_bind hsound₂ (getAggregateStatusOf_safe _) ?_ raises
    intro status db₃ _ _ _
    refine ofExcept_bind ?_ (fun e _ => raises e)
    intro _ _
    refine ofExcept_bind ?_ (fun e _ => raises e)
    intro _ _
    refine query_bind rfl ?_ (fun _ e _ _ _ _ => raises e)
    intro db₄ completions _ _ _ _
    refine ofExcept_bind ?_ (fun e _ => raises e)
    intro _ _
    refine ofExcept_bind ?_ (fun e _ => raises e)
    intro output _
    refine ofExcept_bind ?_ (fun e _ => raises e)
    intro reduction _
    refine perform (transact_bind (·.appendReduction _) rfl ?_ (fun _ e _ _ _ _ => raises e))
    intro db₅ stored db₆ hsound₅ _ _ happended
    obtain ⟨hsound₆, hgrows₆, -, hsame, hmem⟩ := appendReduction_spec hsound₅ happended
    rw [← hsame] at hmem
    exact ⟨hsound₆, hgrows₆, fun later _ hlater => Returns.ok (hlater.reductions hmem)⟩

/-! ## Every run -/

/-- What a returned call has stored or read; the row of an output is what its text decodes
to. -/
def CallReturns (H : Hashing) (call : BarrierCall) (result : BarrierResult) (db : BarrierDb) :
    Prop :=
  match call, result with
  | .declare plan _, .definition definition => definition ∈ db.definitions.rows ∧
      definition.toDefinitionProjection = planDefinition H plan
  | .submitPartTerminal _ _ _ _, .completion completion =>
      completion.stored ∈ db.completions.rows
  | .getAggregateStatus plan, .status status => status.isComplete = true →
      Final (barrierIdOf H plan.callPlan.barrierLogicalKey) status db
  | .reduce _ _ _, .reduction reduction => reduction.stored ∈ db.reductions.rows
  | _, _ => False

theorem callBarrier_safe (call : BarrierCall) (hsound : BarrierSound s) :
    Safe (callBarrier H).run admits barrierDiscipline (Returns (CallReturns H call))
      ((callBarrier H).method call) s := by
  cases call with
  | declare plan createdAt =>
    refine returns_bind hsound (declare_safe hsound plan createdAt) ?_ raises
    rintro definition db _ _ ⟨hmem, hplan⟩ later _ hlater
    exact Returns.ok ⟨hlater.definitions hmem, hplan⟩
  | submitPartTerminal plan inference selection failureIsFinal =>
    refine returns_bind hsound
      (submitPartTerminal_safe hsound plan inference selection failureIsFinal) ?_ raises
    intro completion db _ _ hmem later _ hlater
    exact Returns.ok (hlater.completions hmem)
  | getAggregateStatus plan =>
    refine returns_bind hsound (getAggregateStatus_safe hsound plan) ?_ raises
    intro status db _ _ hstatus later _ hlater
    refine Returns.ok ?_
    intro hcomplete
    exact (hstatus hcomplete).later hlater
  | reduce reducers plan reducedAt =>
    refine returns_bind hsound (reduce_safe hsound reducers plan reducedAt) ?_ raises
    intro reduction db _ _ hmem later _ hlater
    exact Returns.ok (hlater.reductions hmem)

variable (db definition) in
/-- The state of a declared barrier, as its members determine it. -/
structure CohortState (state : BarrierState) : Prop where
  counted : state.completedMembers = (db.membersOf definition.barrierId).length
  complement : state.completedMembers + state.pendingMembers = definition.partCount
  opened : state.status = .opened ↔
    (db.membersOf definition.barrierId).length < definition.partCount
  closed : state.status = .closed ↔
    (db.membersOf definition.barrierId).length = definition.partCount ∧
      ∀ m ∈ db.membersOf definition.barrierId, m.outcome = .succeeded
  failed : state.status = .failed ↔
    (db.membersOf definition.barrierId).length = definition.partCount ∧
      ¬ ∀ m ∈ db.membersOf definition.barrierId, m.outcome = .succeeded

theorem BarrierSound.cohortState (hsound : BarrierSound db)
    (hdefinition : definition ∈ db.definitions.rows) :
    ∃ row, db.states.find? definition.barrierId = some row ∧
      CohortState db definition row.state := by
  obtain ⟨barrier, hbarrier, hid, hcount⟩ := hsound.definition definition hdefinition
  obtain ⟨hpos, hrequired, -⟩ := hsound.shape barrier hbarrier
  obtain ⟨row, hrow, hderived⟩ := hsound.state barrier hbarrier
  rw [hid] at hrow hderived
  obtain ⟨-, hcounted, hcomplement, hopened, hclosed, hfailed⟩ := deriveState_spec hpos hderived
  have hmember : ∀ m ∈ db.membersOf definition.barrierId, m.criticality = .required ∧
      (m.outcome.isSuccess = true ↔ m.outcome = .succeeded) := by
    intro m hm
    obtain ⟨hcritical, -, -, -, -, c, -, -, -, houtcome, -⟩ :=
      hsound.member _ (mem_membersOf.mp hm)
    refine ⟨hcritical, ?_⟩
    have houtcome' : m.outcome = stageStatus c.status := houtcome
    rw [houtcome']
    exact stageStatus_isSuccess_iff
  -- every part is required, so the policy of the barrier asks for every success
  have hall : (db.membersOf definition.barrierId).length = barrier.expectedMemberCount →
      (acceptable barrier (db.membersOf definition.barrierId) = true ↔
        ∀ m ∈ db.membersOf definition.barrierId, m.outcome = .succeeded) := by
    intro hlength
    rw [acceptable_iff (hrequired.trans hlength.symm) fun m hm => (hmember m hm).1]
    exact forall₂_congr fun m hm => (hmember m hm).2
  refine ⟨row, hrow, hcounted, hcount ▸ hcomplement, hcount ▸ hopened, ?_, ?_⟩
  · rw [hclosed, ← hcount]
    exact and_congr_right hall
  · rw [hfailed, ← hcount, ← Bool.not_eq_true]
    exact and_congr_right fun hlength => not_congr (hall hlength)

/-- What holds of the stored rows in every reachable state. -/
structure BarrierSafety (db : BarrierDb) : Prop where
  one_completion : ∀ c ∈ db.completions.rows, ∀ c' ∈ db.completions.rows,
    c.barrierId = c'.barrierId → c.partOrdinal = c'.partOrdinal → c = c'
  declared_completion : ∀ c ∈ db.completions.rows, ∃ d ∈ db.definitions.rows,
    d.barrierId = c.barrierId ∧ c.partOrdinal < d.partCount
  member_completion : ∀ m ∈ db.members.rows, ∃ c ∈ db.completions.rows,
    c.barrierId = m.barrierId ∧ c.partLogicalKey = m.member.workItemId ∧
      m.member.outcome = stageStatus c.status
  state : ∀ d ∈ db.definitions.rows, ∃ row, db.states.find? d.barrierId = some row ∧
    CohortState db d row.state
  reduction : ∀ r ∈ db.reductions.rows, ∃ d ∈ db.definitions.rows, ReductionBinds db d r

theorem BarrierSound.safety (hsound : BarrierSound db) : BarrierSafety db where
  one_completion := by
    intro c hc c' hc' hid hordinal
    exact db.completions.eq_of_key_eq hc hc' (by rw [hid, hordinal])
  declared_completion := hsound.completion
  member_completion := by
    intro m hm
    obtain ⟨-, -, -, -, -, c, hc, hid, hkey, houtcome, -⟩ := hsound.member m hm
    exact ⟨c, hc, hid, hkey, houtcome⟩
  state := fun _ hd => hsound.cohortState hd
  reduction := hsound.reduction

/-- A schedule of workers over one barrier storage. -/
abbrev BarrierRun (H : Hashing) :=
  Steps (callBarrier H) (fun _ _ => True) fun _ _ => True

/-- The call barrier over every interleaving of its workers. -/
theorem call_barrier_safe_in_every_run (H : Hashing)
    (w w' : World BarrierDb BarrierCall BarrierCommand BarrierAnswer BarrierError BarrierResult)
    (hw : BarrierRun H (World.initial .empty) w) (hw' : BarrierRun H w w') :
    BarrierSafety w.db ∧ BarrierGrows w.db w'.db ∧
    (∀ job ∈ w.jobs, ∀ result, job.rest = .done (.ok result) →
      CallReturns H job.op result w.db) := by
  have hmethod : ∀ call s, barrierDiscipline.Inv s → True →
      Safe (callBarrier H).run (fun _ _ => True) barrierDiscipline (Returns (CallReturns H call))
        ((callBarrier H).method call) s :=
    fun call s hsound _ => callBarrier_safe call hsound
  have hstart : Keeps (callBarrier H) (fun _ _ => True) barrierDiscipline
      (fun call _ => Returns (CallReturns H call)) (World.initial .empty) :=
    Keeps.initial BarrierSound.empty
  obtain ⟨hkeeps, -⟩ := Steps.keeps hmethod hstart hw
  obtain ⟨-, hgrows⟩ := Steps.keeps hmethod hkeeps hw'
  refine ⟨BarrierSound.safety hkeeps.inv, hgrows, ?_⟩
  intro job hjob result hdone
  exact hkeeps.returned hjob hdone result rfl

/-! ## Two workers on one plan -/

namespace Race

/-- Digests that spell what distinguishes the rows below. -/
def hashing : Hashing where
  semanticSha256
    | .attemptSelection logicalInvocationId _ => logicalInvocationId
    | .normalizedOutput text => text
    | .completion projection => projection.partSemanticSha256
    | .reduction projection => projection.callPlanSha256
  uuid5 := id

def part (ordinal : Nat) (name : String) : InferenceCallPart :=
  ⟨ordinal, 2, "manifest", name, "part:" ++ name, "key:" ++ name⟩

def plan : InferenceInputPlan where
  semanticSha256 := "input"
  callPlan := {
    callPlanSha256 := "calls"
    parts := [part 0 "left", part 1 "right"]
    barrierSemanticSha256 := "barrier"
    barrierLogicalKey := "plan"
    reductionPolicy := "concatenate"
    reductionPolicyVersion := "1.0"
    barrierKey := by decide
    nonempty := by decide
    ordinals := by decide
    counts := by decide
    semanticIdentities := by decide
    logicalKeys := by decide
    idempotencyKeys := by decide }
  providerResponseSchemaSha256 := "schema"
  packageIds := ["package"]
  task := .qaCoarse

/-- A successful inference of one part. -/
def inference (ordinal : Nat) (name : String) : ModelInference where
  inferenceId := "inference:" ++ name
  logicalInvocationId := "invocation:" ++ name
  inputPlanSemanticSha256 := some "input"
  inputPlanPartOrdinal := some ordinal
  inputPlanPartCount := some 2
  inputPlanPartSemanticSha256 := some name
  providerIdempotencyKey := some ("key:" ++ name)
  renderedInputDigest := "manifest"
  stage := .qaCoarse
  packageIds := ["package"]
  attempt := 0
  status := .succeeded
  outputValid := true
  normalizedOutput := some ⟨name, .equal⟩
  rawOutput := .artifact "raw"
  failure := none
  completedAt := "2026-01-01T00:00:00Z"

def selection (name : String) : InferenceAttemptSelection :=
  ⟨"selection:" ++ name, "inference:" ++ name, "invocation:" ++ name, "1.0",
    "inference-attempt-selection:invocation:" ++ name⟩

def submit (ordinal : Nat) (name : String) : BarrierCall :=
  .submitPartTerminal plan (inference ordinal name) (some (selection name)) true

/-- The reducer writes the outputs in part order. -/
def reducers : Reducers := fun _ => some fun _ completions =>
  .mapping ⟨String.join (completions.filterMap fun c => c.normalizedOutput.map (·.text)), .equal⟩

/-- Both parts are submitted at once, the right one first; its worker stops before it
returns, and the aggregate is read in between. -/
def schedule : List (Choice BarrierCall) :=
  [.spawn (.declare plan "created"), .advance 0, .advance 0, .advance 0, .advance 0,
    .spawn (submit 1 "right"), .spawn (submit 0 "left"), .spawn (.getAggregateStatus plan),
    .advance 1, .advance 2, .advance 2, .advance 1, .advance 0, .advance 0, .advance 2,
    .advance 1, .advance 0, .advance 0, .crash 2, .advance 1,
    .spawn (.reduce reducers plan "reduced"), .advance 0, .advance 0, .advance 0, .advance 0,
    .advance 0, .advance 0, .advance 0]

end Race

open Race in
/-- The parts arrive out of order and one worker stops; the reduction binds them in
part order, and the aggregate that was read is the final one. -/
theorem call_barrier_safe_after_race :
    ∃ w, (World.initial BarrierDb.empty).play? (callBarrier hashing) schedule = some w ∧
      w.db.completions.rows.map (·.partOrdinal) = [1, 0] ∧
      w.db.reductions.rows.map (·.orderedPartSemanticSha256s) = [["left", "right"]] ∧
      BarrierSafety w.db := by
  have hplayed : (((World.initial BarrierDb.empty).play? (callBarrier hashing) schedule).map
      fun w => (w.db.completions.rows.map (·.partOrdinal),
        w.db.reductions.rows.map (·.orderedPartSemanticSha256s))) =
      some ([1, 0], [["left", "right"]]) := by
    decide +kernel
  obtain ⟨w, hw, hview⟩ := Option.map_eq_some_iff.mp hplayed
  rw [Prod.mk.injEq] at hview
  refine ⟨w, hw, hview.1, hview.2, ?_⟩
  have hrun : BarrierRun hashing (World.initial .empty) w :=
    steps_of_play? (allowsAll_of_forall (fun _ _ _ => trivial) fun _ _ => trivial) hw
  exact (call_barrier_safe_in_every_run hashing w w hrun .refl).1

end Robata.Inference
