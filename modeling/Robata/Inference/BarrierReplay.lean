import Robata.Inference.PlanInvariants

/-!
# Declaring and reducing one plan many times

Any number of coordinators declare, complete and reduce one input plan, each with
its own clock.  Both `declare` and `reduce` look an existing row up first and
return it whatever its time is; the append that follows an unsuccessful lookup
compares whole rows, times included.  So the calls agree on one definition and one
reduction as long as no append finds a row that another clock has dated.
-/

namespace Robata.Inference

open Contracts Lib List
open BarrierCommand (getReduction)
open BarrierDb (getState)
open KeyedTable (find?_eq_some_iff mem_of_find? mem_rows_iff)
open Safe (ofExcept_bind perform query_bind transact_bind)

section Coordinators

variable {H : Hashing} {R : Reducers} {plan : InferenceInputPlan}

/-! ## The methods -/

section Methods

variable {s : BarrierDb}

theorem createBarrier_succeeds :
    Safe BarrierCommand.run Replayable (planDiscipline H R plan)
      (Succeeds fun b db => b = planBarrier H plan ∧ planBarrier H plan ∈ db.barriers.rows)
      (createBarrier (planBarrier H plan)) s := by
  refine ofExcept_bind ?_ ?_
  · intro _ _
    refine transact_bind (Method.answerless (·.saveBarrier _)) rfl ?_ ?_
    · intro db _ db' hsound _ _ hsaved
      rw [Method.answerless_eq_ok] at hsaved
      obtain ⟨hsound', hgrows, hadds, hmem⟩ :=
        saveBarrier_spec hsound.toBarrierSound (planBarrier_shape plan) hsaved
      refine ⟨hsound.grow hsound' hgrows hadds ?_ ?_ ?_ ?_, hgrows, ?_⟩
      · intro b hb
        exact mem_singleton.mp hb
      · exact forall_mem_nil _
      · exact forall_mem_nil _
      · exact forall_mem_nil _
      · refine query_bind rfl ?_ ?_
        · intro read state hread hgrows' _ hstate
          cases state with
          | some _ => exact fun later _ hlater => ⟨_, rfl, rfl, hlater.barriers (hgrows'.barriers hmem)⟩
          | none =>
            -- the barrier has been stored, so it has a state
            have hfound := mem_rows_iff.mp (hgrows'.barriers hmem)
            unfold getState at hstate
            rw [hfound] at hstate
            obtain ⟨_, -, hstate⟩ := bind_eq_ok.mp hstate
            cases hstate
        · intro read e hread hgrows' _ herror
          have hfound := mem_rows_iff.mp (hgrows'.barriers hmem)
          obtain ⟨row, hloaded⟩ :=
            loadGenericBarrier_ok hread.toBarrierSound (hgrows'.barriers hmem)
          unfold getState at herror
          rw [hfound] at herror
          simp only [hloaded] at herror
          cases herror
    · intro db e hsound _ _ herror
      rw [Method.answerless_eq_error] at herror
      obtain ⟨db', hsaved⟩ := saveBarrier_ok hsound
      rw [hsaved] at herror
      cases herror
  · intro e herror
    have hkey : (planBarrier H plan).logicalKey.toList.all Char.isWhitespace = false :=
      plan.callPlan.barrierKey
    rw [hkey] at herror
    cases herror

theorem declare_succeeds (hsound : PlanSound H R plan s) (createdAt : String) :
    Safe BarrierCommand.run Replayable (planDiscipline H R plan)
      (Succeeds fun d db => db.definitions.find? (planBarrierId H plan) = some d)
      (declare H plan createdAt) s := by
  refine Safe.succeeds_bind hsound createBarrier_succeeds ?_
  rintro barrier db hsound₁ _ ⟨rfl, hbarrier⟩
  refine query_bind rfl ?_ ?_
  · intro read existing hread hgrows _ hfound
    rw [show (planBarrier H plan).barrierId = planBarrierId H plan from rfl,
      getDefinition_ok hread, Except.ok.injEq] at hfound
    cases existing with
    | some stored =>
      have hmem := mem_of_find? hfound
      have hplan := hread.definitions stored hmem
      refine ofExcept_bind ?_ ?_
      · intro _ _ later _ hlater
        exact ⟨stored, rfl, find?_eq_some_iff.mpr
          ⟨hlater.definitions hmem, planDefinition_id hplan⟩⟩
      · intro e herror
        rw [hplan] at herror
        simp [refuse] at herror
    | none =>
      refine perform (transact_bind (·.appendDefinition _) rfl ?_ ?_)
      · intro db₁ stored db₂ hinv₁ hgrows₁ _ happended
        obtain ⟨hsound₂, hgrows₂, hadds, rfl, hmem⟩ :=
          appendDefinition_spec hinv₁.toBarrierSound happended
        refine ⟨hinv₁.grow hsound₂ hgrows₂ hadds ?_ ?_ ?_ ?_, hgrows₂, ?_⟩
        · exact forall_mem_nil _
        · intro d hd
          rw [mem_singleton.mp hd]
        · exact forall_mem_nil _
        · exact forall_mem_nil _
        · exact fun later _ hlater => ⟨_, rfl, find?_eq_some_iff.mpr ⟨hlater.definitions hmem, rfl⟩⟩
      · intro db₁ e hinv₁ hgrows₁ htime herror
        have hstored := hgrows₁.barriers (hgrows.barriers hbarrier)
        obtain ⟨result, hresult⟩ := appendDefinition_ok hinv₁ hstored rfl htime
        rw [hresult] at herror
        cases herror
  · intro read e hread _ _ herror
    rw [show (planBarrier H plan).barrierId = planBarrierId H plan from rfl,
      getDefinition_ok hread] at herror
    cases herror

def NoConflict {α : Type} (result : Except BarrierError α) : Prop :=
  ∀ message, result ≠ .error (.conflict message)

theorem requireDefinition_finds :
    Safe BarrierCommand.run Replayable (planDiscipline H R plan)
      (fun result db => (∃ d ∈ db.definitions.rows, result = .ok d) ∨
        (s.definitions.rows = [] ∧ ∃ message, result = .error (.barrier message)))
      (requireDefinition H plan) s := by
  refine query_bind rfl ?_ ?_
  · intro read found hread hgrows _ hfound
    rw [getDefinition_ok hread, Except.ok.injEq] at hfound
    cases found with
    | none =>
      intro later _ _
      refine .inr ⟨?_, _, rfl⟩
      rw [eq_nil_iff_forall_not_mem]
      intro d hd
      have hmem := hgrows.definitions hd
      exact KeyedTable.find?_eq_none_iff.mp hfound d hmem
        (planDefinition_id (hread.definitions d hmem))
    | some stored =>
      have hmem := mem_of_find? hfound
      have hplan := hread.definitions stored hmem
      refine ofExcept_bind ?_ ?_
      · exact fun _ _ later _ hlater => .inl ⟨stored, hlater.definitions hmem, rfl⟩
      · intro e herror
        rw [hplan] at herror
        simp [refuse] at herror
  · intro read e hread _ _ herror
    rw [getDefinition_ok hread] at herror
    cases herror

theorem requireDefinition_returns :
    Safe BarrierCommand.run Replayable (planDiscipline H R plan)
      (Returns fun d db => d ∈ db.definitions.rows) (requireDefinition H plan) s := by
  refine requireDefinition_finds.mono ?_
  rintro result db _ _ (⟨d, hd, rfl⟩ | ⟨-, message, rfl⟩)
  · exact Returns.ok hd
  · exact Returns.error

theorem terminalOutcome_spec {inference : ModelInference}
    {selection : Option InferenceAttemptSelection} {failureIsFinal : Bool} {raw : Option String}
    {outcome : Option JsonObject × Option InferenceFailure}
    (h : terminalOutcome H inference selection failureIsFinal raw = .ok outcome)
    (hsucceeded : inference.status = .succeeded) : outcome.1.isSome ∧ selection.isSome := by
  unfold terminalOutcome at h
  rw [if_pos hsucceeded] at h
  simp only [bind_eq_ok, refuse_eq_ok, Bool.or_eq_false_iff] at h
  obtain ⟨_, ⟨-, houtput⟩, _, -, _, -, _, hselection, h⟩ := h
  cases h
  refine ⟨?_, ?_⟩
  · rw [Option.isNone_eq_false_iff] at houtput
    exact houtput
  · cases selection with
    | none => cases hselection
    | some _ => rfl

variable {db : BarrierDb}

theorem appendCompletion_bound {db' : BarrierDb} {completion stored : InferenceCallPartCompletion}
    (h : PlanSound H R plan db) (happended : db.appendCompletion completion = .ok (stored, db'))
    (d : InferenceCallBarrierDefinition) (hd : d.toDefinitionProjection = planDefinition H plan) :
    validateCompletionBinding d completion = .ok () := by
  unfold BarrierDb.appendCompletion at happended
  simp only [bind_eq_ok] at happended
  obtain ⟨definition, hfound, _, hbinding, -⟩ := happended
  obtain ⟨hdefinition, -⟩ := requireCallDefinition_spec hfound
  -- the binding does not look at the time of the definition
  obtain ⟨projection, createdAt⟩ := d
  obtain ⟨projection', createdAt'⟩ := definition
  have hsame : projection' = projection := (h.definitions _ hdefinition).trans hd.symm
  subst hsame
  exact hbinding

variable {d : InferenceCallBarrierDefinition}

theorem submitMember_keeps {barrierId : OpaqueUuid} {member : BarrierMember}
    (hrequired : member.criticality = .required) (hd : d ∈ s.definitions.rows)
    (hid : d.barrierId = barrierId) :
    Safe BarrierCommand.run Replayable (planDiscipline H R plan) (fun _ _ => True)
      (submitMember barrierId member) s := by
  refine transact_bind (Method.answerless (·.addMember barrierId member)) rfl ?_
    (fun _ _ _ _ _ _ _ _ _ => trivial)
  intro db _ db' hsound hgrows _ hadded
  rw [Method.answerless_eq_ok] at hadded
  obtain ⟨hsound', hgrows', hadds, -⟩ :=
    addMember_spec hsound.toBarrierSound hrequired (hgrows.definitions hd) hid hadded
  refine ⟨hsound.grow hsound' hgrows' hadds ?_ ?_ ?_ ?_, hgrows', ?_⟩
  · exact forall_mem_nil _
  · exact forall_mem_nil _
  · exact forall_mem_nil _
  · exact forall_mem_nil _
  · refine query_bind rfl ?_ (fun _ _ _ _ _ _ _ _ _ => trivial)
    intro _ state _ _ _ _
    cases state with
    | none | some _ => exact fun _ _ _ => trivial

theorem submitPartTerminal_keeps (hsound : PlanSound H R plan s) (inference : ModelInference)
    (selection : Option InferenceAttemptSelection) (failureIsFinal : Bool) :
    Safe BarrierCommand.run Replayable (planDiscipline H R plan) (fun _ _ => True)
      (submitPartTerminal H plan inference selection failureIsFinal) s := by
  refine Safe.returns_bind hsound requireDefinition_returns ?_ (fun _ _ _ _ => trivial)
  intro definition db₁ _ _ hdefinition
  refine ofExcept_bind ?_ (fun _ _ _ _ _ => trivial)
  intro part _
  refine ofExcept_bind ?_ (fun _ _ _ _ _ => trivial)
  intro raw _
  refine ofExcept_bind ?_ (fun _ _ _ _ _ => trivial)
  intro outcome houtcome
  refine transact_bind (·.appendCompletion _) rfl ?_ (fun _ _ _ _ _ _ _ _ _ => trivial)
  intro db₂ stored db₃ hsound₂ hgrows₂ _ happended
  obtain ⟨hsound₃, hgrows₃, hadds, rfl, hmem⟩ :=
    appendCompletion_spec hsound₂.toBarrierSound happended
  have hsound₃' := hsound₂.grow hsound₃ hgrows₃ hadds
    (forall_mem_nil _) (forall_mem_nil _)
    (by
      intro c hc
      rw [mem_singleton.mp hc]
      refine CompletionOf.stored ⟨appendCompletion_bound hsound₂ happended, ?_, ?_⟩
      · intro hsucceeded
        have houtput := (terminalOutcome_spec houtcome hsucceeded).1
        show (outcome.1.map _).isSome = true
        rw [Option.isSome_map]
        exact houtput
      · intro hsucceeded
        have hselection := (terminalOutcome_spec houtcome hsucceeded).2
        show (selection.map _).isSome = true
        rw [Option.isSome_map]
        exact hselection)
    (forall_mem_nil _)
  refine ⟨hsound₃', hgrows₃, ?_⟩
  refine Safe.bind hsound₃' ((submitMember_keeps rfl
    (hgrows₃.definitions (hgrows₂.definitions hdefinition)) rfl).mono ?_)
  intro result _ _ _ _
  cases result with
  | ok _ => exact fun _ _ _ => trivial
  | error _ => exact trivial

variable (H plan) in
/-- What `get_aggregate_status` says of a closed barrier. -/
structure AggregateSays (before : BarrierDb) (result : Except BarrierError AggregateStatus)
    (db : BarrierDb) : Prop where
  no_conflict : NoConflict result
  succeeded : Closed H plan before →
    ∃ status, result = .ok status ∧ status.isComplete = true ∧ status.overallStatus = .succeeded
  closed : ∀ status, result = .ok status → status.isComplete = true →
    status.overallStatus = .succeeded → Closed H plan db

theorem getState_ok (h : PlanSound H R plan db) (hbarrier : planBarrier H plan ∈ db.barriers.rows) :
    ∃ row, db.states.find? (planBarrierId H plan) = some row ∧
      db.getState (planBarrierId H plan) = .ok (some row.state) ∧
      deriveState (planBarrier H plan) (db.membersOf (planBarrierId H plan)) = .ok row.state := by
  have hfound : db.barriers.find? (planBarrierId H plan) = some (planBarrier H plan) :=
    mem_rows_iff.mp hbarrier
  obtain ⟨row, hloaded⟩ := loadGenericBarrier_ok h.toBarrierSound hbarrier
  have hloaded' : db.loadGenericBarrier (planBarrierId H plan) = _ := hloaded
  obtain ⟨-, hrow, -, hderived⟩ := loadGenericBarrier_spec hloaded'
  refine ⟨row, hrow, ?_, hderived⟩
  unfold getState
  rw [hfound]
  simp only [hloaded', ok_bind]

theorem getAggregateStatusOf_tells (hsound : PlanSound H R plan s)
    (hbarrier : planBarrier H plan ∈ s.barriers.rows) :
    Safe BarrierCommand.run Replayable (planDiscipline H R plan) (AggregateSays H plan s)
      (getAggregateStatusOf (planBarrierId H plan)) s := by
  refine query_bind rfl ?_ (fun _ _ _ _ _ herror => by cases herror)
  intro db₁ barrier hsound₁ hgrows₁ _ hread₁
  have hbarrier₁ := hgrows₁.barriers hbarrier
  have hfound : db₁.barriers.find? (planBarrierId H plan) = some (planBarrier H plan) :=
    mem_rows_iff.mp hbarrier₁
  have hsome : barrier = some (planBarrier H plan) :=
    (Except.ok.inj hread₁).symm.trans hfound
  subst hsome
  refine query_bind rfl ?_ ?_
  · intro db₂ state hsound₂ hgrows₂ _ hread₂
    have hbarrier₂ := hgrows₂.barriers hbarrier₁
    obtain ⟨row, hrow, hstate, hderived⟩ := getState_ok hsound₂ hbarrier₂
    rw [hstate, Except.ok.injEq] at hread₂
    subst hread₂
    have hpos := (planBarrier_shape (H := H) plan).1
    obtain ⟨-, -, -, -, hclosed, hfailed⟩ := deriveState_spec hpos hderived
    have hclosed₂ : Closed H plan db₂ ↔ row.state.status = .closed := by
      constructor
      · rintro ⟨-, -, -, row', hrow', hstatus⟩
        rw [hrow] at hrow'
        cases hrow'
        exact hstatus
      · exact fun hstatus => ⟨_, hbarrier₂, rfl, row, hrow, hstatus⟩
    refine query_bind rfl ?_ ?_
    · intro db₃ members hsound₃ hgrows₃ _ hread₃ later hsound₄ hlater
      rw [getMembers_eq hread₃]
      have hgrows := hgrows₃.trans hlater
      refine ⟨?_, ?_, ?_⟩
      · intro _ h
        cases h
      · intro hbefore
        have hstatus := hclosed₂.mp (hbefore.later hsound.toBarrierSound hsound₂.toBarrierSound
          (hgrows₁.trans hgrows₂))
        obtain ⟨hlength, hacceptable⟩ := hclosed.mp hstatus
        have hsame := hgrows₃.complete _ hbarrier₂ hlength
        refine ⟨_, rfl, ?_, ?_⟩
        · simp [aggregate, hpos.ne', hstatus]
        · have hsame' : db₃.membersOf (planBarrierId H plan) =
              db₂.membersOf (planBarrierId H plan) := hsame
          simp [aggregate, hpos.ne', hstatus, hsame', hacceptable]
      · intro status hreturned hcomplete hoverall
        have hvalue := (Except.ok.inj hreturned).symm
        subst hvalue
        refine Closed.later (hclosed₂.mpr ?_) hsound₂.toBarrierSound hsound₄.toBarrierSound hgrows
        by_contra hnot
        cases hstatus : row.state.status with
        | closed => exact hnot hstatus
        | opened => simp [aggregate, hpos.ne', hstatus] at hcomplete
        | failed =>
          obtain ⟨hlength, hacceptable⟩ := hfailed.mp hstatus
          have hsame : db₃.membersOf (planBarrierId H plan) =
            db₂.membersOf (planBarrierId H plan) := hgrows₃.complete _ hbarrier₂ hlength
          simp [aggregate, hpos.ne', hstatus, hsame, hacceptable] at hoverall
    · intro db₃ e hsound₃ hgrows₃ _ herror
      obtain ⟨row', hloaded⟩ := loadGenericBarrier_ok hsound₃.toBarrierSound
        (hgrows₃.barriers hbarrier₂)
      have hloaded' : db₃.loadGenericBarrier (planBarrierId H plan) = _ := hloaded
      unfold BarrierDb.getMembers at herror
      rw [hloaded'] at herror
      cases herror
  · intro db₂ e hsound₂ hgrows₂ _ herror
    obtain ⟨row, -, hstate, -⟩ := getState_ok hsound₂ (hgrows₂.barriers hbarrier₁)
    rw [hstate] at herror
    cases herror

theorem getAggregateStatus_keeps (hsound : PlanSound H R plan s) :
    Safe BarrierCommand.run Replayable (planDiscipline H R plan) (fun _ _ => True)
      (getAggregateStatus H plan) s := by
  refine Safe.returns_bind hsound requireDefinition_returns ?_ (fun _ _ _ _ => trivial)
  intro d db hsound₁ _ hd
  obtain ⟨b, hb, -⟩ := hsound₁.definition d hd
  have hbarrier := hsound₁.barriers b hb ▸ hb
  rw [planDefinition_id (hsound₁.definitions d hd)]
  exact (getAggregateStatusOf_tells hsound₁ hbarrier).mono fun _ _ _ _ _ => trivial

variable (R plan) in
/-- The reducer of the plan is registered and returns a mapping. -/
def ReducerWorks : Prop :=
  ∃ reducer, R (plan.callPlan.reductionPolicy, plan.callPlan.reductionPolicyVersion) =
    some reducer ∧ ∀ completions, ∃ output, reducer plan completions = .mapping output

variable (H R plan) in
structure ReduceSays (before : BarrierDb) (result : Except BarrierError InferenceCallReduction)
    (db : BarrierDb) : Prop where
  no_conflict : NoConflict result
  reduced : Closed H plan before → ReducerWorks R plan →
    ∃ r, result = .ok r ∧ db.reductions.find? (planBarrierId H plan) = some r

variable {before : BarrierDb}

theorem ReduceSays.ofStored {r : InferenceCallReduction} (h : r ∈ db.reductions.rows)
    (hid : r.barrierId = planBarrierId H plan) :
    ReduceSays H R plan before (.ok r) db where
  no_conflict := fun _ herror => by cases herror
  reduced := fun _ _ => ⟨r, rfl, find?_eq_some_iff.mpr ⟨h, hid⟩⟩

theorem ReduceSays.ofError {e : BarrierError} (hconflict : ∀ message, e ≠ .conflict message)
    (hexcluded : Closed H plan before → ReducerWorks R plan → False) :
    ReduceSays H R plan before (.error e) db where
  no_conflict := by
    intro message herror
    cases herror
    exact hconflict message rfl
  reduced := fun hclosed hworks => (hexcluded hclosed hworks).elim

theorem Closed.memberSet_ok (hclosed : Closed H plan db) (h : PlanSound H R plan db)
    (hplan : d.toDefinitionProjection = planDefinition H plan) :
    validateCompletedMemberSet d (db.completionsOf (planBarrierId H plan)) = .ok () := by
  obtain ⟨hordinals, hmember⟩ := hclosed.completions h
  have hparts := hclosed.parts h
  have hcount : d.partCount = plan.callPlan.parts.length :=
    congrArg DefinitionProjection.partCount hplan
  have hexpected : d.expectedPartSemanticSha256s =
      plan.callPlan.parts.map fun part => part.partSemanticSha256 :=
    congrArg DefinitionProjection.expectedPartSemanticSha256s hplan
  have hlength : (db.completionsOf (planBarrierId H plan)).length = d.partCount := by
    rw [hcount, ← length_range (n := plan.callPlan.parts.length), ← hordinals, length_map]
  unfold validateCompletedMemberSet
  simp only [bind_eq_ok, refuse_eq_ok, bne_eq_false_iff_eq, decide_eq_false_iff_not, not_not,
    any_eq_false, bne_iff_ne]
  exact ⟨(), hlength, (), hcount ▸ hordinals, (), hexpected ▸ hparts, fun c hc => (hmember c hc).1⟩

theorem reducedOutput_error {completions : List InferenceCallPartCompletion} {e : BarrierError}
    (hplan : d.toDefinitionProjection = planDefinition H plan)
    (h : reducedOutput R plan d completions = .error e) :
    (∀ message, e ≠ .conflict message) ∧ ¬ ReducerWorks R plan := by
  have hpolicy : (d.reductionPolicy, d.reductionPolicyVersion) =
      (plan.callPlan.reductionPolicy, plan.callPlan.reductionPolicyVersion) :=
    Prod.ext (congrArg DefinitionProjection.reductionPolicy hplan)
      (congrArg DefinitionProjection.reductionPolicyVersion hplan)
  unfold reducedOutput at h
  rw [hpolicy] at h
  refine ⟨?_, ?_⟩
  · rintro message rfl
    split at h
    · cases h
    · split at h <;> cases h
  · rintro ⟨reducer, hreducer, hmapping⟩
    obtain ⟨output, houtput⟩ := hmapping completions
    rw [hreducer] at h
    simp only [houtput] at h
    cases h

theorem reduce_closed (hsound : PlanSound H R plan s) (hclosed : Closed H plan s)
    (hd : d ∈ s.definitions.rows) (hplan : d.toDefinitionProjection = planDefinition H plan)
    (reducedAt : String) :
    Safe BarrierCommand.run Replayable (planDiscipline H R plan) (ReduceSays H R plan before)
      (do
        let completions ← Prog.perform (BarrierCommand.listCompletions (planBarrierId H plan))
        Prog.ofExcept (validateCompletedMemberSet d completions)
        let output ← Prog.ofExcept (reducedOutput R plan d completions)
        let reduction ← Prog.ofExcept (buildReduction H plan d completions output reducedAt)
        Prog.perform (BarrierCommand.appendReduction reduction)) s := by
  have hid := planDefinition_id hplan
  have hlist : ∀ db, PlanSound H R plan db → BarrierGrows s db →
      db.listCompletions (planBarrierId H plan) = .ok (db.completionsOf (planBarrierId H plan)) := by
    intro db hinv hgrows
    have hstored := hgrows.definitions hd
    have hlater := hclosed.later hsound.toBarrierSound hinv.toBarrierSound hgrows
    unfold BarrierDb.listCompletions
    rw [requireCallDefinition_ok hinv hstored, ok_bind, hlater.read_ok hinv hstored, hid]
  refine query_bind rfl ?_ ?_
  swap
  · intro db₁ e hsound₁ hgrows₁ _ herror
    rw [hlist db₁ hsound₁ hgrows₁] at herror
    cases herror
  intro db₁ completions hsound₁ hgrows₁ _ hread
  rw [hlist db₁ hsound₁ hgrows₁, Except.ok.injEq] at hread
  subst hread
  have hclosed₁ := hclosed.later hsound.toBarrierSound hsound₁.toBarrierSound hgrows₁
  have hd₁ := hgrows₁.definitions hd
  refine ofExcept_bind ?_ ?_
  swap
  · intro e herror
    rw [hclosed₁.memberSet_ok hsound₁ hplan] at herror
    cases herror
  intro _ _
  refine ofExcept_bind ?_ ?_
  swap
  · intro e herror later _ _
    obtain ⟨hconflict, hbroken⟩ := reducedOutput_error hplan herror
    exact ReduceSays.ofError hconflict fun _ hworks => hbroken hworks
  intro output houtput
  refine ofExcept_bind ?_ ?_
  swap
  · intro e herror
    obtain ⟨reduction, hbuilt⟩ := hclosed₁.build_ok hsound₁ d output reducedAt
    rw [hbuilt] at herror
    cases herror
  intro reduction hbuilt
  -- the completions cover all parts, so they are the same when the reduction is stored
  have hsame : ∀ db, BarrierGrows db₁ db →
      db.completionsOf d.barrierId = db₁.completionsOf (planBarrierId H plan) := by
    intro db hgrows
    have hcount : d.partCount = plan.callPlan.parts.length :=
      congrArg DefinitionProjection.partCount hplan
    rw [hgrows.covered d hd₁ (by rw [hid, hcount]; exact (hclosed₁.completions hsound₁).1), hid]
  refine perform (transact_bind (·.appendReduction _) rfl ?_ ?_)
  · intro db₂ stored db₃ hsound₂ hgrows₂ htime happended
    obtain ⟨hsound₃, hgrows₃, hadds, hsame', hmem⟩ :=
      appendReduction_spec hsound₂.toBarrierSound happended
    -- the row is the reduction itself, whose output its text decodes to
    rw [reduction.stored_of_equal htime.1] at hadds hmem
    have hkey := (buildReduction_spec hbuilt).1.trans hid
    have hat := (buildReduction_spec hbuilt).2
    refine ⟨hsound₂.grow hsound₃ hgrows₃ hadds ?_ ?_ ?_ ?_, hgrows₃, ?_⟩
    · exact forall_mem_nil _
    · exact forall_mem_nil _
    · exact forall_mem_nil _
    · intro r hr
      rw [mem_singleton.mp hr]
      have hgrows := hgrows₂.trans hgrows₃
      refine ⟨hclosed₁.later hsound₁.toBarrierSound hsound₃ hgrows, htime.1, d,
        hgrows.definitions hd₁, output, ?_, ?_⟩
      · rw [hsame db₃ hgrows]
        exact houtput
      · rw [hsame db₃ hgrows, hat]
        exact hbuilt
    · rw [hsame']
      exact fun later _ hlater => ReduceSays.ofStored (hlater.reductions hmem) hkey
  · intro db₂ e hsound₂ hgrows₂ htime herror
    have hclosed₂ := hclosed₁.later hsound₁.toBarrierSound hsound₂.toBarrierSound hgrows₂
    rw [← hsame db₂ hgrows₂] at houtput hbuilt
    obtain ⟨result, hresult⟩ := appendReduction_ok hsound₂ hclosed₂ (hgrows₂.definitions hd₁)
      houtput hbuilt htime
    rw [hresult] at herror
    cases herror

/-- `reduce` reports no conflict, and returns the stored reduction of a barrier that
was closed when it was called. -/
theorem reduce_tells (hsound : PlanSound H R plan s) (reducedAt : String) :
    Safe BarrierCommand.run Replayable (planDiscipline H R plan) (ReduceSays H R plan s)
      (reduce H R plan reducedAt) s := by
  refine Safe.bind hsound (requireDefinition_finds.mono ?_)
  rintro result db₁ hsound₁ hgrows₁ (⟨d, hd, rfl⟩ | ⟨hnone, message, rfl⟩)
  swap
  · refine ReduceSays.ofError (fun _ h => by cases h) ?_
    intro hclosed _
    obtain ⟨⟨d, hd⟩, -, -⟩ := hclosed.cohort hsound
    rw [hnone] at hd
    cases hd
  have hplan := hsound₁.definitions d hd
  have hid := planDefinition_id hplan
  show Safe _ _ _ _ (Prog.perform (getReduction d.barrierId) >>= _) db₁
  rw [hid]
  refine query_bind rfl ?_ ?_
  swap
  · intro db₂ e hsound₂ _ _ herror
    rw [getReduction_ok hsound₂] at herror
    cases herror
  intro db₂ existing hsound₂ hgrows₂ _ hread
  rw [getReduction_ok hsound₂, Except.ok.injEq] at hread
  cases existing with
  | some stored =>
    obtain ⟨hmem, hkey⟩ := find?_eq_some_iff.mp hread
    exact fun later _ hlater => ReduceSays.ofStored (hlater.reductions hmem) hkey
  | none =>
    obtain ⟨b, hb, -⟩ := hsound₂.definition d (hgrows₂.definitions hd)
    have hbarrier := hsound₂.barriers b hb ▸ hb
    refine Safe.bind hsound₂ ((getAggregateStatusOf_tells hsound₂ hbarrier).mono ?_)
    intro result db₃ hsound₃ hgrows₃ hsays
    have hpersists : Closed H plan s → Closed H plan db₂ := fun hclosed =>
      hclosed.later hsound.toBarrierSound hsound₂.toBarrierSound (hgrows₁.trans hgrows₂)
    cases result with
    | error e =>
      refine ReduceSays.ofError (fun message h => hsays.no_conflict message (by rw [h])) ?_
      intro hclosed _
      obtain ⟨status, h, -⟩ := hsays.succeeded (hpersists hclosed)
      cases h
    | ok status =>
      have hstatus : Closed H plan s →
          status.isComplete = true ∧ status.overallStatus = .succeeded := by
        intro hclosed
        obtain ⟨status', h, hboth⟩ := hsays.succeeded (hpersists hclosed)
        rw [Except.ok.inj h]
        exact hboth
      refine ofExcept_bind ?_ ?_
      swap
      · intro e herror later _ _
        unfold refuse at herror
        split at herror
        · rename_i hopen
          cases herror
          refine ReduceSays.ofError (fun _ h => by cases h) ?_
          intro hclosed _
          rw [(hstatus hclosed).1] at hopen
          cases hopen
        · cases herror
      intro _ hcomplete
      rw [refuse_eq_ok, Bool.not_eq_false'] at hcomplete
      refine ofExcept_bind ?_ ?_
      swap
      · intro e herror later _ _
        unfold refuse at herror
        split at herror
        · rename_i hfailed
          cases herror
          refine ReduceSays.ofError (fun _ h => by cases h) ?_
          intro hclosed _
          rw [(hstatus hclosed).2] at hfailed
          cases hfailed
        · cases herror
      intro _ hsucceeded
      rw [refuse_eq_ok, bne_eq_false_iff_eq] at hsucceeded
      have hclosed₃ := hsays.closed status rfl hcomplete hsucceeded
      exact reduce_closed hsound₃ hclosed₃ (hgrows₃.definitions (hgrows₂.definitions hd))
        hplan reducedAt

end Methods

/-! ## Every run -/

variable (H R plan) in
/-- What a finished call of a coordinator of the plan has returned. -/
def ReplaySays (call : BarrierCall) (started : BarrierDb)
    (result : Except BarrierError BarrierResult) (db : BarrierDb) : Prop :=
  match call with
  | .declare _ _ => ∃ d, result = .ok (.definition d) ∧
      db.definitions.find? (planBarrierId H plan) = some d
  | .reduce _ _ _ => NoConflict result ∧ (Closed H plan started → ReducerWorks R plan →
      ∃ r, result = .ok (.reduction r) ∧ db.reductions.find? (planBarrierId H plan) = some r)
  | .submitPartTerminal _ _ _ _ => True
  | .getAggregateStatus _ => True

theorem callBarrier_says (call : BarrierCall) {s : BarrierDb} (hsound : PlanSound H R plan s)
    (hcall : OnPlan R plan call s) :
    Safe (callBarrier H).run Replayable (planDiscipline H R plan) (ReplaySays H R plan call s)
      ((callBarrier H).method call) s := by
  cases call with
  | declare p createdAt =>
    cases hcall
    refine Safe.succeeds_bind hsound (declare_succeeds hsound createdAt) ?_
    intro d db _ _ hfound later _ hlater
    obtain ⟨hmem, hid⟩ := find?_eq_some_iff.mp hfound
    exact ⟨d, rfl, find?_eq_some_iff.mpr ⟨hlater.definitions hmem, hid⟩⟩
  | submitPartTerminal p inference selection failureIsFinal =>
    cases hcall
    refine Safe.bind hsound ((submitPartTerminal_keeps hsound inference selection
      failureIsFinal).mono ?_)
    intro result _ _ _ _
    cases result with
    | ok _ => exact fun _ _ _ => trivial
    | error _ => exact trivial
  | getAggregateStatus p =>
    cases hcall
    refine Safe.bind hsound ((getAggregateStatus_keeps hsound).mono ?_)
    intro result _ _ _ _
    cases result with
    | ok _ => exact fun _ _ _ => trivial
    | error _ => exact trivial
  | reduce reducers p reducedAt =>
    obtain ⟨rfl, rfl⟩ := hcall
    refine Safe.bind hsound ((reduce_tells hsound reducedAt).mono ?_)
    intro result db _ _ hsays
    cases result with
    | ok r =>
      intro later _ hlater
      refine ⟨?_, ?_⟩
      · intro _ h
        cases h
      intro hclosed hworks
      obtain ⟨r', hr', hfound⟩ := hsays.reduced hclosed hworks
      cases hr'
      obtain ⟨hmem, hid⟩ := find?_eq_some_iff.mp hfound
      exact ⟨r, rfl, find?_eq_some_iff.mpr ⟨hlater.reductions hmem, hid⟩⟩
    | error e =>
      refine ⟨?_, ?_⟩
      · intro message h
        cases h
        exact hsays.no_conflict message rfl
      · intro hclosed hworks
        obtain ⟨r, h, -⟩ := hsays.reduced hclosed hworks
        cases h

/-- A schedule of coordinators of one plan in which no append meets a row with
another time. -/
abbrev TimelyRun (H : Hashing) (R : Reducers) (plan : InferenceInputPlan) :=
  Steps (callBarrier H) (OnPlan R plan) Replayable

variable (H R plan) in
/-- In every such schedule every `declare` returns the one stored definition, every
`reduce` made on a closed barrier the one stored reduction, and nobody is told of a
conflict. -/
theorem replay_agrees_in_timely_runs
    (w : World BarrierDb BarrierCall BarrierCommand BarrierAnswer BarrierError BarrierResult)
    (hw : TimelyRun H R plan (World.initial .empty) w) :
    ∀ job ∈ w.jobs, ∀ result, job.rest = .done result →
      ReplaySays H R plan job.op job.started result w.db := by
  have hmethod : ∀ call s, (planDiscipline H R plan).Inv s → OnPlan R plan call s →
      Safe (callBarrier H).run Replayable (planDiscipline H R plan) (ReplaySays H R plan call s)
        ((callBarrier H).method call) s :=
    fun call s hsound hcall => callBarrier_says call hsound hcall
  have hstart : Keeps (callBarrier H) Replayable (planDiscipline H R plan) (ReplaySays H R plan)
      (World.initial .empty) := Keeps.initial PlanSound.empty
  obtain ⟨hkeeps, -⟩ := Steps.keeps hmethod hstart hw
  intro job hjob result hdone
  exact hkeeps.returned hjob hdone

end Coordinators

/-! ## Two clocks -/

instance Replayable.decidable (c : BarrierCommand) (db : BarrierDb) : Decidable (Replayable c db) :=
  match c with
  | .appendDefinition definition => inferInstanceAs <| Decidable <|
      ∀ stored ∈ db.definitions.find? definition.barrierId, stored.createdAt = definition.createdAt
  | .appendReduction reduction => inferInstanceAs <| Decidable <|
      reduction.normalizedOutput.readBack = .equal ∧
        ∀ stored ∈ db.reductions.find? reduction.barrierId, stored.reducedAt = reduction.reducedAt
  | .saveBarrier _ | .getBarrier _ | .getState _ | .saveState _ | .addMember _ _
  | .getMembers _ | .getDefinition _ | .appendCompletion _ | .listCompletions _
  | .getReduction _ => inferInstanceAs (Decidable True)

namespace Race

/-- Advance one call `n` times. -/
def advances (i n : Nat) : List (Choice BarrierCall) := List.replicate n (.advance i)

/-- The second declaration begins when the first is done, and so does the second
reduction. -/
def oneByOne : List (Choice BarrierCall) :=
  [.spawn (.declare plan "10:00")] ++ advances 0 4 ++
  [.spawn (.declare plan "10:01")] ++ advances 0 3 ++
  [.spawn (submit 0 "left")] ++ advances 0 4 ++ [.spawn (submit 1 "right")] ++ advances 0 4 ++
  [.spawn (.reduce reducers plan "10:02")] ++ advances 0 7 ++
  [.spawn (.reduce reducers plan "10:03")] ++ advances 0 2

/-- Both declarations look up before either appends, and so do both reductions. -/
def atOnce : List (Choice BarrierCall) :=
  [.spawn (.declare plan "10:00"), .spawn (.declare plan "10:01")] ++
  advances 1 3 ++ advances 0 3 ++ advances 1 1 ++ advances 0 1 ++
  [.spawn (submit 0 "left")] ++ advances 0 4 ++ [.spawn (submit 1 "right")] ++ advances 0 4 ++
  [.spawn (.reduce reducers plan "10:02"), .spawn (.reduce reducers plan "10:03")] ++
  advances 1 6 ++ advances 0 6 ++ advances 1 1 ++ advances 0 1

/-- A `declare` that was told of a conflict. -/
def declareConflicts (job : Job BarrierDb BarrierCall BarrierCommand BarrierAnswer BarrierError
    BarrierResult) : Bool :=
  match job.op, job.rest with
  | .declare p _, .done (.error (.conflict _)) => p == plan
  | _, _ => false

/-- A `reduce`, made on a closed barrier, that was told of a conflict. -/
def reduceConflicts (job : Job BarrierDb BarrierCall BarrierCommand BarrierAnswer BarrierError
    BarrierResult) : Bool :=
  match job.op, job.rest, job.started.states.find? (planBarrierId hashing plan) with
  | .reduce _ p _, .done (.error (.conflict _)), some row => p == plan &&
      job.started.barriers.rows.any (·.barrierId == planBarrierId hashing plan) &&
      row.state.status == .closed
  | _, _, _ => false

end Race

open Race in
/-- Every command of the schedule finds only rows of its own time, so both
declarations return the definition of 10:00 and both reductions that of 10:02. -/
theorem replay_agrees_one_by_one :
    ∃ w, (World.initial BarrierDb.empty).play? (callBarrier hashing) oneByOne = some w ∧
      w.db.definitions.rows.map (·.createdAt) = ["10:00"] ∧
      w.db.reductions.rows.map (·.reducedAt) = ["10:02"] ∧
      ∀ job ∈ w.jobs, ∀ result, job.rest = .done result →
        ReplaySays hashing reducers plan job.op job.started result w.db := by
  have hplayed : (((World.initial BarrierDb.empty).play? (callBarrier hashing) oneByOne).map
      fun w => (w.db.definitions.rows.map (·.createdAt),
        w.db.reductions.rows.map (·.reducedAt))) = some (["10:00"], ["10:02"]) := by
    decide +kernel
  obtain ⟨w, hw, hview⟩ := Option.map_eq_some_iff.mp hplayed
  rw [Prod.mk.injEq] at hview
  have hstarts : ∀ call, Choice.spawn call ∈ oneByOne → ∀ s, OnPlan reducers plan call s := by
    intro call hcall s
    simp only [oneByOne, advances, mem_append, mem_singleton, mem_replicate,
      Choice.spawn.injEq, reduceCtorEq, and_false, or_false] at hcall
    rcases hcall with (((((rfl | rfl) | rfl) | rfl) | rfl) | rfl) <;>
      first | rfl | exact ⟨rfl, rfl⟩
  have hrun : TimelyRun hashing reducers plan (World.initial .empty) w :=
    steps_of_play? (allowsAll_of_admitsAll? hstarts (by decide +kernel)) hw
  exact ⟨w, hw, hview.1, hview.2, replay_agrees_in_timely_runs hashing reducers plan w hrun⟩

open Race in
/-- Two lookups before two appends: the later declaration and the later reduction are
told of a conflict. -/
theorem replay_conflicts_at_once :
    ∃ w, Steps (callBarrier hashing) (OnPlan reducers plan) (fun _ _ => True)
        (World.initial .empty) w ∧
      ReducerWorks reducers plan ∧
      (∃ job ∈ w.jobs, (∃ createdAt, job.op = .declare plan createdAt) ∧
        ∃ message, job.rest = .done (.error (.conflict message))) ∧
      (∃ job ∈ w.jobs, (∃ R reducedAt, job.op = .reduce R plan reducedAt) ∧
        Closed hashing plan job.started ∧
        ∃ message, job.rest = .done (.error (.conflict message))) := by
  have hplayed : (((World.initial BarrierDb.empty).play? (callBarrier hashing) atOnce).map
      fun w => (w.jobs.any declareConflicts, w.jobs.any reduceConflicts)) = some (true, true) := by
    decide +kernel
  obtain ⟨w, hw, hview⟩ := Option.map_eq_some_iff.mp hplayed
  rw [Prod.mk.injEq, any_eq_true, any_eq_true] at hview
  obtain ⟨⟨first, hfirst, hdeclare⟩, ⟨second, hsecond, hreduce⟩⟩ := hview
  have hstarts : ∀ call, Choice.spawn call ∈ atOnce → ∀ s, OnPlan reducers plan call s := by
    intro call hcall s
    simp only [atOnce, advances, mem_append, mem_cons, not_mem_nil,
      mem_replicate, Choice.spawn.injEq, reduceCtorEq, and_false, or_false] at hcall
    rcases hcall with ((((rfl | rfl) | rfl) | rfl) | rfl | rfl) <;>
      first | rfl | exact ⟨rfl, rfl⟩
  refine ⟨w, steps_of_play? (allowsAll_of_forall hstarts fun _ _ => trivial) hw,
    ⟨_, rfl, fun _ => ⟨_, rfl⟩⟩, ⟨first, hfirst, ?_⟩, ⟨second, hsecond, ?_⟩⟩
  · unfold declareConflicts at hdeclare
    split at hdeclare
    · rename_i p createdAt message hop hrest
      rw [beq_iff_eq] at hdeclare
      subst hdeclare
      exact ⟨⟨createdAt, hop⟩, message, hrest⟩
    · cases hdeclare
  · unfold reduceConflicts at hreduce
    split at hreduce
    · rename_i R p reducedAt message row hop hrest hrow
      simp only [Bool.and_eq_true, beq_iff_eq, any_eq_true] at hreduce
      obtain ⟨⟨rfl, b, hb, hid⟩, hstatus⟩ := hreduce
      exact ⟨⟨R, reducedAt, hop⟩, ⟨b, hb, hid, row, hrow, hstatus⟩, message, hrest⟩
    · cases hreduce

end Robata.Inference
