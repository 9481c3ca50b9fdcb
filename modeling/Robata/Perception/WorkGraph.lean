import Mathlib.Data.Prod.Lex
import Mathlib.Data.String.Basic
import Robata.Contracts.JsonValues
import Robata.Lib.KeyedTable
import Robata.Lib.Transaction

/-!
# The work graph of a perception run

The rows of the durable perception ledger, and the work a registered plan consists of: four
stages for each context, a chain through the reconciliation stages, and one `FINALIZE` item
behind them.  Fusion and refinement work is added while the run is executed.

`semantic_sha256` and `uuid5` are parameters.  Nothing is assumed of them: where two
identities would share a digest, the ledger compares the immutable columns.
-/

namespace Robata.Perception

open Lib List

/-- The exceptions of the durable scheduler, with their texts. -/
inductive SchedulerError
  | value (message : String)
  | scheduler (message : String)
  | conflict (message : String)
  | state (message : String)
  | fence (message : String)
  | key (message : String)
  | overflow

/-- A constraint of the schema does not hold. -/
def constraintFailed (table : String) : SchedulerError :=
  .scheduler ("SQLite durable perception transaction failed: " ++ table)

/-- Raise when a check finds its condition. -/
def raiseIf (found : Bool) (e : SchedulerError) : Except SchedulerError Unit :=
  if found then .error e else .ok ()

@[simp] theorem raiseIf_eq_ok {found : Bool} {e : SchedulerError} {u : Unit} :
    raiseIf found e = .ok u ↔ found = false := by
  cases found <;> simp [raiseIf]

@[simp] theorem raiseIf_bind_eq_ok {α : Type} {found : Bool} {e : SchedulerError}
    {rest : Unit → Except SchedulerError α} {a : α} :
    (raiseIf found e >>= rest) = .ok a ↔ found = false ∧ rest () = .ok a := by
  cases found <;> simp [raiseIf]

/-! ## Stages and states -/

inductive PerceptionStage
  | mediaScan | perceptionObserve | observationProject | temporalReconcile
  | fusion | perceptionRefine | finalize
  deriving DecidableEq

def normalStages : List PerceptionStage :=
  [.mediaScan, .perceptionObserve, .observationProject, .temporalReconcile]

def exceptionStages : List PerceptionStage := [.fusion, .perceptionRefine]

def stageOrder : PerceptionStage → Nat
  | .mediaScan => 10
  | .perceptionObserve => 20
  | .observationProject => 30
  | .temporalReconcile => 40
  | .fusion => 50
  | .perceptionRefine => 60
  | .finalize => 70

inductive DurablePerceptionWorkState
  | planned | ready | leased | running | retryWait | succeeded | failedPermanent
  deriving DecidableEq

/-- `LEASED` or `RUNNING`. -/
def DurablePerceptionWorkState.isActive : DurablePerceptionWorkState → Bool
  | .leased | .running => true
  | _ => false

/-! ## Times -/

/-- A time in UTC, in microseconds. -/
abbrev Instant := Int

/-- The last time a `datetime` can hold. -/
def maxInstant : Instant := 253402300799999999

/-- `current + timedelta(seconds=…)`. -/
def plusSeconds (current : Instant) (seconds : Nat) : Except SchedulerError Instant := do
  raiseIf (decide (maxInstant < current + 1000000 * seconds)) .overflow
  .ok (current + 1000000 * seconds)

/-- The fraction of a second as `_timestamp` spells it: `.ffffff`, or nothing at a full
second, which is in the order of texts after every fraction. -/
def fractionKey (t : Instant) : Int := if t % 1000000 = 0 then 1000000 else t % 1000000

/-- The order of the texts of two times. -/
def timestampLe (a b : Instant) : Bool :=
  decide (a / 1000000 < b / 1000000) ||
    (a / 1000000 == b / 1000000 && decide (fractionKey a ≤ fractionKey b))

/-! ## Rows -/

/-- `semantic_projection` of a plan; the recording and the durations are one text. -/
structure PlanProjection where
  (recording policyVersion : String)
  (storageSegmentSemanticSha256Values reasoningContextSemanticSha256Values : List String)
  deriving DecidableEq

/-- The identity a work item is named by. -/
structure WorkIdentity where
  runKey : String
  contextKey : Option String
  focusSegmentOrdinal : Option Nat
  derivedFromWorkItemId : Option String
  stage : PerceptionStage
  (inputSha256 configSha256 schedulerPolicyVersion : String)

/-- What the scheduler hashes. -/
inductive SchedulerProjection
  | plan (projection : PlanProjection)
  | config (schedulerPolicyVersion codecPolicyVersion planPolicyVersion : String)
  | run (planKey planSemanticSha256 configSha256 : String)
  | source (contextSemanticSha256 segmentSemanticSha256 : String) (stage : PerceptionStage)
  | finalSource (runKey planSemanticSha256 : String) (stage : PerceptionStage)
  | work (identity : WorkIdentity)

/-- `semantic_sha256` and `uuid5`. -/
structure SchedulerHashing where
  semanticSha256 : SchedulerProjection → String
  uuid5 : String → String

/-- `DurablePerceptionRun`, a row of `perception_vnext_runs`. -/
structure DurablePerceptionRun where
  (runKey planKey planSemanticSha256 codecPolicyVersion schedulerPolicyVersion : String)
  configSha256 : String
  planJson : PlanProjection
  createdAt : Instant
  derivedWorkSealed : Bool

/-- `DurablePerceptionContext`, a row of `perception_vnext_contexts`. -/
structure DurablePerceptionContext where
  runKey : String
  focusSegmentOrdinal : Nat
  (segmentKey segmentSemanticSha256 contextKey contextSemanticSha256 : String)
  (intervalStartNs intervalEndNs : Nat)
  deriving DecidableEq

/-- The columns of a work item its place in the graph is read from. -/
structure WorkNode where
  workItemId : String
  contextKey : Option String
  focusSegmentOrdinal : Option Nat
  stage : PerceptionStage
  deriving DecidableEq

/-- The columns of a work item that are never written again. -/
structure WorkPlan extends WorkNode where
  (workLogicalKey runKey : String)
  derivedFromWorkItemId : Option String
  (inputSha256 configSha256 : String)
  maxAttempts : Nat
  deriving DecidableEq

/-- `DurablePerceptionWorkItem`, a row of `perception_vnext_work_items`. -/
structure DurablePerceptionWorkItem extends WorkPlan where
  state : DurablePerceptionWorkState
  leaseEpoch : Nat
  (fencingToken leasedBy : Option String)
  leaseExpiresAt : Option Instant
  attempt : Nat
  retryNotBeforeAt : Option Instant
  (resultReference resultSha256 : Option String)
  (createdAt updatedAt : Instant)

inductive AttemptOutcome
  | active | succeeded | failedRetryable | failedPermanent | abandoned
  deriving DecidableEq

/-- A row of `perception_vnext_work_attempts`. -/
structure WorkAttempt where
  workItemId : String
  (attemptNumber leaseEpoch : Nat)
  (fencingToken workerId : String)
  claimedAt : Instant
  (startedAt completedAt : Option Instant)
  outcome : AttemptOutcome
  (errorCode errorDetail : Option String)

structure DurablePerceptionWorkLease where
  (workItemId workerId : String)
  leaseEpoch : Nat
  fencingToken : String
  leaseExpiresAt : Instant

/-- The tables of the ledger. -/
structure PerceptionDb where
  runs : KeyedTable DurablePerceptionRun String (·.runKey)
  contexts : KeyedTable DurablePerceptionContext (String × Nat)
    fun c => (c.runKey, c.focusSegmentOrdinal)
  items : KeyedTable DurablePerceptionWorkItem String (·.workItemId)
  dependencies : KeyedTable (String × String) (String × String) id
  attempts : KeyedTable WorkAttempt (String × Nat) fun a => (a.workItemId, a.attemptNumber)

def PerceptionDb.empty : PerceptionDb := ⟨.empty, .empty, .empty, .empty, .empty⟩

/-! ## Plans -/

/-- A reasoning context, with what the scheduler reads of its focus segment. -/
structure MageReasoningContext where
  focusSegmentOrdinal : Nat
  (segmentSemanticSha256 contextSemanticSha256 : String)
  (startNs endNs : Nat)

/-- `segment_key`, which binds the digest of the segment. -/
def MageReasoningContext.segmentKey (c : MageReasoningContext) : String :=
  "mage-stream-storage-segment-v1:" ++ c.segmentSemanticSha256

/-- `context_key`, which binds the digest of the context. -/
def MageReasoningContext.contextKey (c : MageReasoningContext) : String :=
  "mage-stream-reasoning-context-v1:" ++ c.contextSemanticSha256

/-- `MageStreamPlan`: one context for each segment, in the order of the segments. -/
structure MageStreamPlan where
  (recording policyVersion : String)
  reasoningContexts : List MageReasoningContext
  nonempty : reasoningContexts ≠ []
  ordinals : reasoningContexts.map (·.focusSegmentOrdinal) = List.range reasoningContexts.length

def MageStreamPlan.semanticProjection (plan : MageStreamPlan) : PlanProjection where
  recording := plan.recording
  policyVersion := plan.policyVersion
  storageSegmentSemanticSha256Values := plan.reasoningContexts.map (·.segmentSemanticSha256)
  reasoningContextSemanticSha256Values :=
    plan.reasoningContexts.map (·.contextSemanticSha256)

def contextOf (runKey : String) (item : MageReasoningContext) : DurablePerceptionContext where
  runKey := runKey
  focusSegmentOrdinal := item.focusSegmentOrdinal
  segmentKey := item.segmentKey
  segmentSemanticSha256 := item.segmentSemanticSha256
  contextKey := item.contextKey
  contextSemanticSha256 := item.contextSemanticSha256
  intervalStartNs := item.startNs
  intervalEndNs := item.endNs

/-! ## Work -/

section Work

variable (S : SchedulerHashing) (policy : String)

/-- The run a plan is registered as. -/
def runOf (plan : MageStreamPlan) (codecPolicyVersion : String) (current : Instant) :
    DurablePerceptionRun :=
  let planSemanticSha256 := S.semanticSha256 (.plan plan.semanticProjection)
  let planKey := "mage-stream-plan-v1:" ++ planSemanticSha256
  let configSha256 := S.semanticSha256 (.config policy codecPolicyVersion plan.policyVersion)
  { runKey := "perception-run-vnext-v1:" ++
      S.semanticSha256 (.run planKey planSemanticSha256 configSha256)
    planKey := planKey
    planSemanticSha256 := planSemanticSha256
    codecPolicyVersion := codecPolicyVersion
    schedulerPolicyVersion := policy
    configSha256 := configSha256
    planJson := plan.semanticProjection
    createdAt := current
    derivedWorkSealed := false }

def workItem (run : DurablePerceptionRun) (context : Option DurablePerceptionContext)
    (stage : PerceptionStage) (inputSha256 configSha256 : String) (maxAttempts : Nat)
    (createdAt : Instant) (derivedFromWorkItemId : Option String) : DurablePerceptionWorkItem :=
  let identity := S.semanticSha256 (.work
    { runKey := run.runKey
      contextKey := context.map (·.contextKey)
      focusSegmentOrdinal := context.map (·.focusSegmentOrdinal)
      derivedFromWorkItemId := derivedFromWorkItemId
      stage := stage
      inputSha256 := inputSha256
      configSha256 := configSha256
      schedulerPolicyVersion := policy })
  { workItemId := S.uuid5 ("robata:perception-work-vnext-v1:" ++ identity)
    workLogicalKey := "perception-work-vnext-v1:" ++ identity
    runKey := run.runKey
    contextKey := context.map (·.contextKey)
    focusSegmentOrdinal := context.map (·.focusSegmentOrdinal)
    derivedFromWorkItemId := derivedFromWorkItemId
    stage := stage
    inputSha256 := inputSha256
    configSha256 := configSha256
    maxAttempts := maxAttempts
    state := .planned
    leaseEpoch := 0
    fencingToken := none
    leasedBy := none
    leaseExpiresAt := none
    attempt := 0
    retryNotBeforeAt := none
    resultReference := none
    resultSha256 := none
    createdAt := createdAt
    updatedAt := createdAt }

def contextWorkItem (run : DurablePerceptionRun) (maxAttempts : Nat) (createdAt : Instant)
    (context : DurablePerceptionContext) (stage : PerceptionStage) : DurablePerceptionWorkItem :=
  workItem S policy run (some context) stage
    (S.semanticSha256 (.source context.contextSemanticSha256 context.segmentSemanticSha256 stage))
    run.configSha256 maxAttempts createdAt none

def finalWorkItem (run : DurablePerceptionRun) (maxAttempts : Nat) (createdAt : Instant) :
    DurablePerceptionWorkItem :=
  workItem S policy run none .finalize
    (S.semanticSha256 (.finalSource run.runKey run.planSemanticSha256 .finalize))
    run.configSha256 maxAttempts createdAt none

def normalWork (run : DurablePerceptionRun) (contexts : List DurablePerceptionContext)
    (maxAttempts : Nat) (createdAt : Instant) : List DurablePerceptionWorkItem :=
  (contexts.flatMap fun context =>
    normalStages.map (contextWorkItem S policy run maxAttempts createdAt context)) ++
      [finalWorkItem S policy run maxAttempts createdAt]

end Work

/-! ## Dependencies -/

/-- The dictionary of a plan's work by context key and stage. -/
def byContextStage (work : List WorkNode) (key : Option String) (stage : PerceptionStage) :
    Except SchedulerError WorkNode :=
  match work.reverse.find? fun w => w.contextKey == key && w.stage == stage with
  | some item => .ok item
  | none => .error (.key "missing work of a context and stage")

/-- The chain through the stages of one context, and its reconciliation item. -/
def contextChain (work : List WorkNode) (key : String) :
    Except SchedulerError (List (String × String) × WorkNode) := do
  let media ← byContextStage work (some key) .mediaScan
  let observe ← byContextStage work (some key) .perceptionObserve
  let project ← byContextStage work (some key) .observationProject
  let reconcile ← byContextStage work (some key) .temporalReconcile
  .ok ([(observe.workItemId, media.workItemId), (project.workItemId, observe.workItemId),
    (reconcile.workItemId, project.workItemId)], reconcile)

/-- The ordinal an item is sorted by; an item without a context comes first. -/
def WorkNode.ordinalKey (w : WorkNode) : Int :=
  match w.focusSegmentOrdinal with
  | some ordinal => ordinal
  | none => -1

/-- The order of the reconciliation items: by ordinal, then by identity. -/
def reconcileLe (a b : WorkNode) : Prop :=
  a.ordinalKey < b.ordinalKey ∨ (a.ordinalKey = b.ordinalKey ∧ a.workItemId ≤ b.workItemId)

instance : DecidableRel reconcileLe := fun a b => by
  unfold reconcileLe
  infer_instance

/-- `_normal_dependencies`: pairs of a downstream and an upstream item. -/
def normalDependencies (work : List WorkNode) : Except SchedulerError (List (String × String)) := do
  let contextKeys := (work.filterMap (·.contextKey)).dedup.insertionSort (· ≤ ·)
  let chains ← contextKeys.mapM (contextChain work)
  let reconciles := (chains.map Prod.snd).insertionSort reconcileLe
  let finalize ← byContextStage work none .finalize
  .ok ((chains.flatMap Prod.fst) ++
    ((reconciles.zip reconciles.tail).map fun pair => (pair.2.workItemId, pair.1.workItemId)) ++
    reconciles.map fun item => (finalize.workItemId, item.workItemId))

/-- The nodes of a run's planned work. -/
def normalNodes (S : SchedulerHashing) (run : DurablePerceptionRun)
    (contexts : List DurablePerceptionContext) : List WorkNode :=
  (normalWork S run.schedulerPolicyVersion run contexts 0 0).map (·.toWorkNode)

/-! ## The order of the dependencies -/

/-- The place of an item in its run: its stage, and within a stage the ordinal. -/
def WorkNode.rank (w : WorkNode) : ℕ ×ₗ ℤ := toLex (stageOrder w.stage, w.ordinalKey)

theorem rank_lt_of_stage {u d : WorkNode} (h : stageOrder u.stage < stageOrder d.stage) :
    u.rank < d.rank :=
  Prod.Lex.toLex_lt_toLex.mpr (.inl h)

theorem rel_of_mem_zip_tail {α : Type} {R : α → α → Prop} {l : List α} (h : l.Pairwise R) :
    ∀ p ∈ l.zip l.tail, R p.1 p.2 := by
  intro p hp
  obtain ⟨i, hi, rfl⟩ := mem_iff_getElem.mp hp
  rw [length_zip, length_tail] at hi
  rw [getElem_zip, getElem_tail]
  exact pairwise_iff_getElem.mp h i (i + 1) (by omega) (by omega) (by omega)

section Dependencies

variable {work : List WorkNode} {edges : List (String × String)}

theorem byContextStage_spec {key : Option String} {stage : PerceptionStage} {w : WorkNode}
    (h : byContextStage work key stage = .ok w) :
    w ∈ work ∧ w.contextKey = key ∧ w.stage = stage := by
  unfold byContextStage at h
  split at h
  · rename_i item hfind
    cases h
    have hsel := find?_some hfind
    simp only [Bool.and_eq_true, beq_iff_eq] at hsel
    exact ⟨mem_reverse.mp (mem_of_find?_eq_some hfind), hsel.1, hsel.2⟩
  · cases h

/-- A pair of nodes with the upstream one below. -/
def IsDependency (work : List WorkNode) (edge : String × String) : Prop :=
  ∃ d ∈ work, ∃ u ∈ work, edge = (d.workItemId, u.workItemId) ∧ u.rank < d.rank

theorem contextChain_spec {key : String} {chain : List (String × String) × WorkNode}
    (h : contextChain work key = .ok chain) :
    chain.2 ∈ work ∧ chain.2.contextKey = some key ∧ chain.2.stage = .temporalReconcile ∧
      ∀ edge ∈ chain.1, IsDependency work edge := by
  unfold contextChain at h
  simp only [bind_eq_ok] at h
  obtain ⟨media, hmedia, observe, hobserve, project, hproject, reconcile, hreconcile, h⟩ := h
  cases h
  obtain ⟨hm, _, hms⟩ := byContextStage_spec hmedia
  obtain ⟨ho, _, hos⟩ := byContextStage_spec hobserve
  obtain ⟨hp, _, hps⟩ := byContextStage_spec hproject
  obtain ⟨hr, hrk, hrs⟩ := byContextStage_spec hreconcile
  refine ⟨hr, hrk, hrs, ?_⟩
  intro edge hedge
  simp only [mem_cons, not_mem_nil, or_false] at hedge
  rcases hedge with rfl | rfl | rfl
  · exact ⟨observe, ho, media, hm, rfl, rank_lt_of_stage (by rw [hms, hos]; decide)⟩
  · exact ⟨project, hp, observe, ho, rfl, rank_lt_of_stage (by rw [hos, hps]; decide)⟩
  · exact ⟨reconcile, hr, project, hp, rfl, rank_lt_of_stage (by rw [hps, hrs]; decide)⟩

instance : Std.Total reconcileLe := ⟨fun a b => by
  unfold reconcileLe
  rcases lt_trichotomy a.ordinalKey b.ordinalKey with h | h | h
  · exact .inl (.inl h)
  · rcases le_total a.workItemId b.workItemId with hid | hid
    · exact .inl (.inr ⟨h, hid⟩)
    · exact .inr (.inr ⟨h.symm, hid⟩)
  · exact .inr (.inl h)⟩

instance : IsTrans WorkNode reconcileLe := ⟨fun a b c hab hbc => by
  unfold reconcileLe at *
  rcases hab with hab | ⟨hab, hid⟩ <;> rcases hbc with hbc | ⟨hbc, hid'⟩
  · exact .inl (hab.trans hbc)
  · exact .inl (hbc ▸ hab)
  · exact .inl (hab ▸ hbc)
  · exact .inr ⟨hab.trans hbc, hid.trans hid'⟩⟩

/-- Two reconciliation items of different contexts have different ordinals. -/
def OrdinalsApart (work : List WorkNode) : Prop :=
  ∀ a ∈ work, ∀ b ∈ work, a.stage = .temporalReconcile → b.stage = .temporalReconcile →
    a.ordinalKey = b.ordinalKey → a.contextKey = b.contextKey

variable (h : normalDependencies work = .ok edges)
include h

theorem normalDependencies_parts :
    ∃ (chains : List (List (String × String) × WorkNode)) (reconciles : List WorkNode)
      (final : WorkNode),
      reconciles = (chains.map Prod.snd).insertionSort reconcileLe ∧
      byContextStage work none .finalize = .ok final ∧
      (∀ chain ∈ chains, ∃ key, contextChain work key = .ok chain) ∧
      (∀ w ∈ work, ∀ key, w.contextKey = some key →
        ∃ chain ∈ chains, contextChain work key = .ok chain) ∧
      (reconciles.map (·.contextKey)).Nodup ∧
      edges = chains.flatMap Prod.fst ++
        ((reconciles.zip reconciles.tail).map fun pair =>
          (pair.2.workItemId, pair.1.workItemId)) ++
        reconciles.map fun item => (final.workItemId, item.workItemId) := by
  unfold normalDependencies at h
  simp only [bind_eq_ok] at h
  obtain ⟨chains, hchains, final, hfinal, h⟩ := h
  cases h
  refine ⟨chains, _, final, rfl, hfinal, ?_, ?_, ?_, rfl⟩
  · intro chain hchain
    obtain ⟨key, _, hkey⟩ := exists_of_mem_mapM hchains hchain
    exact ⟨key, hkey⟩
  · intro w hw key hkey
    refine mem_results_of_mapM hchains ?_
    rw [mem_insertionSort, mem_dedup, mem_filterMap]
    exact ⟨w, hw, hkey⟩
  · have hkeys : chains.map (fun chain => chain.2.contextKey) = List.map some _ :=
      mapM_map_eq hchains fun key _ chain hchain => (contextChain_spec hchain).2.1
    have hperm := (perm_insertionSort reconcileLe (chains.map Prod.snd)).map (·.contextKey)
    rw [hperm.nodup_iff, map_map]
    refine (congrArg List.Nodup hkeys).mpr ?_
    refine List.Nodup.map (Option.some_injective _) ?_
    rw [(perm_insertionSort (· ≤ ·) _).nodup_iff]
    exact nodup_dedup _

theorem normalDependencies_rank
    (hapart : OrdinalsApart work) : ∀ edge ∈ edges, IsDependency work edge := by
  obtain ⟨chains, reconciles, final, hsorted, hfinal, hchain, _, hnodup, rfl⟩ :=
    normalDependencies_parts h
  have hreconcile : ∀ r ∈ reconciles, r ∈ work ∧ r.stage = .temporalReconcile := by
    intro r hr
    rw [hsorted, mem_insertionSort, mem_map] at hr
    obtain ⟨chain, hmem, rfl⟩ := hr
    obtain ⟨key, hkey⟩ := hchain chain hmem
    obtain ⟨hwork, _, hstage, _⟩ := contextChain_spec hkey
    exact ⟨hwork, hstage⟩
  intro edge hedge
  rw [mem_append, mem_append] at hedge
  rcases hedge with (hedge | hedge) | hedge
  · obtain ⟨chain, hmem, hedge⟩ := mem_flatMap.mp hedge
    obtain ⟨key, hkey⟩ := hchain chain hmem
    exact (contextChain_spec hkey).2.2.2 edge hedge
  · obtain ⟨pair, hpair, rfl⟩ := mem_map.mp hedge
    obtain ⟨hprior, hnext⟩ := of_mem_zip hpair
    have hnext := mem_of_mem_tail hnext
    -- neighbours are sorted, and their contexts differ
    have hle : reconcileLe pair.1 pair.2 := by
      refine rel_of_mem_zip_tail ?_ pair hpair
      rw [hsorted]
      exact pairwise_insertionSort _ _
    have hkey : pair.1.contextKey ≠ pair.2.contextKey :=
      rel_of_mem_zip_tail (pairwise_map.mp hnodup) pair hpair
    have hordinal : pair.1.ordinalKey < pair.2.ordinalKey := by
      rcases hle with hlt | ⟨heq, _⟩
      · exact hlt
      · exact absurd (hapart _ (hreconcile _ hprior).1 _ (hreconcile _ hnext).1
          (hreconcile _ hprior).2 (hreconcile _ hnext).2 heq) hkey
    refine ⟨pair.2, (hreconcile _ hnext).1, pair.1, (hreconcile _ hprior).1, rfl, ?_⟩
    refine Prod.Lex.toLex_lt_toLex.mpr (.inr ⟨?_, hordinal⟩)
    rw [(hreconcile _ hprior).2, (hreconcile _ hnext).2]
  · obtain ⟨r, hr, rfl⟩ := mem_map.mp hedge
    obtain ⟨hmem, _, hstage⟩ := byContextStage_spec hfinal
    refine ⟨final, hmem, r, (hreconcile r hr).1, rfl, rank_lt_of_stage ?_⟩
    rw [(hreconcile r hr).2, hstage]
    decide

theorem normalDependencies_barrier
    (hunique : ∀ a ∈ work, ∀ b ∈ work, a.contextKey = b.contextKey → a.stage = b.stage → a = b)
    {f t : WorkNode} (hf : f ∈ work) (hfinal : f.stage = .finalize) (hkey : f.contextKey = none)
    (ht : t ∈ work) (hstage : t.stage = .temporalReconcile) (htkey : t.contextKey ≠ none) :
    (f.workItemId, t.workItemId) ∈ edges := by
  obtain ⟨chains, reconciles, final, hsorted, hlookup, _, hall, _, rfl⟩ :=
    normalDependencies_parts h
  obtain ⟨hmem, hfinalKey, hfinalStage⟩ := byContextStage_spec hlookup
  have hsame : final = f :=
    hunique final hmem f hf (hfinalKey.trans hkey.symm) (hfinalStage.trans hfinal.symm)
  obtain ⟨key, htkey⟩ := Option.ne_none_iff_exists'.mp htkey
  obtain ⟨chain, hchain, hof⟩ := hall t ht key htkey
  obtain ⟨hwork, hchainKey, hchainStage, _⟩ := contextChain_spec hof
  have hreconcile : chain.2 = t :=
    hunique _ hwork t ht (hchainKey.trans htkey.symm) (hchainStage.trans hstage.symm)
  refine mem_append_right _ (mem_map.mpr ⟨t, ?_, by rw [hsame]⟩)
  rw [hsorted, mem_insertionSort, mem_map]
  exact ⟨chain, hchain, hreconcile⟩

end Dependencies

/-! ## The nodes of a plan -/

section Nodes

variable {S : SchedulerHashing} {run : DurablePerceptionRun}
  {contexts : List DurablePerceptionContext}

theorem nodes_normalWork (maxAttempts : Nat) (createdAt : Instant) :
    ((normalWork S run.schedulerPolicyVersion run contexts maxAttempts createdAt).map
      (·.toWorkNode)) = normalNodes S run contexts := by
  simp only [normalNodes, normalWork, map_append, map_flatMap]
  rfl

theorem mem_normalWork {policy : String} {maxAttempts : Nat} {createdAt : Instant}
    {w : DurablePerceptionWorkItem}
    (hw : w ∈ normalWork S policy run contexts maxAttempts createdAt) :
    (∃ c ∈ contexts, ∃ stage ∈ normalStages,
      w = contextWorkItem S policy run maxAttempts createdAt c stage) ∨
      w = finalWorkItem S policy run maxAttempts createdAt := by
  rw [normalWork, mem_append, mem_flatMap, mem_singleton] at hw
  rcases hw with ⟨c, hc, hw⟩ | rfl
  · obtain ⟨stage, hstage, rfl⟩ := mem_map.mp hw
    exact .inl ⟨c, hc, stage, hstage, rfl⟩
  · exact .inr rfl

/-- What a planned work item is. -/
structure IsPlanned (run : DurablePerceptionRun) (w : DurablePerceptionWorkItem) : Prop where
  runKey : w.runKey = run.runKey
  state : w.state = .planned
  attempt : w.attempt = 0
  epoch : w.leaseEpoch = 0
  normal : w.stage ∈ normalStages ∧ w.contextKey ≠ none ∨ w.stage = .finalize ∧ w.contextKey = none

theorem isPlanned_of_mem {policy : String} {maxAttempts : Nat} {createdAt : Instant}
    {w : DurablePerceptionWorkItem}
    (hw : w ∈ normalWork S policy run contexts maxAttempts createdAt) :
    IsPlanned run w ∧ w.maxAttempts = maxAttempts := by
  rcases mem_normalWork hw with ⟨c, _, stage, hstage, rfl⟩ | rfl
  · exact ⟨⟨rfl, rfl, rfl, rfl, .inl ⟨hstage, Option.some_ne_none _⟩⟩, rfl⟩
  · exact ⟨⟨rfl, rfl, rfl, rfl, .inr ⟨rfl, rfl⟩⟩, rfl⟩

variable (contexts) in
/-- Two contexts of one plan with one key are one. -/
def KeysApart : Prop :=
  ∀ a ∈ contexts, ∀ b ∈ contexts, a.contextKey = b.contextKey → a = b

theorem mem_normalNodes {n : WorkNode} (hn : n ∈ normalNodes S run contexts) :
    (∃ c ∈ contexts, ∃ stage ∈ normalStages,
      n = (contextWorkItem S run.schedulerPolicyVersion run 0 0 c stage).toWorkNode) ∨
      n = (finalWorkItem S run.schedulerPolicyVersion run 0 0).toWorkNode := by
  obtain ⟨w, hw, rfl⟩ := mem_map.mp hn
  rcases mem_normalWork hw with ⟨c, hc, stage, hstage, rfl⟩ | rfl
  · exact .inl ⟨c, hc, stage, hstage, rfl⟩
  · exact .inr rfl

theorem normalNodes_unique (hkeys : KeysApart contexts) :
    ∀ a ∈ normalNodes S run contexts, ∀ b ∈ normalNodes S run contexts,
      a.contextKey = b.contextKey → a.stage = b.stage → a = b := by
  intro a ha b hb hkey hstage
  rcases mem_normalNodes ha with ⟨c, hc, s, hs, rfl⟩ | rfl <;>
    rcases mem_normalNodes hb with ⟨c', hc', s', hs', rfl⟩ | rfl
  · have hcontext : c = c' := hkeys c hc c' hc' (Option.some.inj hkey)
    have hstage : s = s' := hstage
    rw [hcontext, hstage]
  · cases hkey
  · cases hkey
  · rfl

theorem normalNodes_apart (hordinals : (contexts.map (·.focusSegmentOrdinal)).Nodup) :
    OrdinalsApart (normalNodes S run contexts) := by
  intro a ha b hb hastage hbstage hordinal
  rcases mem_normalNodes ha with ⟨c, hc, s, hs, rfl⟩ | rfl
  · rcases mem_normalNodes hb with ⟨c', hc', s', hs', rfl⟩ | rfl
    · have hcontext : c = c' := inj_on_of_nodup_map hordinals hc hc'
        (Int.ofNat.inj hordinal)
      rw [hcontext]
      rfl
    · cases hbstage
  · cases hastage

end Nodes

end Robata.Perception
