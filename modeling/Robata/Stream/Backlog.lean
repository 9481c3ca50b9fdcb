import Mathlib.Data.Prod.Lex
import Robata.Lib.Buckets
import Robata.Lib.Dictionary
import Robata.Stream.StreamOperations

/-!
# The backlog projection

`backlog_projection` joins the stream rows of a plan with their execution items, groups
them by the two states, and adds the groups up.  The stream rows and the items are written
by different transactions, so a row may be joined with nothing.

The same method is written for SQLite and for PostgreSQL.  What the two databases compute
differently is a `Dialect`: a truth value in the result of a query.
-/

namespace Robata.Stream

open Lib List
open Queue (Sha256Digest Rfc3339Timestamp WorkItemState parseTimestamp)

/-! ## Result columns -/

/-- A column of a result row as the driver hands it over. -/
inductive Cell
  | null
  | integer (value : Nat)
  | boolean (value : Bool)
  | text (value : String)

/-- The two databases that hold a stream ledger. -/
inductive Dialect
  | sqlite | postgres

/-- The value of a Boolean expression: SQLite has integers only. -/
def Dialect.truth : Dialect → Bool → Cell
  | .sqlite, value => .integer (if value then 1 else 0)
  | .postgres, value => .boolean value

/-- `_int`: a `bool` is refused although Python counts it as an integer. -/
def Cell.int (field : String) : Cell → Except StreamError Nat
  | .integer value => .ok value
  | _ => .error (.ledger ("persisted " ++ field ++ " must be an integer"))

instance wallClockOrder : LinearOrder (Int ×ₗ Nat ×ₗ Nat) :=
  @Prod.Lex.instLinearOrder Int (Nat ×ₗ Nat) Int.instLinearOrder
    (@Prod.Lex.instLinearOrder Nat Nat Nat.instLinearOrder Nat.instLinearOrder)

/-- The order of timestamp texts of one width: by the wall clock, then by the offset as it
is spelled, with `+` before `-`. -/
def textKey (t : Rfc3339Timestamp) : Int ×ₗ Nat ×ₗ Nat :=
  toLex (t.wall, toLex (if 0 ≤ t.utcOffset then 0 else 1, t.utcOffset.natAbs))

theorem textKey_le_iff {t u : Rfc3339Timestamp} (ht : t.utcOffset = 0) (hu : u.utcOffset = 0) :
    textKey t ≤ textKey u ↔ parseTimestamp t ≤ parseTimestamp u := by
  simp only [textKey, ht, hu, parseTimestamp, Prod.Lex.toLex_le_toLex, le_refl, and_true, sub_zero]
  exact le_iff_lt_or_eq.symm

/-! ## Groups -/

/-- A stream row joined with its execution item. -/
structure BacklogRow where
  publicationState : PublicationState
  executionState : Option WorkItemState
  createdAt : Rfc3339Timestamp

/-- The columns of the `GROUP BY`. -/
def BacklogRow.states (row : BacklogRow) : PublicationState × Option WorkItemState :=
  (row.publicationState, row.executionState)

/-- One row of the grouped query. -/
structure BacklogGroup where
  publicationState : PublicationState
  executionState : Option WorkItemState
  stateCount : Nat
  oldestCreatedAt : Option Rfc3339Timestamp

namespace StreamDb

variable (db : StreamDb) (planKey : String)

/-- The stream work rows of a plan. -/
def rowsOf : List StreamWorkRow := db.rows.rows.filter (·.planKey == planKey)

/-- The join of a row with `work_items`; `COALESCE` takes the creation text of the item. -/
def joinExecution (row : StreamWorkRow) : BacklogRow :=
  let execution := db.work.item? row.plan.workItemId
  { publicationState := row.publicationState
    executionState := execution.map (·.state)
    createdAt := (execution.map (·.createdAt)).getD row.plan.createdAt }

/-- The joined rows of a plan. -/
def backlogRows : List BacklogRow := (db.rowsOf planKey).map db.joinExecution

def backlogGroups : List BacklogGroup :=
  (bucketKeys BacklogRow.states (db.backlogRows planKey)).map fun states =>
    let members := inBucket BacklogRow.states (db.backlogRows planKey) states
    ⟨states.1, states.2, members.length, leastItem textKey (members.map (·.createdAt))⟩

end StreamDb

/-! ## The projection -/

structure StoredStreamBacklog where
  stateCounts : List (String × Nat)
  activeBacklog : Nat
  oldestActiveCreatedAt : Option Rfc3339Timestamp
  declaredWindowCount : Nat
  expectedPlanSealed : Bool
  terminalMemberCount : Nat
  exportManifest : Option (Sha256Digest × Nat)
  finalizationPublished : Bool

/-- The variables of the loop over the groups. -/
structure BacklogTotals where
  counts : Dict String Nat
  activeBacklog : Nat
  oldestActive : Option Rfc3339Timestamp

def BacklogGroup.stateKey (g : BacklogGroup) : Except StreamError String :=
  if g.publicationState = .gated then .ok "GATED"
  else
    match g.executionState with
    | none => .error (.ledger "published stream work lacks its execution projection")
    | some state => .ok state.value

/-- A pair of states that counts as active backlog. -/
def isActiveBacklog (terminalStates : List WorkItemState)
    (states : PublicationState × Option WorkItemState) : Bool :=
  states.1 == .gated || !(states.2.any terminalStates.contains)

/-- One round of the loop over the groups. -/
def addGroup (terminalStates : List WorkItemState) (t : BacklogTotals) (g : BacklogGroup) :
    Except StreamError BacklogTotals := do
  let stateKey ← g.stateKey
  let counts := t.counts.tally stateKey g.stateCount
  if isActiveBacklog terminalStates (g.publicationState, g.executionState) then
    .ok ⟨counts, t.activeBacklog + g.stateCount, leastOf textKey t.oldestActive g.oldestCreatedAt⟩
  else
    .ok { t with counts := counts }

def StreamDb.backlogProjection (dialect : Dialect) (db : StreamDb) (planKey : String)
    (terminalStates : List WorkItemState) (finalizationStage : StreamStage) :
    Except StreamError StoredStreamBacklog := do
  refuse terminalStates.isEmpty (.value "terminal_states must not be empty")
  let plan ← db.getPlan planKey
  let totals ← (db.backlogGroups planKey).foldlM (addGroup terminalStates) ⟨.empty, 0, none⟩
  let published ← (dialect.truth ((db.rowsOf planKey).any fun r =>
    r.plan.stage == finalizationStage && r.publicationState != .gated)).int "published"
  .ok
    { stateCounts := totals.counts.rows.insertionSort fun a b => a.1 ≤ b.1
      activeBacklog := totals.activeBacklog
      oldestActiveCreatedAt := totals.oldestActive
      declaredWindowCount := (db.windowsOf planKey).length
      expectedPlanSealed := plan.sealJson.isSome
      terminalMemberCount := (db.windowsOf planKey).countP (·.terminalMember.isSome)
      exportManifest := plan.exportManifest
      finalizationPublished := published != 0 }

/-! ## What the loop computes -/

section Loop

variable {terminalStates : List WorkItemState} {t t' : BacklogTotals} {g : BacklogGroup}
  {groups : List BacklogGroup}

/-- A group the loop counts as active. -/
def BacklogGroup.isActive (terminalStates : List WorkItemState) (g : BacklogGroup) : Bool :=
  isActiveBacklog terminalStates (g.publicationState, g.executionState)

theorem stateKey_completes :
    (∃ key, g.stateKey = .ok key) ↔ (g.publicationState ≠ .gated → g.executionState.isSome) := by
  unfold BacklogGroup.stateKey
  by_cases hgated : g.publicationState = .gated
  · simp [hgated]
  · cases hstate : g.executionState <;> simp [hgated]

theorem addGroup_spec (h : addGroup terminalStates t g = .ok t') :
    (∃ key, g.stateKey = .ok key) ∧ t'.counts.values.sum = t.counts.values.sum + g.stateCount ∧
      t'.activeBacklog = t.activeBacklog + (if g.isActive terminalStates then g.stateCount else 0) ∧
      t'.oldestActive = if g.isActive terminalStates then
        leastOf textKey t.oldestActive g.oldestCreatedAt else t.oldestActive := by
  obtain ⟨key, hkey, h⟩ := bind_eq_ok.mp h
  refine ⟨⟨key, hkey⟩, ?_⟩
  simp only [BacklogGroup.isActive]
  split at h <;> rename_i hactive <;> cases h <;> simp [hactive, Dict.sum_values_tally]

theorem addGroup_completes (h : ∃ key, g.stateKey = .ok key) :
    ∃ t', addGroup terminalStates t g = .ok t' := by
  obtain ⟨key, hkey⟩ := h
  unfold addGroup
  rw [hkey]
  split
  · exact ⟨_, rfl⟩
  · exact ⟨_, rfl⟩

theorem addGroups_spec :
    ∀ {t : BacklogTotals}, groups.foldlM (addGroup terminalStates) t = .ok t' →
      (∀ g ∈ groups, ∃ key, g.stateKey = .ok key) ∧
      t'.counts.values.sum = t.counts.values.sum + (groups.map (·.stateCount)).sum ∧
      t'.activeBacklog = t.activeBacklog +
        ((groups.filter (·.isActive terminalStates)).map (·.stateCount)).sum ∧
      t'.oldestActive = ((groups.filter (·.isActive terminalStates)).map
        (·.oldestCreatedAt)).foldl (leastOf textKey) t.oldestActive := by
  induction groups with
  | nil =>
    intro t h
    cases h
    simp
  | cons g rest ih =>
    intro t h
    rw [foldlM_cons, bind_eq_ok] at h
    obtain ⟨mid, hfirst, hrest⟩ := h
    obtain ⟨hkey, hcounts, hactive, holdest⟩ := addGroup_spec hfirst
    obtain ⟨hkeys, hcounts', hactive', holdest'⟩ := ih hrest
    refine ⟨forall_mem_cons.mpr ⟨hkey, hkeys⟩, ?_, ?_, ?_⟩
    · rw [hcounts', hcounts, map_cons, sum_cons, Nat.add_assoc]
    · rw [hactive', hactive]
      by_cases h : g.isActive terminalStates = true <;> simp [h, Nat.add_assoc]
    · rw [holdest', holdest]
      by_cases h : g.isActive terminalStates = true <;> simp [h]

theorem addGroups_completes (h : ∀ g ∈ groups, ∃ key, g.stateKey = .ok key) :
    ∃ t', groups.foldlM (addGroup terminalStates) t = .ok t' := by
  have hloop := foldlM_completes (f := addGroup terminalStates)
    (fun rest _ => ∀ g ∈ rest, ∃ key, g.stateKey = .ok key)
    (fun g rest t hrest => by
      obtain ⟨t', ht'⟩ := addGroup_completes (hrest g mem_cons_self)
      exact ⟨t', ht', fun g hg => hrest g (mem_cons_of_mem _ hg)⟩)
    groups t h
  obtain ⟨t', ht', _⟩ := hloop
  exact ⟨t', ht'⟩

end Loop

/-! ## The groups of a plan -/

section Groups

variable {db : StreamDb} {planKey : String} {terminalStates : List WorkItemState}

/-- Every row that is not gated has its execution item. -/
def StreamDb.PlannedRows (db : StreamDb) (planKey : String) : Prop :=
  ∀ r ∈ db.rowsOf planKey, r.publicationState ≠ .gated →
    (db.work.item? r.plan.workItemId).isSome = true

instance : Decidable (db.PlannedRows planKey) := by
  unfold StreamDb.PlannedRows
  infer_instance

/-- The loop passes every group exactly when every row is joined with what it needs. -/
theorem groups_keyed_iff :
    (∀ g ∈ db.backlogGroups planKey, ∃ key, g.stateKey = .ok key) ↔ db.PlannedRows planKey := by
  simp only [stateKey_completes, StreamDb.backlogGroups, mem_map, mem_bucketKeys,
    StreamDb.backlogRows, forall_exists_index, and_imp]
  constructor
  · intro h r hr hstate
    have hrow := h _ _ (db.joinExecution r) r hr rfl rfl rfl hstate
    simpa [StreamDb.joinExecution, BacklogRow.states] using hrow
  · rintro h g states row r hr rfl rfl rfl hstate
    have hrow := h r hr hstate
    simpa [StreamDb.joinExecution, BacklogRow.states] using hrow

theorem sum_groups (db : StreamDb) (planKey : String)
    (select : PublicationState × Option WorkItemState → Bool) :
    (((db.backlogGroups planKey).filter fun g => select (g.publicationState, g.executionState)).map
      (·.stateCount)).sum =
      (db.backlogRows planKey).countP fun row => select row.states := by
  rw [← sum_length_inBucket, StreamDb.backlogGroups, filter_map, map_map]
  rfl

theorem leastBy_groups :
    LeastBy textKey
      (((db.backlogRows planKey).filter fun row => isActiveBacklog terminalStates row.states).map
        (·.createdAt))
      ((((db.backlogGroups planKey).filter (·.isActive terminalStates)).map
        (·.oldestCreatedAt)).foldl (leastOf textKey) none) := by
  let keys := (bucketKeys BacklogRow.states (db.backlogRows planKey)).filter
    (isActiveBacklog terminalStates)
  let buckets := keys.map fun k =>
    (inBucket BacklogRow.states (db.backlogRows planKey) k).map (·.createdAt)
  have hminima : ((db.backlogGroups planKey).filter (·.isActive terminalStates)).map
      (·.oldestCreatedAt) = buckets.map (leastItem textKey) := by
    rw [StreamDb.backlogGroups, filter_map, map_map, map_map]
    rfl
  rw [hminima]
  have hnone : LeastBy textKey ([] : List Rfc3339Timestamp) none := rfl
  refine hnone.foldl.congr fun a => ?_
  -- the active buckets hold the active rows
  simp only [nil_append, mem_flatten, buckets, keys, mem_map, mem_filter, mem_bucketKeys]
  constructor
  · rintro ⟨_, ⟨k, ⟨_, hactive⟩, rfl⟩, ha⟩
    obtain ⟨row, hrow, rfl⟩ := mem_map.mp ha
    obtain ⟨hmem, rfl⟩ := mem_inBucket.mp hrow
    exact ⟨row, ⟨hmem, hactive⟩, rfl⟩
  · rintro ⟨row, ⟨hmem, hactive⟩, rfl⟩
    exact ⟨_, ⟨row.states, ⟨⟨row, hmem, rfl⟩, hactive⟩, rfl⟩,
      mem_map_of_mem (mem_inBucket.mpr ⟨hmem, rfl⟩)⟩

end Groups

/-! ## The projection of a database -/

section Projection

variable {dialect : Dialect} {db : StreamDb} {planKey : String}
  {terminalStates : List WorkItemState} {stage : StreamStage} {b : StoredStreamBacklog}

theorem truth_int_iff {value : Bool} {field : String} :
    (∃ n, (dialect.truth value).int field = .ok n) ↔ dialect = .sqlite := by
  cases dialect <;> simp [Dialect.truth, Cell.int]

theorem backlogProjection_spec
    (h : db.backlogProjection dialect planKey terminalStates stage = .ok b) :
    terminalStates ≠ [] ∧ (∃ plan, db.plans.find? planKey = some plan) ∧
      db.PlannedRows planKey ∧ dialect = .sqlite ∧
      (b.stateCounts.map Prod.snd).sum = (db.backlogRows planKey).length ∧
      b.activeBacklog =
        (db.backlogRows planKey).countP (fun row => isActiveBacklog terminalStates row.states) ∧
      LeastBy textKey
        (((db.backlogRows planKey).filter fun row => isActiveBacklog terminalStates row.states).map
          (·.createdAt)) b.oldestActiveCreatedAt := by
  unfold StreamDb.backlogProjection at h
  rw [refuse_bind_eq_ok, bind_eq_ok] at h
  obtain ⟨hstates, plan, hplan, h⟩ := h
  obtain ⟨totals, htotals, h⟩ := bind_eq_ok.mp h
  obtain ⟨published, hpublished, h⟩ := bind_eq_ok.mp h
  cases h
  obtain ⟨hkeys, hcounts, hactive, holdest⟩ := addGroups_spec htotals
  have hsum := sum_groups db planKey fun _ => true
  have hsumActive := sum_groups db planKey (isActiveBacklog terminalStates)
  refine ⟨by simpa using hstates, ⟨plan, getPlan_eq_ok.mp hplan⟩, groups_keyed_iff.mp hkeys,
    truth_int_iff.mp ⟨_, hpublished⟩, ?_, ?_, ?_⟩
  · rw [((perm_insertionSort _ _).map Prod.snd).sum_eq]
    have hvalues : (totals.counts.rows.map Prod.snd).sum =
        0 + ((db.backlogGroups planKey).map (·.stateCount)).sum := hcounts
    rw [hvalues]
    simpa using hsum
  · rw [hactive, Nat.zero_add]
    exact hsumActive
  · rw [holdest]
    exact leastBy_groups

theorem backlogProjection_completes (hstates : terminalStates ≠ [])
    (hplan : ∃ plan, db.plans.find? planKey = some plan) (hrows : db.PlannedRows planKey) :
    ∃ b, db.backlogProjection .sqlite planKey terminalStates stage = .ok b := by
  obtain ⟨plan, hplan⟩ := hplan
  obtain ⟨totals, htotals⟩ : ∃ totals, (db.backlogGroups planKey).foldlM
      (addGroup terminalStates) ⟨.empty, 0, none⟩ = .ok totals :=
    addGroups_completes (groups_keyed_iff.mpr hrows)
  unfold StreamDb.backlogProjection
  rw [getPlan_eq_ok.mpr hplan, htotals]
  have hnonempty : terminalStates.isEmpty = false := by simpa using hstates
  rw [hnonempty]
  exact ⟨_, rfl⟩

end Projection

end Robata.Stream
