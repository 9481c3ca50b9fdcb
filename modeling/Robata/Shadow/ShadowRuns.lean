import Robata.Shadow.ProductionShadow

/-!
# Slots and observations of shadow work

The slot of a candidate is reserved by `submit` and released by its task, so that the budget counts
the tasks that are not done, as long as every task enters its body.  A task that is cancelled before
its first step does not: its slot stays reserved and its observation stays queued.
-/

namespace Robata.Shadow

open Contracts Lib List

variable {route : ExperimentRoute} {w : ShadowWorld}

/-! ## Counting tasks -/

/-- The tasks of a list that are not done. -/
def openTasks (candidates : List CandidateTask) : Nat :=
  candidates.countP (·.phase ≠ .done)

theorem openTasks_append (candidates : List CandidateTask) (task : CandidateTask) :
    openTasks (candidates ++ [task]) =
      openTasks candidates + if task.phase = .done then 0 else 1 := by
  unfold openTasks
  by_cases hdone : task.phase = .done <;> simp [hdone]

theorem openTasks_modify {candidates : List CandidateTask} {i : Nat} {task : CandidateTask}
    (h : candidates[i]? = some task) (f : CandidateTask → CandidateTask) :
    openTasks (candidates.modify i f) + (if task.phase = .done then 0 else 1) =
      openTasks candidates + if (f task).phase = .done then 0 else 1 := by
  unfold openTasks
  induction candidates generalizing i with
  | nil => simp at h
  | cons head rest ih =>
    cases i with
    | zero =>
      rw [getElem?_cons_zero, Option.some.injEq] at h
      subst h
      by_cases hbefore : head.phase = .done <;> by_cases hafter : (f head).phase = .done <;>
        simp [hbefore, hafter]
    | succ i =>
      have hrest := ih h
      rw [modify_succ_cons, countP_cons, countP_cons]
      omega

theorem openTasks_mapIdx (candidates : List CandidateTask) (f : Nat → CandidateTask → CandidateTask)
    (hphase : ∀ i task, (f i task).phase = task.phase) :
    openTasks (candidates.mapIdx f) = openTasks candidates := by
  unfold openTasks
  induction candidates generalizing f with
  | nil => rfl
  | cons head rest ih =>
    rw [mapIdx_cons, countP_cons, countP_cons, hphase,
      ih (fun i => f (i + 1)) fun i task => hphase (i + 1) task]

/-! ## The invariant -/

/-- The slots are those of the tasks that are not done, every task has its own key, and the queued
observations are those of the tasks that are not done. -/
structure ShadowInv (w : ShadowWorld) : Prop where
  slots : w.budget.inFlight = openTasks w.candidates
  bounded : w.budget.inFlight ≤ w.budget.maximumInFlight
  underflows : w.underflows = 0
  keys : ∀ {i j : Nat} {task task' : CandidateTask}, w.candidates[i]? = some task →
    w.candidates[j]? = some task' → task.key = task'.key → i = j
  observed : ∀ {i : Nat} {task : CandidateTask}, w.candidates[i]? = some task → ∃ o,
    w.observations.get? task.key = some o ∧ (task.phase ≠ .done → o.status = .queued)
  queued : ∀ {key : ShadowKey} {o : ProductionShadowObservation},
    w.observations.get? key = some o → o.status = .queued →
    ∃ (i : Nat) (task : CandidateTask),
      w.candidates[i]? = some task ∧ task.key = key ∧ task.phase ≠ .done
  executed : ∀ key ∈ w.executions, ∃ (i : Nat) (task : CandidateTask),
    w.candidates[i]? = some task ∧ task.key = key ∧ task.phase ≠ .created
  executions : w.executions.Nodup
  tasks : ∀ {i : Nat} {task : CandidateTask}, w.candidates[i]? = some task →
    task.phase ≠ .done → i ∈ w.tasks

theorem ShadowInv.initial (maximumInFlight : Nat) (positive : 1 ≤ maximumInFlight) :
    ShadowInv (.initial maximumInFlight positive) := by
  constructor <;> simp [ShadowWorld.initial, openTasks]

/-- An observation that is not queued stays as it is. -/
def Settled (w w' : ShadowWorld) : Prop :=
  ∀ key o, w.observations.get? key = some o → o.status ≠ .queued → w'.observations.get? key = some o

theorem Settled.of_eq {w' : ShadowWorld} (h : w'.observations = w.observations) : Settled w w' := by
  intro key o ho _
  rw [h]
  exact ho

/-! ## Steps of a task -/

section Task

variable {i : Nat} {task : CandidateTask}

theorem getElem?_setPhase (w : ShadowWorld) (i : Nat) (phase : TaskPhase) (j : Nat) :
    (w.setPhase i phase).candidates[j]? =
      if i = j then w.candidates[j]?.map fun task =>
        { task with phase := phase, cancelRequested := false } else w.candidates[j]? := by
  show (w.candidates.modify i _)[j]? = _
  by_cases h : i = j <;> simp [h]

/-- A task is in its body: the executor has been called for its key. -/
def ShadowWorld.enter (w : ShadowWorld) (task : CandidateTask) : ShadowWorld :=
  { w with executions :=
      if task.phase = .created then w.executions ++ [task.key] else w.executions }

theorem ShadowInv.enter_nodup (h : ShadowInv w) (htask : w.candidates[i]? = some task) :
    (w.enter task).executions.Nodup := by
  unfold ShadowWorld.enter
  split
  · rename_i hcreated
    rw [nodup_append]
    refine ⟨h.executions, by simp, ?_⟩
    intro key hkey key' hkey'
    rw [mem_singleton.mp hkey']
    rintro rfl
    -- a key that was executed has a task that has begun
    obtain ⟨j, task', htask', hsame, hbegun⟩ := h.executed _ hkey
    have hij := h.keys htask' htask hsame
    rw [hij, htask, Option.some.injEq] at htask'
    exact hbegun (htask' ▸ hcreated)
  · exact h.executions

variable {phase : TaskPhase}

theorem ShadowInv.enter_executed (h : ShadowInv w) (htask : w.candidates[i]? = some task)
    (hphase : phase ≠ .created) :
    ∀ key ∈ (w.enter task).executions, ∃ (j : Nat) (task' : CandidateTask),
      (w.setPhase i phase).candidates[j]? = some task' ∧
      task'.key = key ∧ task'.phase ≠ .created := by
  have hmoved : (w.setPhase i phase).candidates[i]? =
      some { task with phase := phase, cancelRequested := false } := by
    rw [getElem?_setPhase, if_pos rfl, htask]
    rfl
  have hkept : ∀ key ∈ w.executions, ∃ (j : Nat) (task' : CandidateTask),
      (w.setPhase i phase).candidates[j]? = some task' ∧
      task'.key = key ∧ task'.phase ≠ .created := by
    intro key hkey
    obtain ⟨j, task', htask', hsame, hbegun⟩ := h.executed key hkey
    by_cases hij : i = j
    · subst hij
      rw [htask, Option.some.injEq] at htask'
      subst htask'
      exact ⟨i, _, hmoved, hsame, hphase⟩
    · refine ⟨j, task', ?_, hsame, hbegun⟩
      rw [getElem?_setPhase, if_neg hij]
      exact htask'
  unfold ShadowWorld.enter
  split
  · exact forall_mem_append.mpr ⟨hkept, forall_mem_singleton.mpr ⟨i, _, hmoved, rfl, hphase⟩⟩
  · exact hkept

theorem getElem?_setPhase_cases {j : Nat} {task' : CandidateTask}
    (htask : w.candidates[i]? = some task)
    (h : (w.setPhase i phase).candidates[j]? = some task') :
    (i = j ∧ task' = { task with phase := phase, cancelRequested := false }) ∨
      (i ≠ j ∧ w.candidates[j]? = some task') := by
  rw [getElem?_setPhase] at h
  by_cases hij : i = j
  · subst hij
    rw [htask] at h
    exact .inl ⟨rfl, by simpa using h.symm⟩
  · rw [if_neg hij] at h
    exact .inr ⟨hij, h⟩

variable (h : ShadowInv w)
include h

theorem ShadowInv.keys_setPhase
    (htask : w.candidates[i]? = some task) {j k : Nat} {t t' : CandidateTask}
    (ht : (w.setPhase i phase).candidates[j]? = some t)
    (ht' : (w.setPhase i phase).candidates[k]? = some t') (hkey : t.key = t'.key) : j = k := by
  rcases getElem?_setPhase_cases htask ht with ⟨rfl, rfl⟩ | ⟨-, ht⟩ <;>
    rcases getElem?_setPhase_cases htask ht' with ⟨rfl, rfl⟩ | ⟨-, ht'⟩
  · rfl
  · exact h.keys htask ht' hkey
  · exact h.keys ht htask hkey
  · exact h.keys ht ht' hkey

theorem ShadowInv.suspends (htask : w.candidates[i]? = some task)
    (hopen : task.phase ≠ .done) : ShadowInv ((w.enter task).setPhase i .executing) where
  slots := by
    show w.budget.inFlight = openTasks (w.candidates.modify i _)
    have hcount := openTasks_modify htask fun t =>
      { t with phase := .executing, cancelRequested := false }
    rw [h.slots]
    simp only [hopen] at hcount
    simp at hcount
    omega
  bounded := h.bounded
  underflows := h.underflows
  keys := fun ht ht' hkey => h.keys_setPhase htask ht ht' hkey
  observed := by
    intro j t ht
    rcases getElem?_setPhase_cases htask ht with ⟨rfl, rfl⟩ | ⟨-, ht⟩
    · obtain ⟨o, ho, hqueued⟩ := h.observed htask
      exact ⟨o, ho, fun _ => hqueued hopen⟩
    · exact h.observed ht
  queued := by
    intro key o ho hqueued
    obtain ⟨j, t, ht, hkey, hopen'⟩ := h.queued ho hqueued
    by_cases hij : i = j
    · subst hij
      rw [htask, Option.some.injEq] at ht
      subst ht
      refine ⟨i, { task with phase := .executing, cancelRequested := false }, ?_, hkey, by simp⟩
      rw [getElem?_setPhase, if_pos rfl]
      show Option.map _ w.candidates[i]? = _
      rw [htask]
      rfl
    · refine ⟨j, t, ?_, hkey, hopen'⟩
      rw [getElem?_setPhase, if_neg hij]
      exact ht
  executed := h.enter_executed htask (by simp)
  executions := h.enter_nodup htask
  tasks := by
    intro j t ht hopen'
    rcases getElem?_setPhase_cases htask ht with ⟨rfl, rfl⟩ | ⟨-, ht⟩
    · exact h.tasks htask hopen
    · exact h.tasks ht hopen'

theorem ShadowInv.releaseBudget (htask : w.candidates[i]? = some task)
    (hopen : task.phase ≠ .done) (w' : ShadowWorld) (hbudget : w'.budget = w.budget) :
    w'.releaseBudget = { w' with
      budget := { w.budget with inFlight := w.budget.inFlight - 1 } } ∧ 1 ≤ w.budget.inFlight := by
  have hcount := openTasks_modify htask fun t => { t with phase := .done }
  simp only [hopen] at hcount
  simp at hcount
  have hslot : 1 ≤ w.budget.inFlight := by
    rw [h.slots]
    omega
  refine ⟨?_, hslot⟩
  unfold ShadowWorld.releaseBudget InMemoryProductionShadowBudget.release
  rw [hbudget, if_neg (by omega)]

theorem ShadowInv.ends (htask : w.candidates[i]? = some task)
    (hopen : task.phase ≠ .done) {o : ProductionShadowObservation} (ho : o.status ≠ .queued) :
    ShadowInv ((((w.enter task).record task.key o).releaseBudget).setPhase i .done) := by
  obtain ⟨hrelease, hslot⟩ :=
    h.releaseBudget htask hopen ((w.enter task).record task.key o) rfl
  rw [hrelease]
  have hcount := openTasks_modify htask fun t =>
    { t with phase := .done, cancelRequested := false }
  simp only [hopen] at hcount
  simp at hcount
  have hslots := h.slots
  have hbounded := h.bounded
  constructor
  case slots =>
    show w.budget.inFlight - 1 = openTasks (w.candidates.modify i _)
    omega
  case bounded =>
    show w.budget.inFlight - 1 ≤ w.budget.maximumInFlight
    omega
  case underflows => exact h.underflows
  case keys => exact fun ht ht' hkey => h.keys_setPhase htask ht ht' hkey
  case observed =>
    intro j t ht
    show ∃ o', (w.observations.set task.key o).get? t.key = some o' ∧ _
    rw [Dict.get?_set]
    rcases getElem?_setPhase_cases htask ht with ⟨rfl, rfl⟩ | ⟨hij, ht⟩
    · exact ⟨o, if_pos rfl, fun hdone => absurd rfl hdone⟩
    · rw [if_neg fun hkey => hij (h.keys htask ht hkey.symm)]
      exact h.observed ht
  case queued =>
    intro key o' ho' hqueued
    have ho' : (w.observations.set task.key o).get? key = some o' := ho'
    rw [Dict.get?_set] at ho'
    split at ho'
    · cases ho'
      exact absurd hqueued ho
    · rename_i hkey
      obtain ⟨j, t, ht, hsame, hopen'⟩ := h.queued ho' hqueued
      have hij : i ≠ j := by
        rintro rfl
        rw [htask, Option.some.injEq] at ht
        exact hkey (ht ▸ hsame.symm)
      refine ⟨j, t, ?_, hsame, hopen'⟩
      rw [getElem?_setPhase, if_neg hij]
      exact ht
  case executed => exact h.enter_executed htask (by simp)
  case executions => exact h.enter_nodup htask
  case tasks =>
    intro j t ht hopen'
    rcases getElem?_setPhase_cases htask ht with ⟨rfl, rfl⟩ | ⟨-, ht⟩
    · exact absurd rfl hopen'
    · exact h.tasks ht hopen'

end Task

end Robata.Shadow
