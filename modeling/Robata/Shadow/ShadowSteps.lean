import Robata.Shadow.ShadowRuns

/-!
# Every step keeps the slots

A call of `submit`, a step of a task, a done callback and the steps of `drain` keep the invariant,
and no step changes an observation that is not queued.
-/

namespace Robata.Shadow

open Contracts Lib List
open Dict (get?_set_of_ne)
open ShadowWorld (isDone record recordRaised releaseBudget requestCancel)

variable {route : ExperimentRoute} {w : ShadowWorld}

/-! ## Settled observations -/

theorem Settled.refl (w : ShadowWorld) : Settled w w := fun _ _ ho _ => ho

theorem Settled.trans {w' w'' : ShadowWorld} (h : Settled w w') (h' : Settled w' w'') :
    Settled w w'' := fun key o ho hsettled => h' key o (h key o ho hsettled) hsettled

theorem Settled.of_record {w' : ShadowWorld} (key : ShadowKey)
    (hkey : ∀ o, w.observations.get? key = some o → o.status = .queued)
    (hother : ∀ k, k ≠ key → w'.observations.get? k = w.observations.get? k) : Settled w w' := by
  intro k o ho hsettled
  by_cases hk : k = key
  · subst hk
    exact absurd (hkey o ho) hsettled
  · rw [hother k hk]
    exact ho

/-! ## `submit` -/

section Submit

variable {key : ShadowKey}

theorem ShadowInv.no_task (h : ShadowInv w) (habsent : w.observations.get? key = none) {i : Nat}
    {task : CandidateTask} (htask : w.candidates[i]? = some task) : task.key ≠ key := by
  rintro rfl
  obtain ⟨o, ho, -⟩ := h.observed htask
  rw [habsent] at ho
  cases ho

theorem ShadowInv.recordNew (h : ShadowInv w) (habsent : w.observations.get? key = none)
    {o : ProductionShadowObservation} (ho : o.status ≠ .queued)
    {observations : Dict ShadowKey ProductionShadowObservation}
    (hobservations : ∀ k, observations.get? k = if k = key then some o else w.observations.get? k) :
    ShadowInv { w with observations := observations } where
  slots := h.slots
  bounded := h.bounded
  underflows := h.underflows
  keys := h.keys
  observed := by
    intro i task htask
    rw [hobservations, if_neg (h.no_task habsent htask)]
    exact h.observed htask
  queued := by
    intro k o' ho' hqueued
    rw [hobservations] at ho'
    by_cases hk : k = key
    · rw [if_pos hk, Option.some.injEq] at ho'
      subst ho'
      exact absurd hqueued ho
    · rw [if_neg hk] at ho'
      exact h.queued ho' hqueued
  executed := h.executed
  executions := h.executions
  tasks := h.tasks

theorem ShadowInv.created (h : ShadowInv w) (habsent : w.observations.get? key = none)
    (hfree : w.budget.inFlight < w.budget.maximumInFlight) {o : ProductionShadowObservation}
    (ho : o.status = .queued) :
    ShadowInv { w with
      budget := { w.budget with inFlight := w.budget.inFlight + 1 }
      observations := w.observations.set key o
      candidates := w.candidates ++ [⟨key, .created, false⟩]
      tasks := w.tasks ++ [w.candidates.length] } := by
  have hlast : (w.candidates ++ [⟨key, .created, false⟩])[w.candidates.length]? =
      some ⟨key, .created, false⟩ := by simp
  have hkept : ∀ {i : Nat} {task : CandidateTask}, w.candidates[i]? = some task →
      (w.candidates ++ [⟨key, .created, false⟩])[i]? = some task := by
    intro i task htask
    rw [getElem?_append_left (List.getElem?_eq_some_iff.mp htask).1]
    exact htask
  constructor
  case slots =>
    rw [openTasks_append, h.slots]
    simp
  case bounded =>
    show w.budget.inFlight + 1 ≤ w.budget.maximumInFlight
    omega
  case underflows => exact h.underflows
  case keys =>
    intro i j task task' htask htask' hsame
    rcases getElem?_concat_cases htask with ⟨rfl, rfl⟩ | htask <;>
      rcases getElem?_concat_cases htask' with ⟨rfl, rfl⟩ | htask'
    · rfl
    · exact absurd hsame.symm (h.no_task habsent htask')
    · exact absurd hsame (h.no_task habsent htask)
    · exact h.keys htask htask' hsame
  case observed =>
    intro i task htask
    rw [Dict.get?_set]
    rcases getElem?_concat_cases htask with ⟨-, rfl⟩ | htask
    · exact ⟨o, if_pos rfl, fun _ => ho⟩
    · rw [if_neg (h.no_task habsent htask)]
      exact h.observed htask
  case queued =>
    intro k o' ho' hqueued
    rw [Dict.get?_set] at ho'
    by_cases hk : k = key
    · exact ⟨_, _, hlast, hk.symm, by simp⟩
    · rw [if_neg hk] at ho'
      obtain ⟨i, task, htask, hsame, hopen⟩ := h.queued ho' hqueued
      exact ⟨i, task, hkept htask, hsame, hopen⟩
  case executed =>
    intro k hk
    obtain ⟨i, task, htask, hsame, hbegun⟩ := h.executed k hk
    exact ⟨i, task, hkept htask, hsame, hbegun⟩
  case executions => exact h.executions
  case tasks =>
    intro i task htask hopen
    rcases getElem?_concat_cases htask with ⟨rfl, -⟩ | htask
    · simp
    · exact mem_append_left _ (h.tasks htask hopen)

end Submit

section Calls

variable {key : ShadowKey} {createTask : Except LoopError Unit}

theorem ShadowInv.startCandidate (h : ShadowInv w) (habsent : w.observations.get? key = none)
    (hfree : w.budget.inFlight < w.budget.maximumInFlight)
    (hcreate : ∀ exc, createTask = .error exc → exc.errorDetail ≠ none) :
    ShadowInv (ShadowWorld.startCandidate route
      { w with budget := { w.budget with inFlight := w.budget.inFlight + 1 } } key createTask).2 := by
  unfold ShadowWorld.startCandidate
  cases createTask with
  | ok u => exact h.created habsent hfree rfl
  | error exc =>
    cases hdetail : exc.errorDetail with
    | none => exact absurd hdetail (hcreate exc rfl)
    | some errorDetail =>
      -- the failure replaces the queued observation
      have hfailed : (failedObservation route key exc.errorType errorDetail).status ≠ .queued := by
        simp [failedObservation, observation]
      dsimp only
      rw [hdetail]
      apply h.recordNew habsent hfailed
      intro k
      show ((w.observations.set key _).set key _).get? k = _
      rw [Dict.get?_set, Dict.get?_set]
      by_cases hk : k = key <;> simp [hk]

theorem startCandidate_observations (k : ShadowKey) (hk : k ≠ key) :
    (ShadowWorld.startCandidate route w key createTask).2.observations.get? k =
      w.observations.get? k := by
  unfold ShadowWorld.startCandidate releaseBudget
  cases createTask with
  | ok u => exact get?_set_of_ne _ _ hk
  | error exc =>
    dsimp only
    cases exc.errorDetail with
    | none =>
      dsimp only
      split
      · exact get?_set_of_ne _ _ hk
      · exact get?_set_of_ne _ _ hk
    | some errorDetail =>
      dsimp only [record]
      rw [get?_set_of_ne _ _ hk]
      split
      · exact get?_set_of_ne _ _ hk
      · exact get?_set_of_ne _ _ hk

theorem ShadowInv.submitNew (h : ShadowInv w) (habsent : w.observations.get? key = none)
    (hcreate : ∀ exc, createTask = .error exc → exc.errorDetail ≠ none) :
    ShadowInv (w.submitNew route key createTask).2 := by
  have hrecord : ∀ o : ProductionShadowObservation, o.status ≠ .queued →
      ShadowInv (w.record key o) := fun o ho =>
    h.recordNew habsent ho fun k => Dict.get?_set w.observations key o k
  unfold ShadowWorld.submitNew InMemoryProductionShadowBudget.tryReserve
  cases route.dispatches key.2 with
  | error e => exact h
  | ok dispatches =>
    cases dispatches with
    | false => exact hrecord _ (by simp [observation])
    | true =>
      by_cases hfull : w.budget.inFlight ≥ w.budget.maximumInFlight
      · simp only [if_pos hfull]
        exact hrecord _ (by simp [observation])
      · simp only [if_neg hfull]
        exact h.startCandidate habsent (by omega) hcreate

theorem submitNew_observations (k : ShadowKey) (hk : k ≠ key) :
    (w.submitNew route key createTask).2.observations.get? k = w.observations.get? k := by
  unfold ShadowWorld.submitNew InMemoryProductionShadowBudget.tryReserve
  cases route.dispatches key.2 with
  | error e => rfl
  | ok dispatches =>
    cases dispatches with
    | false => exact get?_set_of_ne _ _ hk
    | true =>
      by_cases hfull : w.budget.inFlight ≥ w.budget.maximumInFlight
      · simp only [if_pos hfull]
        exact get?_set_of_ne _ _ hk
      · simp only [if_neg hfull]
        exact startCandidate_observations k hk

theorem ShadowInv.submit (h : ShadowInv w) (primaryInferenceId : String)
    (invocation : ExperimentInvocation)
    (hcreate : ∀ exc, createTask = .error exc → exc.errorDetail ≠ none) :
    ShadowInv (w.submit route primaryInferenceId invocation createTask).2 := by
  unfold ShadowWorld.submit
  split
  · exact h
  · split
    · exact h
    · split
      · exact h
      · rename_i habsent
        exact h.submitNew habsent hcreate

theorem submit_settled (primaryInferenceId : String) (invocation : ExperimentInvocation) :
    Settled w (w.submit route primaryInferenceId invocation createTask).2 := by
  unfold ShadowWorld.submit
  split
  · exact .refl w
  · split
    · exact .refl w
    · split
      · exact .refl w
      · rename_i habsent
        apply Settled.of_record (primaryInferenceId, invocation.inputIdentitySha256)
        · intro o ho
          rw [habsent] at ho
          cases ho
        · exact fun k hk => submitNew_observations k hk

end Calls

/-! ## Steps of a task -/

section Task

variable {i : Nat} {task : CandidateTask} {executor : ExecutorStep}

/-- The executor ends in a way that `_execute` makes an observation of. -/
def ExecutorStep.Recorded : ExecutorStep → Prop
  | .suspends => True
  | .returns _ => True
  | .raises exc => exc.kind = .cancelledError ∨ exc.kind = .exception ∧ exc.errorDetail ≠ none

theorem shadowStatus_ne_queued (result : ExperimentExecutionResult) :
    result.shadowStatus ≠ .queued := by
  unfold ExperimentExecutionResult.shadowStatus
  split
  · simp
  · split
    · simp
    · split <;> simp

theorem recordRaised_eq {exc : CandidateRaised} (h : (ExecutorStep.raises exc).Recorded)
    (route : ExperimentRoute) (w : ShadowWorld) (key : ShadowKey) :
    ∃ o, o.status ≠ .queued ∧ w.recordRaised route key exc = w.record key o := by
  unfold recordRaised
  rcases h with hkind | ⟨hkind, hdetail⟩
  · rw [hkind]
    exact ⟨_, by simp [observation], rfl⟩
  · rw [hkind]
    cases htext : exc.errorDetail with
    | none => exact absurd htext hdetail
    | some errorDetail => exact ⟨_, by simp [failedObservation, observation], rfl⟩

theorem ShadowInv.bodyStep (h : ShadowInv w) (htask : w.candidates[i]? = some task)
    (hopen : task.phase ≠ .done) (hrecorded : executor.Recorded) :
    ShadowInv ((w.enter task).bodyStep route i task.key executor) := by
  cases executor with
  | suspends => exact h.suspends htask hopen
  | returns result => exact h.ends htask hopen (shadowStatus_ne_queued result)
  | raises exc =>
    obtain ⟨o, ho, heq⟩ := recordRaised_eq hrecorded route (w.enter task) task.key
    show ShadowInv
      (((recordRaised route (w.enter task) task.key exc).releaseBudget).setPhase i .done)
    rw [heq]
    exact h.ends htask hopen ho

theorem releaseBudget_observations (w : ShadowWorld) :
    w.releaseBudget.observations = w.observations := by
  unfold releaseBudget
  split <;> rfl

theorem bodyStep_observations (key k : ShadowKey) (hk : k ≠ key) :
    (w.bodyStep route i key executor).observations.get? k = w.observations.get? k := by
  cases executor with
  | suspends => rfl
  | returns result =>
    show ((w.record key _).releaseBudget).observations.get? k = _
    rw [releaseBudget_observations]
    exact get?_set_of_ne _ _ hk
  | raises exc =>
    show ((w.recordRaised route key exc).releaseBudget).observations.get? k = _
    rw [releaseBudget_observations]
    unfold recordRaised
    split
    · exact get?_set_of_ne _ _ hk
    · split
      · exact get?_set_of_ne _ _ hk
      · rfl
    · rfl

/-- A task that is not done and does not meet its first step with a cancellation. -/
theorem stepTask_eq (htask : w.candidates[i]? = some task) (hopen : task.phase ≠ .done)
    (hcalm : ¬(task.phase = .created ∧ task.cancelRequested = true)) :
    w.stepTask route i executor = (w.enter task).bodyStep route i task.key executor := by
  unfold ShadowWorld.stepTask
  rw [htask]
  obtain ⟨key, phase, cancelRequested⟩ := task
  cases phase with
  | created =>
    cases cancelRequested with
    | false => rfl
    | true => exact absurd ⟨rfl, rfl⟩ hcalm
  | executing => rfl
  | done => exact absurd rfl hopen

theorem stepTask_done (htask : w.candidates[i]? = some task) (hdone : task.phase = .done) :
    w.stepTask route i executor = w := by
  unfold ShadowWorld.stepTask
  rw [htask]
  obtain ⟨key, phase, cancelRequested⟩ := task
  subst hdone
  rfl

variable (w i executor) in
/-- The task of a step enters its body or is in it, and the step leaves an observation if it is the
last one. -/
def ShadowWorld.CalmStep : Prop :=
  ∀ task, w.candidates[i]? = some task → task.phase ≠ .done →
    ¬(task.phase = .created ∧ task.cancelRequested = true) ∧ executor.Recorded

theorem ShadowInv.stepTask (h : ShadowInv w) (hcalm : w.CalmStep i executor) :
    ShadowInv (w.stepTask route i executor) := by
  cases htask : w.candidates[i]? with
  | none =>
    unfold ShadowWorld.stepTask
    rw [htask]
    exact h
  | some task =>
    by_cases hdone : task.phase = .done
    · rw [stepTask_done htask hdone]
      exact h
    · obtain ⟨hfirst, hrecorded⟩ := hcalm task htask hdone
      rw [stepTask_eq htask hdone hfirst]
      exact h.bodyStep htask hdone hrecorded

theorem ShadowInv.stepTask_settled (h : ShadowInv w) (hcalm : w.CalmStep i executor) :
    Settled w (w.stepTask route i executor) := by
  cases htask : w.candidates[i]? with
  | none =>
    apply Settled.of_eq
    unfold ShadowWorld.stepTask
    rw [htask]
  | some task =>
    by_cases hdone : task.phase = .done
    · rw [stepTask_done htask hdone]
      exact .refl w
    · rw [stepTask_eq htask hdone (hcalm task htask hdone).1]
      apply Settled.of_record task.key
      · intro o ho
        obtain ⟨o', ho', hqueued⟩ := h.observed htask
        rw [ho, Option.some.injEq] at ho'
        exact ho' ▸ hqueued hdone
      · exact fun k hk => bodyStep_observations task.key k hk

end Task

/-! ## `drain` and the done callbacks -/

theorem ShadowInv.of_drains (h : ShadowInv w) (drains : List DrainCall) :
    ShadowInv { w with drains := drains } :=
  ⟨h.slots, h.bounded, h.underflows, h.keys, h.observed, h.queued, h.executed, h.executions,
    h.tasks⟩

theorem ShadowInv.discard (h : ShadowInv w) (i : Nat) : ShadowInv (w.discard i) := by
  unfold ShadowWorld.discard
  split
  · rename_i hdone
    refine ⟨h.slots, h.bounded, h.underflows, h.keys, h.observed, h.queued, h.executed,
      h.executions, ?_⟩
    intro j task htask hopen
    have hne : j ≠ i := by
      rintro rfl
      unfold isDone at hdone
      rw [show w.candidates[j]? = some task from htask] at hdone
      exact hopen (by simpa using hdone)
    exact mem_filter.mpr ⟨h.tasks htask hopen, by simpa using hne⟩
  · exact h

theorem ShadowInv.resumeDrain (h : ShadowInv w) (j : Nat) : ShadowInv (w.resumeDrain j) := by
  unfold ShadowWorld.resumeDrain
  split
  · split
    · exact h.of_drains _
    · exact h
  · exact h

theorem ShadowInv.requestCancels (h : ShadowInv w) (f : Nat → CandidateTask → CandidateTask)
    (hkey : ∀ i task, (f i task).key = task.key) (hphase : ∀ i task, (f i task).phase = task.phase) :
    ShadowInv { w with candidates := w.candidates.mapIdx f } := by
  have hback : ∀ {i : Nat} {task : CandidateTask}, (w.candidates.mapIdx f)[i]? = some task →
      ∃ before, w.candidates[i]? = some before ∧ f i before = task := by
    simpa using htask
  have hforth : ∀ {i : Nat} {task : CandidateTask}, w.candidates[i]? = some task →
      (w.candidates.mapIdx f)[i]? = some (f i task) := by
    intro i task htask
    rw [getElem?_mapIdx, htask]
    rfl
  constructor
  case slots =>
    rw [openTasks_mapIdx _ _ hphase]
    exact h.slots
  case bounded => exact h.bounded
  case underflows => exact h.underflows
  case keys =>
    intro i j task task' htask htask' hsame
    obtain ⟨before, hbefore, rfl⟩ := hback htask
    obtain ⟨before', hbefore', rfl⟩ := hback htask'
    rw [hkey, hkey] at hsame
    exact h.keys hbefore hbefore' hsame
  case observed =>
    intro i task htask
    obtain ⟨before, hbefore, rfl⟩ := hback htask
    rw [hkey, hphase]
    exact h.observed hbefore
  case queued =>
    intro k o ho hqueued
    obtain ⟨i, task, htask, hsame, hopen⟩ := h.queued ho hqueued
    exact ⟨i, _, hforth htask, by rw [hkey, hsame], by rw [hphase]; exact hopen⟩
  case executed =>
    intro k hk
    obtain ⟨i, task, htask, hsame, hbegun⟩ := h.executed k hk
    exact ⟨i, _, hforth htask, by rw [hkey, hsame], by rw [hphase]; exact hbegun⟩
  case executions => exact h.executions
  case tasks =>
    intro i task htask hopen
    obtain ⟨before, hbefore, rfl⟩ := hback htask
    rw [hphase] at hopen
    exact h.tasks hbefore hopen

@[simp] theorem requestCancel_key (task : CandidateTask) : (requestCancel task).key = task.key := by
  unfold requestCancel
  split <;> rfl

@[simp] theorem requestCancel_phase (task : CandidateTask) :
    (requestCancel task).phase = task.phase := by
  unfold requestCancel
  split <;> rfl

theorem ShadowInv.cancelDrain (h : ShadowInv w) (j : Nat) : ShadowInv (w.cancelDrain j) := by
  unfold ShadowWorld.cancelDrain
  split
  · rename_i children _ _
    have hrequested := h.requestCancels
      (fun i task => if children.contains i then requestCancel task else task)
      (fun i task => by split <;> simp) (fun i task => by split <;> simp)
    exact hrequested.of_drains _
  · exact h

theorem resumeDrain_observations (w : ShadowWorld) (j : Nat) :
    (w.resumeDrain j).observations = w.observations := by
  unfold ShadowWorld.resumeDrain
  split
  · split <;> rfl
  · rfl

theorem cancelDrain_observations (w : ShadowWorld) (j : Nat) :
    (w.cancelDrain j).observations = w.observations := by
  unfold ShadowWorld.cancelDrain
  split <;> rfl

theorem discard_observations (w : ShadowWorld) (i : Nat) :
    (w.discard i).observations = w.observations := by
  unfold ShadowWorld.discard
  split <;> rfl

/-! ## Runs -/

/-- No task meets its first step with a cancellation, and every exception becomes an observation. -/
def ShadowWorld.Calm (w : ShadowWorld) : ShadowEvent → Prop
  | .submit _ _ createTask => ∀ exc, createTask = .error exc → exc.errorDetail ≠ none
  | .step i executor => w.CalmStep i executor
  | _ => True

/-- Every event of a run is calm in the state it finds. -/
def CalmRun (route : ExperimentRoute) : ShadowWorld → List ShadowEvent → Prop
  | _, [] => True
  | w, event :: events => w.Calm event ∧ CalmRun route (w.next route event) events

theorem calmRun_append (before after : List ShadowEvent) :
    CalmRun route w (before ++ after) ↔
      CalmRun route w before ∧ CalmRun route (w.run route before) after := by
  induction before generalizing w with
  | nil => simp [CalmRun, ShadowWorld.run]
  | cons event before ih =>
    show w.Calm event ∧ CalmRun route (w.next route event) (before ++ after) ↔ _
    rw [ih, ← and_assoc]
    rfl

theorem ShadowInv.next (h : ShadowInv w) {event : ShadowEvent} (hcalm : w.Calm event) :
    ShadowInv (w.next route event) := by
  cases event with
  | submit primaryInferenceId invocation createTask =>
    exact h.submit primaryInferenceId invocation hcalm
  | step i executor => exact h.stepTask hcalm
  | discard i => exact h.discard i
  | startDrain => exact h.of_drains _
  | resumeDrain j => exact h.resumeDrain j
  | cancelDrain j => exact h.cancelDrain j

theorem ShadowInv.next_settled (h : ShadowInv w) {event : ShadowEvent} (hcalm : w.Calm event) :
    Settled w (w.next route event) := by
  cases event with
  | submit primaryInferenceId invocation createTask =>
    exact submit_settled primaryInferenceId invocation
  | step i executor => exact h.stepTask_settled hcalm
  | discard i => exact .of_eq (discard_observations w i)
  | startDrain => exact .of_eq rfl
  | resumeDrain j => exact .of_eq (resumeDrain_observations w j)
  | cancelDrain j => exact .of_eq (cancelDrain_observations w j)

theorem ShadowInv.run (h : ShadowInv w) {events : List ShadowEvent}
    (hcalm : CalmRun route w events) :
    ShadowInv (w.run route events) ∧ Settled w (w.run route events) := by
  induction events generalizing w with
  | nil => exact ⟨h, .refl w⟩
  | cons event events ih =>
    obtain ⟨hstep, hrest⟩ := hcalm
    have hnext : ShadowInv (w.next route event) := h.next hstep
    have hrun := ih hnext hrest
    exact ⟨hrun.1, (h.next_settled hstep).trans hrun.2⟩

/-! ## The size of the budget -/

theorem releaseBudget_maximum (w : ShadowWorld) :
    w.releaseBudget.budget.maximumInFlight = w.budget.maximumInFlight := by
  unfold releaseBudget InMemoryProductionShadowBudget.release
  by_cases hfree : w.budget.inFlight < 1 <;> simp [hfree]

theorem recordRaised_budget (w : ShadowWorld) (key : ShadowKey) (exc : CandidateRaised) :
    (w.recordRaised route key exc).budget = w.budget := by
  unfold recordRaised
  split
  · rfl
  · split <;> rfl
  · rfl

theorem bodyStep_maximum (w : ShadowWorld) (i : Nat) (key : ShadowKey) (executor : ExecutorStep) :
    (w.bodyStep route i key executor).budget.maximumInFlight = w.budget.maximumInFlight := by
  cases executor with
  | suspends => rfl
  | returns result => exact releaseBudget_maximum (w.record key _)
  | raises exc =>
    show (w.recordRaised route key exc).releaseBudget.budget.maximumInFlight = _
    rw [releaseBudget_maximum, recordRaised_budget]

theorem startCandidate_maximum (w : ShadowWorld) (key : ShadowKey)
    (createTask : Except LoopError Unit) :
    (w.startCandidate route key createTask).2.budget.maximumInFlight =
      w.budget.maximumInFlight := by
  unfold ShadowWorld.startCandidate
  cases createTask with
  | ok u => rfl
  | error exc =>
    have hreleased := releaseBudget_maximum (w.record key (observation route key .queued))
    dsimp only
    split
    · exact hreleased
    · exact hreleased

theorem submit_maximum (w : ShadowWorld) (primaryInferenceId : String)
    (invocation : ExperimentInvocation) (createTask : Except LoopError Unit) :
    (w.submit route primaryInferenceId invocation createTask).2.budget.maximumInFlight =
      w.budget.maximumInFlight := by
  unfold ShadowWorld.submit
  split
  · rfl
  · split
    · rfl
    · split
      · rfl
      · unfold ShadowWorld.submitNew InMemoryProductionShadowBudget.tryReserve
        split
        · rfl
        · rfl
        · by_cases hfull : w.budget.inFlight ≥ w.budget.maximumInFlight
          · simp only [if_pos hfull]
            rfl
          · simp only [if_neg hfull]
            exact startCandidate_maximum _ _ _

theorem next_maximum (w : ShadowWorld) (event : ShadowEvent) :
    (w.next route event).budget.maximumInFlight = w.budget.maximumInFlight := by
  cases event with
  | submit primaryInferenceId invocation createTask =>
    exact submit_maximum w primaryInferenceId invocation createTask
  | step i executor =>
    show (w.stepTask route i executor).budget.maximumInFlight = _
    unfold ShadowWorld.stepTask
    split
    · rfl
    · split
      · rfl
      · exact bodyStep_maximum _ _ _ _
      · exact bodyStep_maximum _ _ _ _
      · rfl
  | discard i =>
    show (w.discard i).budget.maximumInFlight = _
    unfold ShadowWorld.discard
    split <;> rfl
  | startDrain => rfl
  | resumeDrain j =>
    show (w.resumeDrain j).budget.maximumInFlight = _
    unfold ShadowWorld.resumeDrain
    split
    · split <;> rfl
    · rfl
  | cancelDrain j =>
    show (w.cancelDrain j).budget.maximumInFlight = _
    unfold ShadowWorld.cancelDrain
    split <;> rfl

theorem run_maximum (w : ShadowWorld) (events : List ShadowEvent) :
    (w.run route events).budget.maximumInFlight = w.budget.maximumInFlight := by
  induction events generalizing w with
  | nil => rfl
  | cons event events ih =>
    show ((w.next route event).run route events).budget.maximumInFlight = _
    rw [ih, next_maximum]

/-! ## Slots and records of shadow work -/

/-- In every state of a calm run the reserved slots are those of the unfinished tasks and within the
budget, no release underflows, no key is executed twice, an observation that is not queued never
changes, and none is queued once no task is left. -/
theorem shadow_kept_of_calmRun (route : ExperimentRoute) (maximumInFlight : Nat)
    (positive : 1 ≤ maximumInFlight) (before after : List ShadowEvent)
    (hcalm : CalmRun route (.initial maximumInFlight positive) (before ++ after)) :
    let earlier := (ShadowWorld.initial maximumInFlight positive).run route before
    let later := earlier.run route after
    later.budget.inFlight = later.unfinished ∧ later.budget.inFlight ≤ maximumInFlight ∧
      later.underflows = 0 ∧ later.executions.Nodup ∧
      (∀ key o, earlier.observations.get? key = some o → o.status ≠ .queued →
        later.observations.get? key = some o) ∧
      (later.unfinished = 0 →
        ∀ key o, later.observations.get? key = some o → o.status ≠ .queued) := by
  intro earlier later
  obtain ⟨hbefore, hafter⟩ := (calmRun_append before after).mp hcalm
  have hearlier : ShadowInv earlier := ((ShadowInv.initial maximumInFlight positive).run hbefore).1
  obtain ⟨hlater, hsettled⟩ := hearlier.run hafter
  have hmaximum : later.budget.maximumInFlight = maximumInFlight := by
    rw [run_maximum, run_maximum]
    rfl
  refine ⟨hlater.slots, hmaximum ▸ hlater.bounded, hlater.underflows, hlater.executions, hsettled,
    ?_⟩
  intro hdrained key o ho hqueued
  obtain ⟨i, task, htask, -, hopen⟩ := hlater.queued ho hqueued
  -- a queued observation has a task that is not done
  have hcounted : 0 < later.unfinished := countP_pos_iff.mpr
    ⟨task, mem_of_getElem? htask, by simpa using hopen⟩
  omega

/-! ## A run with a cancelled `drain` -/

/-- A route that sends every input to the candidate. -/
def sampleShadowRoute : ExperimentRoute where
  routeId := "route"
  experimentId := "experiment"
  sampleRatio := 1
  sample := fun _ => 0

def samplePrimaryInferenceId : String := "00000000-0000-4000-8000-000000000001"

def sampleInvocation : ExperimentInvocation where
  inputIdentitySha256 := "0000000000000000000000000000000000000000000000000000000000000000"
  primaryInferenceId := none

/-- What a candidate that succeeds leaves. -/
def sampleResult : ExperimentExecutionResult where
  comparisonId := "comparison"
  candidate := none
  candidateTerminal := some ⟨"candidate", .succeeded, true⟩

def sampleOtherInvocation : ExperimentInvocation where
  inputIdentitySha256 := "1111111111111111111111111111111111111111111111111111111111111111"
  primaryInferenceId := none

/-- The cancellation as the candidate raises it. -/
def sampleCancellation : CandidateRaised where
  kind := .cancelledError
  errorType := "CancelledError"
  errorDetail := some ""

/-- Two candidates begin and `drain` waits for them; one of them ends, and the `drain` that is
cancelled then cancels the other. -/
def sampleCalmRun : List ShadowEvent :=
  [.submit samplePrimaryInferenceId sampleInvocation (.ok ()),
    .submit samplePrimaryInferenceId sampleOtherInvocation (.ok ()), .step 0 .suspends,
    .step 1 .suspends, .startDrain, .step 0 (.returns sampleResult), .cancelDrain 0,
    .step 1 (.raises sampleCancellation), .discard 0, .discard 1, .resumeDrain 0]

/-- `drain` is cancelled before the candidate has begun. -/
def sampleCancelledRun : List ShadowEvent :=
  [.submit samplePrimaryInferenceId sampleInvocation (.ok ()), .startDrain, .cancelDrain 0,
    .step 0 .suspends]

theorem calmStep_of_begun (hrecorded : executor.Recorded)
    (hbegun : (w.candidates[i]?.all fun task => task.phase ≠ .created || !task.cancelRequested) =
      true) : w.CalmStep i executor := by
  intro task htask _
  rw [htask] at hbegun
  refine ⟨?_, hrecorded⟩
  rintro ⟨hcreated, hrequested⟩
  simp [hcreated, hrequested] at hbegun

theorem shadow_kept_of_calmRun_sample :
    let later := (ShadowWorld.initial 2 Nat.two_pos).run sampleShadowRoute sampleCalmRun
    later.drains.map (·.state) = [.cancelled] ∧ later.budget.inFlight = 0 ∧
      later.executions.Nodup ∧
      ∀ key o, later.observations.get? key = some o → o.status ≠ .queued := by
  intro later
  have hcalm : CalmRun sampleShadowRoute (.initial 2 Nat.two_pos) ([] ++ sampleCalmRun) := by
    refine ⟨?_, ?_, ?_, ?_, trivial, ?_, trivial, ?_, trivial, trivial, trivial, trivial⟩
    · intro exc hexc
      cases hexc
    · intro exc hexc
      cases hexc
    · exact calmStep_of_begun trivial (by decide +kernel)
    · exact calmStep_of_begun trivial (by decide +kernel)
    · exact calmStep_of_begun trivial (by decide +kernel)
    · exact calmStep_of_begun (.inl rfl) (by decide +kernel)
  have hall : later.drains.map (·.state) = [.cancelled] ∧ later.unfinished = 0 := by decide +kernel
  obtain ⟨hslots, -, -, hnodup, -, hnone⟩ :=
    shadow_kept_of_calmRun sampleShadowRoute 2 Nat.two_pos [] sampleCalmRun hcalm
  exact ⟨hall.1, hslots.trans hall.2, hnodup, hnone hall.2⟩

/-- The slot of a task that was cancelled before its first step is never released, and its
observation stays queued. -/
theorem shadow_slot_kept_after_cancel :
    let w := (ShadowWorld.initial 1 Nat.one_pos).run sampleShadowRoute sampleCancelledRun
    w.unfinished = 0 ∧ w.budget.inFlight = 1 ∧
      (w.observations.get? (samplePrimaryInferenceId, sampleInvocation.inputIdentitySha256)).map
        (·.status) = some .queued := by
  decide +kernel

end Robata.Shadow
