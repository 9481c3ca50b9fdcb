import Robata.Orchestration.MicrobatchInvariant

/-!
# What callers of the dispatcher receive

Read off the invariant: who is handed over with whom, and what each call ends with.  Whether and
when a caller is cancelled after its request was dispatched changes nothing but its own call; a
caller that leaves before changes the batch of the others, and its deadline.
-/

namespace Robata.Orchestration

open Contracts Lib List
open BoundedMicrobatchDispatcher (newCall)
open DispatchCall (resumption_ends resumption_leaves)
open DispatcherWorld (activeOf deadline endTimer popTimer startBatch startFlush timerElapsed
  updateCall updateCalls)

/-! ## One call in a run -/

section Runs

variable {D : BoundedMicrobatchDispatcher} {w : DispatcherWorld}

/-- A call that has just been made. -/
structure DispatchCall.Fresh (c : DispatchCall) : Prop where
  request : c.cancelRequested = false
  phase : c.phase = .shielded
  undispatched : c.queued.providerDispatchStarted = false

structure CallsStep (w w' : DispatcherWorld) (e : DispatcherEvent) : Prop where
  length : w.calls.length ≤ w'.calls.length
  calls : ∀ {i : Nat} {c' : DispatchCall}, w'.calls[i]? = some c' →
    (∃ c, w.calls[i]? = some c ∧ CallStep (e = .cancel i) c c') ∨ (w.calls[i]? = none ∧ c'.Fresh)

theorem CallsStep.refl (w : DispatcherWorld) (e : DispatcherEvent) : CallsStep w w e :=
  ⟨le_refl _, fun hc => Or.inl ⟨_, hc, .same⟩⟩

variable {e : DispatcherEvent}

theorem CallsStep.update {g : Nat → DispatchCall → DispatchCall}
    (h : ∀ i c, w.calls[i]? = some c → CallStep (e = .cancel i) c (g i c)) {w' : DispatcherWorld}
    (hcalls : w'.calls = (w.updateCalls g).calls) : CallsStep w w' e := by
  refine ⟨by rw [hcalls]; simp [updateCalls], fun {i c'} hc' => ?_⟩
  rw [hcalls] at hc'
  obtain ⟨c, hc, rfl⟩ := mem_updateCalls hc'
  exact Or.inl ⟨c, hc, h i c hc⟩

variable {i : Nat} {c : DispatchCall}

theorem CallsStep.forward {w' : DispatcherWorld} (h : CallsStep w w' e) (hc : w.calls[i]? = some c) :
    ∃ c', w'.calls[i]? = some c' ∧ CallStep (e = .cancel i) c c' := by
  have hlt : i < w'.calls.length := (List.getElem?_eq_some_iff.mp hc).1.trans_le h.length
  refine ⟨w'.calls[i], getElem?_eq_getElem hlt, ?_⟩
  rcases h.calls (getElem?_eq_getElem hlt) with ⟨d, hd, hstep⟩ | ⟨hnone, -⟩
  · cases hc.symm.trans hd
    exact hstep
  · cases hc.symm.trans hnone

@[simp] theorem calls_startFlush (w : DispatcherWorld) (key : QueueKey) (current : Option Nat) :
    (w.startFlush key current).calls = w.calls := by
  unfold startFlush
  dsimp only
  split <;> simp

theorem calls_enqueue (key : QueueKey) (request : VisionInferenceRequest) (now : Rat) :
    (D.enqueue w key request now).calls = w.calls ++ [newCall key request now] := by
  unfold BoundedMicrobatchDispatcher.enqueue
  dsimp only
  split
  · rw [calls_startFlush]
  · split <;> rfl

variable (w e) in
theorem next_calls : CallsStep w (D.next w e) e := by
  cases e with
  | dispatch adapter request now =>
    show CallsStep w (D.dispatch w adapter request now) _
    unfold BoundedMicrobatchDispatcher.dispatch
    split
    · exact .refl w _
    · rename_i compatible _
      refine ⟨by rw [calls_enqueue]; simp, fun {i c'} hc' => ?_⟩
      rw [calls_enqueue] at hc'
      rcases getElem?_concat_cases hc' with ⟨rfl, rfl⟩ | hc'
      · exact Or.inr ⟨getElem?_eq_none le_rfl, rfl, rfl, rfl⟩
      · exact Or.inl ⟨c', hc', .same⟩
  | cancel j =>
    refine CallsStep.update (fun i c _ => ?_) (rfl : (w.cancel j).calls = _)
    split
    · rename_i hi
      subst hi
      dsimp only
      split
      · exact .same
      · rename_i hphase
        exact .request rfl fun result hended => hphase result hended
    · exact .same
  | resume j =>
    show CallsStep w (w.resume j) _
    unfold DispatcherWorld.resume
    split
    · exact .refl w _
    rename_i c hc
    have hupdate : ∀ {f : DispatchCall → DispatchCall} {w' : DispatcherWorld},
        CallStep False c (f c) → w'.calls = (w.updateCall j f).calls →
          CallsStep w w' (.resume j) := by
      intro f w' hstep hcalls
      refine CallsStep.update (fun i d hd => ?_) hcalls
      split
      · rename_i hi
        subst hi
        cases hc.symm.trans hd
        exact hstep.imp False.elim
      · exact .same
    split
    · exact .refl w _
    · rename_i result hresumption
      exact hupdate (.ends result hresumption) rfl
    · rename_i hresumption
      exact hupdate (.settles hresumption) rfl
    · rename_i hresumption
      exact hupdate (f := DispatchCall.left) (.leaves hresumption) (calls_removeQueuedMember _ _ _)
  | timer task =>
    show CallsStep w (w.timerElapsed task) _
    unfold timerElapsed
    split
    · refine ⟨by simp [endTimer], fun hc' => Or.inl ⟨_, ?_, .same⟩⟩
      rw [calls_startFlush] at hc'
      exact hc'
    · exact .refl w _
  | flush task now =>
    show CallsStep w (w.flush task now) _
    unfold DispatcherWorld.flush
    split
    · unfold startBatch
      dsimp only
      split
      · exact ⟨le_refl _, fun hc => Or.inl ⟨_, hc, .same⟩⟩
      split
      · exact CallsStep.update (fun i c _ => settleFutures_step _ i c) rfl
      · refine CallsStep.update (fun i c hc => ?_) rfl
        split
        · rename_i hactive
          exact .start ((mem_activeOf hc).mp hactive).2
        · exact .same
    · exact .refl w _
  | answer task answer =>
    show CallsStep w (w.answer task answer) _
    unfold DispatcherWorld.answer
    split
    · exact CallsStep.update (fun i c _ => settleFutures_step _ i c) rfl
    · exact .refl w _

/-- Where the result of a future comes from: the position of the call in the answer of its batch,
or the deadline that was over before the batch was handed over. -/
inductive ReceivedFrom (i : Nat) (result : Except Raised AdapterOutcome) (f : FlushTask) : Prop
  | answer (active : List Nat) (answer : Except Raised (List AdapterOutcome)) (k : Nat)
      (hstate : f.state = .settled active answer) (hposition : active[k]? = some i)
      (hresult : result = resultAt active.length k answer)
  | expired (active : List Nat) (hstate : f.state = .expired active) (hactive : i ∈ active)
      (hresult : result = .error batchExpired)

theorem handed_sublist_active (f : FlushTask) : f.handed.Sublist f.state.active := by
  unfold FlushTask.handed
  cases f.state with
  | scheduled | empty | inFlight active | settled active answer => exact List.Sublist.refl _
  | expired active => exact nil_sublist _

theorem CallsInv.handed_sublist (h : CallsInv D w) {f : FlushTask} (hf : f ∈ w.flushTasks) :
    f.handed.Sublist f.bucket := by
  obtain ⟨t, ht⟩ := mem_iff_getElem?.mp hf
  exact (handed_sublist_active f).trans (h.flushes ht).active

theorem CallsInv.dispatched_of_handed (h : CallsInv D w) {f : FlushTask} (hf : f ∈ w.flushTasks)
    (hc : w.calls[i]? = some c) (hi : i ∈ f.handed) :
    c.queued.providerDispatchStarted = true := by
  obtain ⟨t, ht⟩ := mem_iff_getElem?.mp hf
  obtain ⟨_, hmembers⟩ := (h.flushes ht).members
  obtain ⟨d, hd, -, hholds⟩ := hmembers i ((h.handed_sublist hf).subset hi)
  cases hc.symm.trans hd
  have hactive : i ∈ f.state.active := (handed_sublist_active f).subset hi
  unfold FlushTask.handed at hi
  generalize f.state = state at hholds hi hactive
  cases hholds with
  | pending _ | expired _ _ _ => cases hi
  | withdrawn _ hnot => exact absurd hactive hnot
  | inFlight _ _ _ hdispatched | settled _ _ _ _ hdispatched => exact hdispatched

/-- A future that is done, of a caller that has not left, has its result from its batch. -/
theorem CallsInv.receivedFrom (h : CallsInv D w) (hc : w.calls[i]? = some c)
    (hwanted : c.queued.cancelled = false)
    {result : Except Raised AdapterOutcome} (hfuture : c.queued.future = .done result) :
    ∃ f ∈ w.flushTasks, ReceivedFrom i result f := by
  rcases h.placed hc with hwithdrawn | ⟨bucket, hb, hi⟩ | ⟨t, f, hf, hi⟩
  · cases hwanted.symm.trans hwithdrawn.cancelled
  · obtain ⟨d, hd, -, hpending⟩ := (h.buckets hb).members i hi
    cases hc.symm.trans hd
    cases hpending.future.symm.trans hfuture
  · refine ⟨f, mem_of_getElem? hf, ?_⟩
    have hinv := h.flushes hf
    obtain ⟨_, hmembers⟩ := hinv.members
    obtain ⟨d, hd, -, hholds⟩ := hmembers i hi
    cases hc.symm.trans hd
    generalize hstate : f.state = state at hholds
    cases hholds with
    | pending hpending => cases hpending.future.symm.trans hfuture
    | withdrawn hwithdrawn _ => cases hwanted.symm.trans hwithdrawn.cancelled
    | inFlight _ hpending _ _ => cases hpending.symm.trans hfuture
    | expired hactive hexpired _ =>
      cases hexpired.symm.trans hfuture
      exact .expired _ hstate hactive rfl
    | settled hactive settled hlookup hsettled hdispatched =>
      rename_i active answer
      cases hsettled.symm.trans hfuture
      obtain ⟨k, hk, rfl⟩ := getElem_of_mem hactive
      have hsublist := hinv.active
      rw [hstate] at hsublist
      have hnodup : active.Nodup := (hinv.sorted.sublist hsublist).imp fun hlt => hlt.ne
      have hposition := lookup_settlements hnodup answer (getElem?_eq_getElem hk)
      exact .answer active answer k hstate (getElem?_eq_getElem hk)
        (Option.some.inj (hlookup.symm.trans hposition))

/-- A request that is done without having been handed over has expired with its batch. -/
theorem CallsInv.expired_of_undispatched (h : CallsInv D w) (hc : w.calls[i]? = some c)
    (hwanted : c.queued.cancelled = false)
    (hundispatched : c.queued.providerDispatchStarted = false)
    {result : Except Raised AdapterOutcome} (hfuture : c.queued.future = .done result) :
    result = .error batchExpired := by
  obtain ⟨f, hf, hreceived⟩ := h.receivedFrom hc hwanted hfuture
  cases hreceived with
  | answer active answer k hstate hposition hresult =>
    have hhanded : f.handed = active := by
      unfold FlushTask.handed
      rw [hstate]
    have hi : i ∈ f.handed := hhanded ▸ mem_of_getElem? hposition
    cases hundispatched.symm.trans (h.dispatched_of_handed hf hc hi)
  | expired _ _ _ hresult => exact hresult

/-! ## A caller that is never cancelled -/

/-- The call waits, or has ended with the result of its future as it is. -/
def DispatchCall.Undisturbed (c : DispatchCall) : Prop :=
  c.cancelRequested = false ∧ (c.phase = .shielded ∨ (∃ outcome, c.phase = .ended (.returned outcome)) ∨
    (∃ exc, c.phase = .ended (.raised exc)) ∨
    ∃ exc, c.phase = .ended (.settled (.error exc)) ∧ exc.kind = .cancelled)

theorem DispatchCall.Undisturbed.interrupted (h : c.cancelRequested = false)
    (hconsistent : c.Consistent) (hphase : c.phase = .shielded)
    (hgoes : c.resumption = .settles ∨ c.resumption = .leaves) :
    ∃ exc, c.queued.future = .done (.error exc) ∧ exc.kind = .cancelled ∧
      c.resumption = .leaves := by
  have hwanted : c.queued.Wanted := by
    unfold Consistent at hconsistent
    rw [hphase] at hconsistent
    exact hconsistent
  unfold resumption at hgoes ⊢
  rw [hphase] at hgoes ⊢
  simp only [h, Bool.false_or] at hgoes ⊢
  cases hfuture : c.queued.future with
  | pending => rw [hfuture] at hgoes; rcases hgoes with h | h <;> cases h
  | cancelled => exact absurd hfuture hwanted.future
  | done result =>
    rw [hfuture] at hgoes
    cases result with
    | ok outcome => rcases hgoes with h | h <;> cases h
    | error exc =>
      refine ⟨exc, rfl, ?_⟩
      by_cases hkind : (FutureState.done (.error exc)).isCancellation = true
      · simp only [if_pos hkind] at hgoes ⊢
        refine ⟨beq_iff_eq.mp hkind, ?_⟩
        split at hgoes
        · rcases hgoes with h | h <;> cases h
        · rename_i hstarted
          rw [if_neg hstarted]
      · simp only [if_neg hkind] at hgoes
        rcases hgoes with h | h <;> cases h

theorem next_undisturbed (h : DispatcherInv D w) (hcancel : e ≠ .cancel i)
    (hcalls : ∀ c, w.calls[i]? = some c → c.Undisturbed) :
    ∀ c', (D.next w e).calls[i]? = some c' → c'.Undisturbed := by
  intro c' hc'
  rcases (next_calls w e).calls hc' with ⟨c, hc, hstep⟩ | ⟨-, hfresh⟩
  swap
  · exact ⟨hfresh.request, Or.inl hfresh.phase⟩
  obtain ⟨hrequest, hphase⟩ := hcalls c hc
  have hshielded : c.resumption ≠ .waits → c.phase = .shielded := by
    intro hwaits
    have hended : ∀ result, c.phase ≠ .ended result := by
      intro result hended
      refine hwaits ?_
      unfold DispatchCall.resumption
      rw [hended]
    rcases hphase with hphase | ⟨_, hphase⟩ | ⟨_, hphase⟩ | ⟨_, hphase, -⟩
    · exact hphase
    · exact absurd hphase (hended _)
    · exact absurd hphase (hended _)
    · exact absurd hphase (hended _)
  have hleaves : ∀ hgoes : c.resumption = .settles ∨ c.resumption = .leaves, False := by
    intro hgoes
    have hwaits : c.resumption ≠ .waits := by
      rintro hwaits
      rcases hgoes with hgoes | hgoes <;> cases hwaits.symm.trans hgoes
    obtain ⟨exc, hfuture, hkind, hleaves⟩ := DispatchCall.Undisturbed.interrupted hrequest
      (h.consistent hc) (hshielded hwaits) hgoes
    have hconsistent := h.consistent hc
    unfold DispatchCall.Consistent at hconsistent
    rw [hshielded hwaits] at hconsistent
    -- a batch that is not dispatched only fails because it has expired
    cases h.toCallsInv.expired_of_undispatched hc hconsistent.cancelled
      (resumption_leaves hleaves).2 hfuture
    cases hkind
  cases hstep with
  | same | start _ | settle _ => exact ⟨hrequest, hphase⟩
  | request he _ => exact absurd he hcancel
  | ends result hresumption =>
    refine ⟨rfl, Or.inr ?_⟩
    cases resumption_ends hresumption with
    | returned outcome _ _ _ => exact Or.inl ⟨outcome, rfl⟩
    | raised exc _ _ _ => exact Or.inr (Or.inl ⟨exc, rfl⟩)
    | settled settled hfuture hends =>
      have hphase' := hshielded (by rw [hresumption]; exact fun h => (by cases h))
      rcases hends with hends | ⟨-, -, hends⟩
      · cases hphase'.symm.trans hends
      · rcases hends with hends | ⟨exc, rfl, hkind⟩
        · cases hrequest.symm.trans hends
        · exact Or.inr (Or.inr ⟨exc, rfl, hkind⟩)
  | settles hresumption => exact (hleaves (Or.inl hresumption)).elim
  | leaves hresumption => exact (hleaves (Or.inr hresumption)).elim

theorem run_undisturbed (events : List DispatcherEvent) (hcancel : ∀ e ∈ events, e ≠ .cancel i) :
    ∀ {w : DispatcherWorld}, DispatcherInv D w → (∀ c, w.calls[i]? = some c → c.Undisturbed) →
      ∀ c, (D.run w events).calls[i]? = some c → c.Undisturbed := by
  induction events with
  | nil => exact fun _ hcalls => hcalls
  | cons e events ih =>
    exact fun h hcalls => ih (fun e' he' => hcancel e' (mem_cons_of_mem _ he')) (next_inv h e)
      (next_undisturbed h (hcancel e mem_cons_self) hcalls)

/-! ## A caller that is cancelled after its dispatch -/

/-- The call ends with the settled outcome. -/
def DispatchCall.WillSettle (c : DispatchCall) : Prop :=
  c.queued.providerDispatchStarted = true ∧ (c.phase = .settling ∨
    (c.phase = .shielded ∧ c.cancelRequested = true) ∨ ∃ result, c.phase = .ended (.settled result))

theorem DispatchCall.WillSettle.step {c' : DispatchCall} {requested : Prop} (h : c.WillSettle)
    (hstep : CallStep requested c c') : c'.WillSettle := by
  obtain ⟨hstarted, hphase⟩ := h
  cases hstep with
  | same | settle _ => exact ⟨hstarted, hphase⟩
  | request _ _ => exact ⟨hstarted, hphase.imp id (Or.imp (fun h => ⟨h.1, rfl⟩) id)⟩
  | start _ => exact ⟨rfl, hphase⟩
  | ends result hresumption =>
    refine ⟨hstarted, Or.inr (Or.inr ?_)⟩
    cases resumption_ends hresumption with
    | returned _ hshielded hrequest _ | raised _ hshielded hrequest _ =>
      rcases hphase with h | ⟨-, h⟩ | ⟨_, h⟩
      · cases hshielded.symm.trans h
      · cases hrequest.symm.trans h
      · cases hshielded.symm.trans h
    | settled result _ _ => exact ⟨result, rfl⟩
  | settles _ => exact ⟨hstarted, Or.inl rfl⟩
  | leaves hresumption =>
    cases hstarted.symm.trans (resumption_leaves hresumption).2

theorem run_willSettle (events : List DispatcherEvent) :
    ∀ {w : DispatcherWorld}, (∀ c, w.calls[i]? = some c → c.WillSettle) → i < w.calls.length →
      ∀ c, (D.run w events).calls[i]? = some c → c.WillSettle := by
  induction events with
  | nil => exact fun hcalls _ => hcalls
  | cons e events ih =>
    intro w hcalls hlt
    have hstep := next_calls (D := D) w e
    refine ih (fun c' hc' => ?_) (hlt.trans_le hstep.length)
    rcases hstep.calls hc' with ⟨c, hc, hcall⟩ | ⟨hnone, -⟩
    · exact (hcalls c hc).step hcall
    · exact absurd hlt (not_lt.mpr (List.getElem?_eq_none_iff.mp hnone))

end Runs

/-! ## What the other callers see of a cancellation -/

/-- The event is about the task of a call: its caller is cancelled, or it is resumed. -/
def DispatcherEvent.isAbout (i : Nat) : DispatcherEvent → Bool
  | .cancel j | .resume j => j == i
  | _ => false

/-- The world without the state of the task of a call. -/
def DispatcherWorld.forget (w : DispatcherWorld) (i : Nat) : DispatcherWorld :=
  w.updateCall i fun c => { c with cancelRequested := false, phase := .shielded }

section Forget

variable {D : BoundedMicrobatchDispatcher} {w : DispatcherWorld}
  {f g : Nat → DispatchCall → DispatchCall}

theorem updateCalls_updateCalls :
    (w.updateCalls f).updateCalls g = w.updateCalls fun i c => g i (f i c) := by
  have hcalls : (w.calls.mapIdx f).mapIdx g = w.calls.mapIdx fun i c => g i (f i c) := by
    apply ext_getElem?
    intro i
    simp only [getElem?_mapIdx, Option.map_map]
    rfl
  unfold updateCalls
  rw [hcalls]

theorem updateCalls_comm (h : ∀ i c, g i (f i c) = f i (g i c)) :
    (w.updateCalls f).updateCalls g = (w.updateCalls g).updateCalls f := by
  rw [updateCalls_updateCalls, updateCalls_updateCalls]
  simp only [h]

theorem updateCalls_congr (h : ∀ i c, w.calls[i]? = some c → f i c = g i c) :
    w.updateCalls f = w.updateCalls g := by
  have hcalls : w.calls.mapIdx f = w.calls.mapIdx g := by
    apply ext_getElem?
    intro i
    rw [getElem?_mapIdx, getElem?_mapIdx]
    cases hc : w.calls[i]? with
    | none => rfl
    | some c => simp [h i c hc]
  unfold updateCalls
  rw [hcalls]

theorem popTimer_updateCalls (key : QueueKey) (current : Option Nat) :
    (w.updateCalls f).popTimer key current = (w.popTimer key current).updateCalls f := by
  have htimers : (w.updateCalls f).timers = w.timers := rfl
  unfold popTimer
  rw [htimers]
  cases w.timers.get? key with
  | none => rfl
  | some task =>
    dsimp only
    split <;> rfl

theorem startFlush_updateCalls (key : QueueKey) (current : Option Nat) :
    (w.updateCalls f).startFlush key current = (w.startFlush key current).updateCalls f := by
  have hpop := popTimer_updateCalls (w := { w with queues := w.queues.erase key }) (f := f) key
    current
  have hqueues : (w.updateCalls f).queues = w.queues := rfl
  have hpopped : { w.updateCalls f with queues := w.queues.erase key } =
      { w with queues := w.queues.erase key }.updateCalls f := rfl
  unfold startFlush
  rw [hqueues, hpopped, hpop]
  dsimp only
  split <;> rfl

theorem removeQueuedMember_updateCalls (key : QueueKey) (i : Nat) :
    (w.updateCalls f).removeQueuedMember key i = (w.removeQueuedMember key i).updateCalls f := by
  have hpop := popTimer_updateCalls (w := { w with queues := w.queues.erase key }) (f := f) key none
  have hqueues : (w.updateCalls f).queues = w.queues := rfl
  unfold DispatcherWorld.removeQueuedMember
  rw [hqueues]
  cases w.queues.get? key with
  | none => rfl
  | some bucket =>
    dsimp only
    split
    · rfl
    · split
      · rfl
      · exact hpop

theorem enqueue_forget (key : QueueKey) (request : VisionInferenceRequest) (now : Rat) (i : Nat) :
    D.enqueue (w.forget i) key request now = (D.enqueue w key request now).forget i := by
  have hlength : (w.forget i).calls.length = w.calls.length := by
    simp [DispatcherWorld.forget, updateCall, updateCalls]
  have hqueues : (w.forget i).queues = w.queues := rfl
  have hqueued : { w.forget i with
      calls := (w.forget i).calls ++ [newCall key request now]
      queues := w.queues.set key ((w.queues.get? key).getD [] ++ [w.calls.length]) } =
    { w with
      calls := w.calls ++ [newCall key request now]
      queues := w.queues.set key ((w.queues.get? key).getD [] ++ [w.calls.length]) }.forget i := by
    unfold DispatcherWorld.forget updateCall updateCalls
    simp only [mapIdx_append, mapIdx_cons, mapIdx_nil]
    -- nothing of the task of a new call is forgotten
    have hnew : (if 0 + w.calls.length = i then { newCall key request now with
        cancelRequested := false, phase := .shielded } else newCall key request now) =
          newCall key request now := by
      split <;> rfl
    rw [hnew]
  unfold BoundedMicrobatchDispatcher.enqueue
  rw [hlength, hqueues]
  dsimp only
  rw [hqueued]
  split
  · exact startFlush_updateCalls _ _
  split
  · exact congrArg (fun queued : DispatcherWorld => { queued with
      timers := w.timers.set key w.timerTasks.length
      timerTasks := w.timerTasks ++ [(⟨key, .sleeping⟩ : TimerTask)] }) hqueued
  · rfl

variable {i : Nat}

theorem calls_forget_of_ne {j : Nat} (hne : j ≠ i) : (w.forget i).calls[j]? = w.calls[j]? := by
  have h : (w.forget i).calls[j]? = _ := calls_updateCalls j
  rw [h]
  simp [hne]

theorem updateCall_forget {j : Nat} (hne : j ≠ i) (f : DispatchCall → DispatchCall) :
    (w.forget i).updateCall j f = (w.updateCall j f).forget i := by
  refine updateCalls_comm fun k c => ?_
  by_cases hj : k = j
  · simp [hj, hne]
  · simp [hj]

theorem settleFutures_forget (results : List (Nat × Except Raised AdapterOutcome)) (i : Nat) :
    (w.forget i).settleFutures results = (w.settleFutures results).forget i := by
  refine updateCalls_comm fun j c => ?_
  by_cases hj : j = i
  · simp only [hj]
    split <;> rfl
  · simp only [if_neg hj]

theorem activeOf_forget (bucket : List Nat) (i : Nat) :
    (w.forget i).activeOf bucket = w.activeOf bucket := by
  have hcall : ∀ j : Nat, (w.forget i).calls[j]?.any (fun c : DispatchCall => c.queued.isActive) =
      w.calls[j]?.any fun c : DispatchCall => c.queued.isActive := by
    intro j
    have h : (w.forget i).calls[j]? = _ := calls_updateCalls j
    rw [h]
    cases w.calls[j]? with
    | none => rfl
    | some c =>
      split <;> rfl
  unfold activeOf
  simp only [hcall]

theorem deadline_forget (active : List Nat) (i : Nat) :
    (w.forget i).deadline active = w.deadline active := by
  have hcall : ∀ j : Nat, ((w.forget i).calls[j]?.map fun c : DispatchCall =>
      c.queued.enqueuedAt + (c.queued.request.timeoutMs : Rat) / 1000) =
      w.calls[j]?.map fun c : DispatchCall =>
        c.queued.enqueuedAt + (c.queued.request.timeoutMs : Rat) / 1000 := by
    intro j
    have h : (w.forget i).calls[j]? = _ := calls_updateCalls j
    rw [h]
    cases w.calls[j]? with
    | none => rfl
    | some c =>
      by_cases hj : j = i
      · simp [hj]
      · simp [hj]
  unfold deadline
  simp only [hcall]

theorem next_forget (w : DispatcherWorld) (e : DispatcherEvent)
    (habout : e.isAbout i = false) : D.next (w.forget i) e = (D.next w e).forget i := by
  cases e with
  | dispatch adapter request now =>
    show D.dispatch (w.forget i) adapter request now = (D.dispatch w adapter request now).forget i
    unfold BoundedMicrobatchDispatcher.dispatch
    split
    · rfl
    · exact enqueue_forget _ request now i
  | cancel j =>
    have hne : j ≠ i := ne_of_beq_false habout
    exact updateCall_forget hne _
  | resume j =>
    have hne : j ≠ i := ne_of_beq_false habout
    show (w.forget i).resume j = (w.resume j).forget i
    unfold DispatcherWorld.resume
    rw [calls_forget_of_ne hne]
    cases w.calls[j]? with
    | none => rfl
    | some c =>
      dsimp only
      split
      · rfl
      · exact updateCall_forget hne _
      · exact updateCall_forget hne _
      · rw [updateCall_forget hne]
        exact removeQueuedMember_updateCalls _ _
  | timer task =>
    show (w.forget i).timerElapsed task = (w.timerElapsed task).forget i
    have htasks : (w.forget i).timerTasks = w.timerTasks := rfl
    unfold timerElapsed
    rw [htasks]
    split
    · exact startFlush_updateCalls (w := w.endTimer task .finished) _ _
    · rfl
  | flush task now =>
    show (w.forget i).flush task now = (w.flush task now).forget i
    have htasks : (w.forget i).flushTasks = w.flushTasks := rfl
    unfold DispatcherWorld.flush
    rw [htasks]
    split
    · unfold startBatch
      rw [activeOf_forget]
      dsimp only
      rw [deadline_forget, settleFutures_forget]
      split
      · rfl
      split
      · rfl
      · have hstart : ∀ active : List Nat, ((w.forget i).updateCalls fun j c =>
            if j ∈ active then { c with queued.providerDispatchStarted := true } else c) =
            (w.updateCalls fun j c => if j ∈ active then
              { c with queued.providerDispatchStarted := true } else c).forget i := by
          intro active
          refine updateCalls_comm fun j c => ?_
          by_cases hj : j = i
          · split <;> rfl
          · simp only [if_neg hj]
        rw [hstart]
        rfl
    · rfl
  | answer task answer =>
    show (w.forget i).answer task answer = (w.answer task answer).forget i
    have htasks : (w.forget i).flushTasks = w.flushTasks := rfl
    unfold DispatcherWorld.answer
    rw [htasks]
    split
    · rw [settleFutures_forget]
      rfl
    · rfl

theorem next_about (w : DispatcherWorld) (e : DispatcherEvent) {c : DispatchCall}
    (habout : e.isAbout i = true) (hc : w.calls[i]? = some c)
    (hdispatched : c.queued.providerDispatchStarted = true) :
    (D.next w e).forget i = w.forget i := by
  have hupdate : ∀ f : DispatchCall → DispatchCall, (f c).key = c.key → (f c).queued = c.queued →
      (w.updateCall i f).forget i = w.forget i := by
    intro f hkey hqueued
    refine updateCalls_updateCalls.trans (updateCalls_congr fun j d hd => ?_)
    by_cases hj : j = i
    · subst hj
      cases hc.symm.trans hd
      simp only [if_true, hkey, hqueued]
    · simp only [if_neg hj]
  cases e with
  | cancel j =>
    cases beq_iff_eq.mp habout
    refine hupdate _ ?_ ?_
    · split <;> rfl
    · split <;> rfl
  | resume j =>
    cases beq_iff_eq.mp habout
    show (w.resume i).forget i = w.forget i
    unfold DispatcherWorld.resume
    rw [hc]
    dsimp only
    split
    · rfl
    · exact hupdate _ rfl rfl
    · exact hupdate _ rfl rfl
    · rename_i hleaves
      cases hdispatched.symm.trans (resumption_leaves hleaves).2
  | dispatch adapter request now | timer task | flush task now | answer task answer => cases habout

/-- After its request was dispatched, what happens to a caller is seen by no other call. -/
theorem run_forget (events : List DispatcherEvent) :
    ∀ {w : DispatcherWorld}, (∃ c, w.calls[i]? = some c ∧ c.queued.providerDispatchStarted = true) →
      (D.run w events).forget i = D.run (w.forget i) (events.filter fun e => !e.isAbout i) := by
  induction events with
  | nil => exact fun _ => rfl
  | cons e events ih =>
    rintro w ⟨c, hc, hdispatched⟩
    obtain ⟨c', hc', hstep⟩ := (next_calls w e).forward hc
    have hdispatched' : c'.queued.providerDispatchStarted = true := by
      cases hstep with
      | same | request _ _ | settle _ | ends _ _ | settles _ | leaves _ => exact hdispatched
      | start _ => rfl
    have hrest := ih ⟨c', hc', hdispatched'⟩
    show (D.run (D.next w e) events).forget i = _
    rw [hrest]
    by_cases habout : e.isAbout i = true
    · rw [next_about w e habout hc hdispatched, filter_cons, if_neg (by simp [habout])]
    · rw [Bool.not_eq_true] at habout
      rw [← next_forget w e habout, filter_cons, if_pos (by simp [habout])]
      rfl

end Forget

/-! ## The dispatcher loses and mixes nothing -/

/-- The requests that a flush task has handed over: in the order of arrival, not too many, with one
adapter and one compatibility key. -/
structure HandedTogether (D : BoundedMicrobatchDispatcher) (w : DispatcherWorld) (f : FlushTask) :
    Prop where
  size : f.handed.length ≤ D.maxBatchSize
  arrival : f.handed.Pairwise (· < ·)
  compatible : ∃ compatible, ∀ i ∈ f.handed, ∃ c : DispatchCall, w.calls[i]? = some c ∧
    c.key.1 = f.adapter ∧ batchCompatibilityKey c.queued.request = some compatible

def DispatchCall.Received (w : DispatcherWorld) (i : Nat) (c : DispatchCall) : DispatchResult → Prop
  | .returned outcome => ∃ f ∈ w.flushTasks, ReceivedFrom i (.ok outcome) f
  | .raised exc => ∃ f ∈ w.flushTasks, ReceivedFrom i (.error exc) f
  | .settled result => c.queued.providerDispatchStarted = true ∧
      ∃ f ∈ w.flushTasks, ReceivedFrom i result f
  | .cancelled => ∀ f ∈ w.flushTasks, i ∉ f.handed

structure DispatcherHolds (D : BoundedMicrobatchDispatcher) (w : DispatcherWorld) : Prop where
  timed : ∀ key bucket, w.queues.get? key = some bucket → bucket ≠ [] → ∃! task, w.Live key task
  waited : ∀ key task, w.Live key task → ∃ bucket, w.queues.get? key = some bucket ∧ bucket ≠ []
  together : ∀ f ∈ w.flushTasks, HandedTogether D w f
  once : ∀ (t t' i : Nat) (f f' : FlushTask), w.flushTasks[t]? = some f →
    w.flushTasks[t']? = some f' → i ∈ f.handed → i ∈ f'.handed → t = t'
  withdrawn : ∀ (i : Nat) (c : DispatchCall), w.calls[i]? = some c → c.queued.cancelled = true →
    ∀ f ∈ w.flushTasks, i ∉ f.handed
  answered : ∀ (f : FlushTask) (active : List Nat) (answer : Except Raised (List AdapterOutcome)),
    f ∈ w.flushTasks → f.state = .settled active answer →
    ∀ k i : Nat, active[k]? = some i → ∃ c : DispatchCall, w.calls[i]? = some c ∧
      c.queued.future = .done (resultAt active.length k answer)
  received : ∀ (i : Nat) (c : DispatchCall) (result : DispatchResult), w.calls[i]? = some c →
    c.phase = .ended result → c.Received w i result

section Holds

variable {D : BoundedMicrobatchDispatcher} {w : DispatcherWorld}

theorem DispatcherInv.holds (h : DispatcherInv D w) : DispatcherHolds D w where
  timed key bucket hb _ := by
    have hsome := h.timed key
    rw [hb] at hsome
    obtain ⟨task, htask⟩ := Option.isSome_iff_exists.mp hsome
    refine ⟨task, h.live.mp htask, fun task' hlive => ?_⟩
    exact Option.some.inj ((h.live.mpr hlive).symm.trans htask)
  waited key task hlive := by
    have hsome := h.timed key
    rw [h.live.mpr hlive] at hsome
    obtain ⟨bucket, hb⟩ := Option.isSome_iff_exists.mp hsome.symm
    exact ⟨bucket, hb, (h.buckets hb).nonempty⟩
  together f hf := by
    obtain ⟨t, ht⟩ := mem_iff_getElem?.mp hf
    have hinv := h.flushes ht
    have hsublist := h.handed_sublist hf
    refine ⟨hsublist.length_le.trans hinv.size, hinv.sorted.sublist hsublist, ?_⟩
    obtain ⟨compatible, hmembers⟩ := hinv.members
    refine ⟨compatible, fun i hi => ?_⟩
    obtain ⟨c, hc, hkey, -⟩ := hmembers i (hsublist.subset hi)
    refine ⟨c, hc, by rw [hkey], ?_⟩
    rw [h.keyed hc, hkey]
  once t t' i f f' hf hf' hi hi' := h.disjoint hf hf'
    ((h.handed_sublist (mem_of_getElem? hf)).subset hi)
    ((h.handed_sublist (mem_of_getElem? hf')).subset hi')
  withdrawn i c hc hcancelled f hf hi := by
    have hdispatched := h.dispatched_of_handed hf hc hi
    have hconsistent := h.consistent hc
    unfold DispatchCall.Consistent at hconsistent
    split at hconsistent
    · cases hcancelled.symm.trans hconsistent.cancelled
    · cases hcancelled.symm.trans hconsistent.1.cancelled
    · cases hcancelled.symm.trans hconsistent.1.cancelled
    · cases hcancelled.symm.trans hconsistent.1.cancelled
    · cases hdispatched.symm.trans hconsistent.undispatched
    · cases hcancelled.symm.trans hconsistent.1.cancelled
  answered f active answer hf hstate k i hk := by
    obtain ⟨t, ht⟩ := mem_iff_getElem?.mp hf
    have hinv := h.flushes ht
    have hsublist := hinv.active
    rw [hstate] at hsublist
    have hactive : i ∈ active := mem_of_getElem? hk
    have hnodup : active.Nodup := (hinv.sorted.sublist hsublist).imp fun hlt => hlt.ne
    obtain ⟨_, hmembers⟩ := hinv.members
    obtain ⟨c, hc, -, hholds⟩ := hmembers i (hsublist.subset hactive)
    refine ⟨c, hc, ?_⟩
    rw [hstate] at hholds
    cases hholds with
    | withdrawn _ hnot => exact absurd hactive hnot
    | settled _ result hlookup hfuture _ =>
      rw [lookup_settlements hnodup answer hk] at hlookup
      cases hlookup
      exact hfuture
  received i c result hc hphase := by
    have hconsistent := h.consistent hc
    unfold DispatchCall.Consistent at hconsistent
    rw [hphase] at hconsistent
    cases result with
    | returned outcome | raised exc =>
      exact h.receivedFrom hc hconsistent.1.cancelled hconsistent.2
    | settled result =>
      exact ⟨hconsistent.2.1, h.receivedFrom hc hconsistent.1.cancelled hconsistent.2.2⟩
    | cancelled =>
      intro f hf hi
      cases (h.dispatched_of_handed hf hc hi).symm.trans hconsistent.undispatched

end Holds

/-- In every run: buckets and live timers belong together, requests are handed over once and
together, callers that have left are not handed over, and a call ends with the result of its
position or the error of its batch.  A caller that is never cancelled receives it as it is, but for
the `CancelledError` of a batch; a caller that is cancelled after its dispatch receives it as a
settled result, and what happens to its task then changes no other call. -/
theorem microbatch_mixes_nothing (D : BoundedMicrobatchDispatcher) (events : List DispatcherEvent) :
    DispatcherHolds D (D.after events) ∧
      (∀ i, .cancel i ∉ events → ∀ c, (D.after events).calls[i]? = some c → c.Undisturbed) ∧
      (∀ i c, (D.after events).calls[i]? = some c → c.queued.providerDispatchStarted = true →
        (∀ result, c.phase ≠ .ended result) → ∀ later c',
          (D.run (D.after events) (.cancel i :: later)).calls[i]? = some c' → c'.WillSettle) ∧
      ∀ i c, (D.after events).calls[i]? = some c → c.queued.providerDispatchStarted = true →
        ∀ later later', (later.filter fun e => !e.isAbout i) =
            (later'.filter fun e => !e.isAbout i) →
          (D.run (D.after events) later).forget i = (D.run (D.after events) later').forget i := by
  have hinv : DispatcherInv D (D.after events) := run_inv events (initial_inv D)
  refine ⟨hinv.holds, fun i hcancel => ?_, fun i c hc hdispatched hphase later => ?_,
    fun i c hc hdispatched later later' hothers => ?_⟩
  · refine run_undisturbed events (fun e he => ?_) (initial_inv D) fun c hc => (by cases hc)
    rintro rfl
    exact hcancel he
  · -- the request is noted, and settles from then on
    have hstep := next_calls (D := D) (D.after events) (.cancel i)
    have hlt : i < (D.after events).calls.length := (List.getElem?_eq_some_iff.mp hc).1
    refine run_willSettle later (fun c₁ hc₁ => ?_) (hlt.trans_le hstep.length)
    have hcall : ((D.after events).cancel i).calls[i]? = _ := calls_updateCalls i
    have hc₁' : ((D.after events).cancel i).calls[i]? = some c₁ := hc₁
    rw [hcall, hc, Option.map_some, if_pos rfl] at hc₁'
    dsimp only at hc₁'
    cases hstate : c.phase with
    | ended result => exact absurd hstate (hphase result)
    | shielded =>
      rw [hstate] at hc₁'
      cases hc₁'
      exact ⟨hdispatched, Or.inr (Or.inl ⟨rfl, rfl⟩)⟩
    | settling =>
      rw [hstate] at hc₁'
      cases hc₁'
      exact ⟨hdispatched, Or.inl rfl⟩
  · rw [run_forget later ⟨c, hc, hdispatched⟩, run_forget later' ⟨c, hc, hdispatched⟩, hothers]

namespace SampleDispatcher

def schemaRef : JsonSchemaRef := ⟨"schema", "1", "schema artifact", "schema digest"⟩

/-- A request that runs out after half a second. -/
def request : VisionInferenceRequest where
  logicalInvocationId := "invocation"
  requestId := "request"
  idempotencyKey := "key"
  provider := "qwen"
  modelName := "model"
  modelVersion := "1"
  packageSetId := none
  packageInputs := [⟨"package", "content", "manifest", "primary", 0⟩]
  packageInputSetSha256 := "packages"
  task := .qaCoarse
  promptVersion := "1"
  promptArtifactId := "prompt"
  promptSha256 := "prompt digest"
  renderedInputDigest := "rendered"
  inputPlanId := none
  inputPlanSemanticSha256 := none
  inputPlanPartOrdinal := none
  inputPlanPartCount := none
  inputPlanPartSemanticSha256 := none
  inputPlan := none
  outputSchema := schemaRef
  capabilitySnapshotId := "snapshot"
  capabilitySnapshotDigest := "snapshot digest"
  modelPolicyVersion := "1"
  generationConfig := []
  providerIdempotencyKey := "provider key"
  timeoutMs := 500
  metadata := []

def outcome : AdapterOutcome := .success
  { providerRequestId := "provider request"
    provider := "qwen"
    modelName := "model"
    modelVersion := "1"
    normalizedOutput := ⟨.qaCoarse, schemaRef, "packages", none, none, none, []⟩
    rawOutputArtifactId := "raw"
    reportedConfidence := none
    usage := ⟨1, 1, none, none, none, none⟩
    latencyMs := 1 }

def dispatcher : BoundedMicrobatchDispatcher := ⟨4, by decide⟩

/-- Two callers, the second one nearly a second later; the timer is over after one second. -/
def twoCallers (cancels : List DispatcherEvent) : List DispatcherEvent :=
  [.dispatch 0 request 0, .dispatch 0 request (9 / 10)] ++ cancels ++
    [.timer 0, .flush 0 1, .answer 0 (.ok [outcome]), .resume 1]

/-- The caller is cancelled when its batch is about to be dispatched. -/
def lateCancellation : List DispatcherEvent :=
  [.dispatch 0 request 0, .timer 0, .cancel 0, .flush 0 0]

end SampleDispatcher

open SampleDispatcher in
/-- Without a cancellation the batch of the two callers has run out with the first of them; when
the first one is cancelled in time, the second one receives its outcome.  A cancellation that has
not reached its call when the flush task starts does not keep the request back. -/
theorem cancelled_caller_changes_batch :
    ((dispatcher.after (twoCallers [])).calls[1]?.map (·.phase)) =
        some (.ended (.raised batchExpired)) ∧
      ((dispatcher.after (twoCallers [.cancel 0, .resume 0])).calls[1]?.map (·.phase)) =
        some (.ended (.returned outcome)) ∧
      ((dispatcher.after lateCancellation).flushTasks.map FlushTask.handed) = [[0]] := by
  refine ⟨?_, ?_, ?_⟩ <;> decide +kernel

end Robata.Orchestration
