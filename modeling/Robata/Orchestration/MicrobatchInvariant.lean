import Robata.Orchestration.MicrobatchDispatcher

/-!
# What a microbatch dispatcher keeps

Every call is in one bucket of the queue or of one flush task.  A bucket has its timer until it is
flushed; a flush task hands over those of its calls that are still wanted, in the order of arrival,
and settles their futures with the outcomes of their positions.
-/

namespace Robata.Orchestration

open Contracts Lib List
open BoundedMicrobatchDispatcher (newCall)
open Dict (get?_erase get?_set)
open DispatcherWorld (activeOf popTimer removeQueuedMember timerElapsed updateCalls)
open Option (filter_some getD_some map_eq_some_iff map_some)

/-! ## One call -/

/-- The request is still in front of its dispatch. -/
structure QueuedBatchRequest.Pending (q : QueuedBatchRequest) : Prop where
  future : q.future = .pending
  wanted : q.cancelled = false
  undispatched : q.providerDispatchStarted = false

/-- The caller has left before its request was dispatched. -/
structure QueuedBatchRequest.Withdrawn (q : QueuedBatchRequest) : Prop where
  cancelled : q.cancelled = true
  undispatched : q.providerDispatchStarted = false
  future : q.future ≠ .pending

/-- A call whose caller has not left. -/
structure QueuedBatchRequest.Wanted (q : QueuedBatchRequest) : Prop where
  cancelled : q.cancelled = false
  future : q.future ≠ .cancelled

/-- What the phase of a call says of its request. -/
def DispatchCall.Consistent (c : DispatchCall) : Prop :=
  match c.phase with
  | .shielded => c.queued.Wanted
  | .settling => c.queued.Wanted ∧ c.queued.providerDispatchStarted = true
  | .ended (.returned outcome) => c.queued.Wanted ∧ c.queued.future = .done (.ok outcome)
  | .ended (.raised exc) => c.queued.Wanted ∧ c.queued.future = .done (.error exc)
  | .ended .cancelled => c.queued.Withdrawn
  | .ended (.settled result) => c.queued.Wanted ∧ c.queued.providerDispatchStarted = true ∧
      c.queued.future = .done result

/-- How the result of a call comes from its future. -/
inductive DispatchCall.EndsAs (c : DispatchCall) : DispatchResult → Prop
  | returned (outcome : AdapterOutcome) (hphase : c.phase = .shielded)
      (hrequest : c.cancelRequested = false) (hfuture : c.queued.future = .done (.ok outcome)) :
      c.EndsAs (.returned outcome)
  | raised (exc : Raised) (hphase : c.phase = .shielded) (hrequest : c.cancelRequested = false)
      (hfuture : c.queued.future = .done (.error exc)) : c.EndsAs (.raised exc)
  | settled (result : Except Raised AdapterOutcome) (hfuture : c.queued.future = .done result)
      (h : c.phase = .settling ∨ (c.phase = .shielded ∧ c.queued.providerDispatchStarted = true ∧
        (c.cancelRequested = true ∨ ∃ exc, result = .error exc ∧ exc.kind = .cancelled))) :
      c.EndsAs (.settled result)

/-- The changes of a call.  `requested` says that its caller is cancelled by the event. -/
inductive CallStep (requested : Prop) (c : DispatchCall) : DispatchCall → Prop
  | same : CallStep requested c c
  | request (h : requested) (hphase : ∀ result, c.phase ≠ .ended result) :
      CallStep requested c { c with cancelRequested := true }
  | start (h : c.queued.isActive = true) :
      CallStep requested c { c with queued.providerDispatchStarted := true }
  | settle (result : Except Raised AdapterOutcome) :
      CallStep requested c { c with queued.future := c.queued.future.settle result }
  | ends (result : DispatchResult) (h : c.resumption = .ends result) :
      CallStep requested c { c with cancelRequested := false, phase := .ended result }
  | settles (h : c.resumption = .settles) :
      CallStep requested c { c with cancelRequested := false, phase := .settling }
  | leaves (h : c.resumption = .leaves) :
      CallStep requested c { c with
        queued.cancelled := true
        queued.future := c.queued.future.cancel
        cancelRequested := false
        phase := .ended .cancelled }

section Calls

variable {c c' : DispatchCall} {requested : Prop}

theorem QueuedBatchRequest.isActive_iff {q : QueuedBatchRequest} : q.isActive = true ↔ q.Wanted := by
  unfold isActive
  constructor
  · intro h
    simp only [Bool.and_eq_true, Bool.not_eq_eq_eq_not, Bool.not_true, beq_eq_false_iff_ne] at h
    exact ⟨h.1, h.2⟩
  · rintro ⟨hcancelled, hfuture⟩
    simp [hcancelled, hfuture]

variable {future : FutureState}

theorem settledResumption_eq_ends {result : DispatchResult}
    (h : settledResumption future = .ends result) :
    ∃ settled, result = .settled settled ∧ future = .done settled := by
  unfold settledResumption at h
  split at h
  · cases h
    exact ⟨_, rfl, rfl⟩
  · cases h

theorem DispatchCall.resumption_ends {result : DispatchResult} (h : c.resumption = .ends result) :
    c.EndsAs result := by
  unfold resumption at h
  split at h
  · cases h
  · rename_i hphase
    obtain ⟨settled, rfl, hfuture⟩ := settledResumption_eq_ends h
    exact .settled settled hfuture (Or.inl hphase)
  rename_i hphase
  by_cases hinterrupted : (c.cancelRequested || c.queued.future.isCancellation) = true
  · rw [if_pos hinterrupted] at h
    by_cases hstarted : c.queued.providerDispatchStarted = true
    · rw [if_pos hstarted] at h
      obtain ⟨settled, rfl, hfuture⟩ := settledResumption_eq_ends h
      refine .settled settled hfuture (Or.inr ⟨hphase, hstarted, ?_⟩)
      rw [Bool.or_eq_true, hfuture] at hinterrupted
      refine hinterrupted.imp id fun hkind => ?_
      cases settled with
      | ok outcome => cases hkind
      | error exc => exact ⟨exc, rfl, beq_iff_eq.mp hkind⟩
    · rw [if_neg hstarted] at h
      cases h
  · rw [if_neg hinterrupted] at h
    rw [Bool.or_eq_true, not_or, Bool.not_eq_true] at hinterrupted
    split at h
    · rename_i hfuture
      cases h
      exact .returned _ hphase hinterrupted.1 hfuture
    · rename_i hfuture
      cases h
      exact .raised _ hphase hinterrupted.1 hfuture
    · cases h

theorem settledResumption_ne_leaves (future : FutureState) : settledResumption future ≠ .leaves := by
  unfold settledResumption
  split <;> exact fun h => (by cases h)

theorem DispatchCall.resumption_goes_on (h : c.resumption = .settles ∨ c.resumption = .leaves) :
    (c.resumption = .settles ∧ c.phase = .settling) ∨ (c.phase = .shielded ∧
      (c.resumption = .settles ↔ c.queued.providerDispatchStarted = true)) := by
  have hleaves := settledResumption_ne_leaves c.queued.future
  unfold resumption at h ⊢
  split at h
  · rcases h with h | h <;> cases h
  · rename_i hphase
    rw [hphase]
    exact Or.inl ⟨h.resolve_right hleaves, rfl⟩
  rename_i hphase
  rw [hphase]
  by_cases hinterrupted : (c.cancelRequested || c.queued.future.isCancellation) = true
  · simp only [if_pos hinterrupted] at h ⊢
    by_cases hstarted : c.queued.providerDispatchStarted = true
    · simp only [if_pos hstarted] at h ⊢
      exact Or.inr ⟨trivial, iff_of_true (h.resolve_right hleaves) hstarted⟩
    · simp only [if_neg hstarted] at h ⊢
      exact Or.inr ⟨trivial, iff_of_false (fun h => (by cases h)) hstarted⟩
  · simp only [if_neg hinterrupted] at h
    split at h <;> rcases h with h | h <;> cases h

theorem DispatchCall.resumption_settles (h : c.resumption = .settles) :
    c.phase = .settling ∨ (c.phase = .shielded ∧ c.queued.providerDispatchStarted = true) :=
  (resumption_goes_on (Or.inl h)).imp And.right fun hgoes => ⟨hgoes.1, hgoes.2.mp h⟩

theorem DispatchCall.resumption_leaves (h : c.resumption = .leaves) :
    c.phase = .shielded ∧ c.queued.providerDispatchStarted = false := by
  rcases resumption_goes_on (Or.inr h) with ⟨hsettles, -⟩ | ⟨hphase, hstarted⟩
  · cases hsettles.symm.trans h
  · refine ⟨hphase, Bool.not_eq_true _ ▸ fun hdispatched => ?_⟩
    cases (hstarted.mpr hdispatched).symm.trans h

theorem FutureState.settle_ne_cancelled (h : future ≠ .cancelled)
    (result : Except Raised AdapterOutcome) : future.settle result ≠ .cancelled := by
  cases future <;> simp_all [FutureState.settle]

theorem FutureState.settle_of_done {settled : Except Raised AdapterOutcome}
    (h : future = .done settled) (result : Except Raised AdapterOutcome) :
    future.settle result = .done settled := by
  rw [h]
  rfl

theorem FutureState.settle_ne_pending (future : FutureState)
    (result : Except Raised AdapterOutcome) : future.settle result ≠ .pending := by
  cases future <;> simp [FutureState.settle]

theorem FutureState.cancel_ne_pending (future : FutureState) : future.cancel ≠ .pending := by
  cases future <;> simp [FutureState.cancel]

theorem DispatchCall.Consistent.step (h : c.Consistent) (hstep : CallStep requested c c') :
    c'.Consistent := by
  cases hstep with
  | same => exact h
  | request _ hphase =>
    unfold Consistent at h ⊢
    cases hstate : c.phase with
    | shielded | settling => rw [hstate] at h; exact h
    | ended result => exact absurd hstate (hphase result)
  | start hactive =>
    have hwanted := QueuedBatchRequest.isActive_iff.mp hactive
    unfold Consistent at h ⊢
    cases hstate : c.phase with
    | shielded => exact ⟨hwanted.cancelled, hwanted.future⟩
    | settling => exact ⟨⟨hwanted.cancelled, hwanted.future⟩, rfl⟩
    | ended result =>
      rw [hstate] at h
      cases result with
      | returned outcome | raised exc => exact ⟨⟨hwanted.cancelled, hwanted.future⟩, h.2⟩
      | cancelled => cases hwanted.cancelled.symm.trans h.cancelled
      | settled result => exact ⟨⟨hwanted.cancelled, hwanted.future⟩, rfl, h.2.2⟩
  | settle result =>
    have hwanted : c.queued.Wanted → QueuedBatchRequest.Wanted
        { c.queued with future := c.queued.future.settle result } := fun hw =>
      ⟨hw.cancelled, FutureState.settle_ne_cancelled hw.future result⟩
    unfold Consistent at h ⊢
    cases hstate : c.phase with
    | shielded => rw [hstate] at h; exact hwanted h
    | settling => rw [hstate] at h; exact ⟨hwanted h.1, h.2⟩
    | ended ended =>
      rw [hstate] at h
      cases ended with
      | returned outcome | raised exc => exact ⟨hwanted h.1, FutureState.settle_of_done h.2 result⟩
      | cancelled => exact ⟨h.cancelled, h.undispatched, FutureState.settle_ne_pending _ _⟩
      | settled settled => exact ⟨hwanted h.1, h.2.1, FutureState.settle_of_done h.2.2 result⟩
  | ends result hresumption =>
    unfold Consistent at h ⊢
    cases resumption_ends hresumption with
    | returned outcome hphase _ hfuture | raised exc hphase _ hfuture =>
      rw [hphase] at h
      exact ⟨⟨h.cancelled, h.future⟩, hfuture⟩
    | settled settled hfuture hends =>
      rcases hends with hphase | ⟨hphase, hstarted, -⟩
      · rw [hphase] at h
        exact ⟨⟨h.1.cancelled, h.1.future⟩, h.2, hfuture⟩
      · rw [hphase] at h
        exact ⟨⟨h.cancelled, h.future⟩, hstarted, hfuture⟩
  | settles hresumption =>
    unfold Consistent at h
    rcases resumption_settles hresumption with hphase | ⟨hphase, hstarted⟩
    · rw [hphase] at h
      exact ⟨⟨h.1.cancelled, h.1.future⟩, h.2⟩
    · rw [hphase] at h
      exact ⟨⟨h.cancelled, h.future⟩, hstarted⟩
  | leaves hresumption =>
    exact ⟨rfl, (resumption_leaves hresumption).2, FutureState.cancel_ne_pending _⟩

theorem CallStep.imp {requested' : Prop} (himp : requested → requested')
    (h : CallStep requested c c') : CallStep requested' c c' := by
  cases h with
  | same => exact .same
  | request h hphase => exact .request (himp h) hphase
  | start h => exact .start h
  | settle result => exact .settle result
  | ends result h => exact .ends result h
  | settles h => exact .settles h
  | leaves h => exact .leaves h

theorem CallStep.key_eq (h : CallStep requested c c') : c'.key = c.key := by
  cases h <;> rfl

theorem CallStep.request_eq (h : CallStep requested c c') :
    c'.queued.request = c.queued.request := by
  cases h <;> rfl

end Calls

/-! ## Buckets -/

/-- The calls that were active when the task started. -/
def FlushState.active : FlushState → List Nat
  | .scheduled | .empty => []
  | .expired active | .inFlight active | .settled active _ => active

/-- What a flush task says of a call of its bucket. -/
inductive FlushState.CallHolds (i : Nat) (q : QueuedBatchRequest) : FlushState → Prop
  | pending (h : q.Pending) : CallHolds i q .scheduled
  | withdrawn {state : FlushState} (h : q.Withdrawn) (hactive : i ∉ state.active) :
      CallHolds i q state
  | expired {active : List Nat} (hactive : i ∈ active)
      (hfuture : q.future = .done (.error batchExpired))
      (hundispatched : q.providerDispatchStarted = false) : CallHolds i q (.expired active)
  | inFlight {active : List Nat} (hactive : i ∈ active) (hfuture : q.future = .pending)
      (hwanted : q.cancelled = false) (hdispatched : q.providerDispatchStarted = true) :
      CallHolds i q (.inFlight active)
  | settled {active : List Nat} {answer : Except Raised (List AdapterOutcome)}
      (hactive : i ∈ active) (result : Except Raised AdapterOutcome)
      (hlookup : (settlements active answer).lookup i = some result)
      (hfuture : q.future = .done result) (hdispatched : q.providerDispatchStarted = true) :
      CallHolds i q (.settled active answer)

/-- The bucket of a flush task. -/
structure FlushInv (D : BoundedMicrobatchDispatcher) (calls : List DispatchCall) (f : FlushTask) :
    Prop where
  sorted : f.bucket.Pairwise (· < ·)
  size : f.bucket.length ≤ D.maxBatchSize
  active : f.state.active.Sublist f.bucket
  members : ∃ compatible, ∀ i ∈ f.bucket, ∃ c, calls[i]? = some c ∧
    c.key = (f.adapter, compatible) ∧ f.state.CallHolds i c.queued

structure BucketInv (D : BoundedMicrobatchDispatcher) (calls : List DispatchCall) (key : QueueKey)
    (bucket : List Nat) : Prop where
  sorted : bucket.Pairwise (· < ·)
  size : bucket.length ≤ D.maxBatchSize
  nonempty : bucket ≠ []
  members : ∀ i ∈ bucket, ∃ c, calls[i]? = some c ∧ c.key = key ∧ c.queued.Pending

/-- A call stands in the bucket of its key, or in the one of a flush task, or has left. -/
def DispatcherWorld.Placed (w : DispatcherWorld) (i : Nat) (c : DispatchCall) : Prop :=
  c.queued.Withdrawn ∨ (∃ bucket, w.queues.get? c.key = some bucket ∧ i ∈ bucket) ∨
    ∃ (t : Nat) (f : FlushTask), w.flushTasks[t]? = some f ∧ i ∈ f.bucket

structure CallsInv (D : BoundedMicrobatchDispatcher) (w : DispatcherWorld) : Prop where
  consistent : ∀ {i : Nat} {c : DispatchCall}, w.calls[i]? = some c → c.Consistent
  keyed : ∀ {i : Nat} {c : DispatchCall}, w.calls[i]? = some c →
    batchCompatibilityKey c.queued.request = some c.key.2
  buckets : ∀ {key bucket}, w.queues.get? key = some bucket → BucketInv D w.calls key bucket
  flushes : ∀ {t : Nat} {f : FlushTask}, w.flushTasks[t]? = some f → FlushInv D w.calls f
  apart : ∀ {key bucket} {t i : Nat} {f : FlushTask}, w.queues.get? key = some bucket →
    w.flushTasks[t]? = some f → i ∈ bucket → i ∉ f.bucket
  disjoint : ∀ {t t' i : Nat} {f f' : FlushTask}, w.flushTasks[t]? = some f →
    w.flushTasks[t']? = some f' → i ∈ f.bucket → i ∈ f'.bucket → t = t'
  placed : ∀ {i : Nat} {c : DispatchCall}, w.calls[i]? = some c → w.Placed i c

/-- A timer task that will flush the bucket of a key. -/
def DispatcherWorld.Live (w : DispatcherWorld) (key : QueueKey) (task : Nat) : Prop :=
  w.timerTasks[task]? = some ⟨key, .sleeping⟩

/-- The timers are those of the buckets. -/
structure TimersInv (w : DispatcherWorld) : Prop where
  live : ∀ {key : QueueKey} {task : Nat}, w.timers.get? key = some task ↔ w.Live key task
  timed : ∀ key, (w.timers.get? key).isSome = (w.queues.get? key).isSome

structure DispatcherInv (D : BoundedMicrobatchDispatcher) (w : DispatcherWorld) : Prop
    extends CallsInv D w, TimersInv w where
  unfilled : ∀ {key bucket}, w.queues.get? key = some bucket → bucket.length < D.maxBatchSize

/-! ## Writing to calls -/

section Updates

variable {D : BoundedMicrobatchDispatcher} {w : DispatcherWorld}
  {g : Nat → DispatchCall → DispatchCall}

@[simp] theorem calls_updateCalls (i : Nat) :
    (w.updateCalls g).calls[i]? = (w.calls[i]?).map (g i) := by
  simp [updateCalls]

theorem mem_updateCalls {i : Nat} {c' : DispatchCall} (h : (w.updateCalls g).calls[i]? = some c') :
    ∃ c, w.calls[i]? = some c ∧ c' = g i c := by
  rw [calls_updateCalls] at h
  obtain ⟨c, hc, rfl⟩ := map_eq_some_iff.mp h
  exact ⟨c, hc, rfl⟩

@[simp] theorem updateCalls_id : w.updateCalls (fun _ c => c) = w := by
  have hid : mapIdx (fun _ c => c) w.calls = w.calls := by
    apply ext_getElem?
    simp
  unfold updateCalls
  rw [hid]

variable {state : FlushState}

theorem flushTasks_setFlush {t : Nat} {t' : Nat} {f' : FlushTask}
    (h : (w.setFlush t state).flushTasks[t']? = some f') :
    ∃ f, w.flushTasks[t']? = some f ∧ f' = if t = t' then { f with state } else f := by
  simp only [DispatcherWorld.setFlush, getElem?_modify, Option.map_eq_map,
    map_eq_some_iff] at h
  obtain ⟨f, hf, rfl⟩ := h
  refine ⟨f, hf, ?_⟩
  split <;> rfl

theorem getElem?_setFlush (w : DispatcherWorld) (t : Nat) (state : FlushState) {t' : Nat}
    {f' : FlushTask} (h : w.flushTasks[t']? = some f') :
    (w.setFlush t state).flushTasks[t']? = some (if t = t' then { f' with state } else f') := by
  simp only [DispatcherWorld.setFlush, getElem?_modify, h]
  by_cases ht : t = t'
  · simp [ht]
  · simp [ht]

theorem BucketInv.congr {calls calls' : List DispatchCall} {key : QueueKey} {bucket : List Nat}
    (h : BucketInv D calls key bucket)
    (hcalls : ∀ i ∈ bucket, ∀ c, calls[i]? = some c → ∃ c', calls'[i]? = some c' ∧
      c'.key = c.key ∧ c'.queued = c.queued) : BucketInv D calls' key bucket := by
  refine ⟨h.sorted, h.size, h.nonempty, fun i hi => ?_⟩
  obtain ⟨c, hc, hkey, hpending⟩ := h.members i hi
  obtain ⟨c', hc', hkey', hqueued⟩ := hcalls i hi c hc
  exact ⟨c', hc', hkey'.trans hkey, hqueued ▸ hpending⟩

theorem FlushInv.congr {calls calls' : List DispatchCall} {f : FlushTask} (h : FlushInv D calls f)
    (hactive : state.active.Sublist f.bucket)
    (hcalls : ∀ i ∈ f.bucket, ∀ c, calls[i]? = some c → f.state.CallHolds i c.queued →
      ∃ c', calls'[i]? = some c' ∧ c'.key = c.key ∧ state.CallHolds i c'.queued) :
    FlushInv D calls' { f with state } := by
  obtain ⟨compatible, hmembers⟩ := h.members
  refine ⟨h.sorted, h.size, hactive, compatible, fun i hi => ?_⟩
  obtain ⟨c, hc, hkey, hholds⟩ := hmembers i hi
  obtain ⟨c', hc', hkey', hholds'⟩ := hcalls i hi c hc hholds
  exact ⟨c', hc', hkey'.trans hkey, hholds'⟩

theorem CallsInv.flush (h : CallsInv D w) (requested : Prop) {t : Nat} {f : FlushTask}
    (hf : w.flushTasks[t]? = some f) (hactive : state.active.Sublist f.bucket)
    (hother : ∀ i, i ∉ f.bucket → ∀ c, g i c = c)
    (hstep : ∀ i c, w.calls[i]? = some c → CallStep requested c (g i c))
    (hholds : ∀ i ∈ f.bucket, ∀ c, w.calls[i]? = some c → f.state.CallHolds i c.queued →
      state.CallHolds i (g i c).queued) :
    CallsInv D ((w.updateCalls g).setFlush t state) := by
  have hbucket : ∀ {t' : Nat} {f' : FlushTask},
      ((w.updateCalls g).setFlush t state).flushTasks[t']? = some f' →
      ∃ f₀ : FlushTask, w.flushTasks[t']? = some f₀ ∧ f'.bucket = f₀.bucket := by
    intro t' f' hf'
    obtain ⟨f₀, hf₀, rfl⟩ := flushTasks_setFlush hf'
    refine ⟨f₀, hf₀, ?_⟩
    split <;> rfl
  refine ⟨fun hc' => ?_, fun hc' => ?_, fun {key bucket} hkey => ?_, fun {t' f'} hf' => ?_,
    fun hkey hf' hi => ?_, fun hf₁ hf₂ hi₁ hi₂ => ?_, fun {i c'} hc' => ?_⟩
  · obtain ⟨c, hc, rfl⟩ := mem_updateCalls hc'
    exact (h.consistent hc).step (hstep _ _ hc)
  · obtain ⟨c, hc, rfl⟩ := mem_updateCalls hc'
    rw [(hstep _ _ hc).request_eq, (hstep _ _ hc).key_eq]
    exact h.keyed hc
  · refine (h.buckets hkey).congr fun i hi c hc => ⟨g i c, ?_, ?_⟩
    · exact (calls_updateCalls i).trans (by rw [hc]; rfl)
    · rw [hother i (h.apart hkey hf hi) c]
      exact ⟨rfl, rfl⟩
  · obtain ⟨f₀, hf₀, rfl⟩ := flushTasks_setFlush hf'
    by_cases ht : t = t'
    · subst ht
      cases hf.symm.trans hf₀
      rw [if_pos rfl]
      refine (h.flushes hf).congr hactive fun i hi c hc hholds' => ⟨g i c, ?_, ?_⟩
      · exact (calls_updateCalls i).trans (by rw [hc]; rfl)
      · exact ⟨(hstep i c hc).key_eq, hholds i hi c hc hholds'⟩
    · rw [if_neg ht]
      refine (h.flushes hf₀).congr (h.flushes hf₀).active fun i hi c hc hholds' => ⟨g i c, ?_, ?_⟩
      · exact (calls_updateCalls i).trans (by rw [hc]; rfl)
      · rw [hother i (fun hi' => ht (h.disjoint hf hf₀ hi' hi)) c]
        exact ⟨rfl, hholds'⟩
  · obtain ⟨f₀, hf₀, hbucket⟩ := hbucket hf'
    rw [hbucket]
    exact h.apart hkey hf₀ hi
  · obtain ⟨f₀, hf₀, hbucket₀⟩ := hbucket hf₁
    obtain ⟨f₀', hf₀', hbucket₀'⟩ := hbucket hf₂
    exact h.disjoint hf₀ hf₀' (hbucket₀ ▸ hi₁) (hbucket₀' ▸ hi₂)
  · obtain ⟨c, hc, rfl⟩ := mem_updateCalls hc'
    -- the calls of the task are placed there, and the others are as they were
    have hkept : ∀ {t' : Nat} {f' : FlushTask}, w.flushTasks[t']? = some f' → i ∈ f'.bucket →
        ((w.updateCalls g).setFlush t state).Placed i (g i c) := by
      intro t' f' hf' hi
      refine Or.inr (Or.inr ⟨t', _, getElem?_setFlush (w.updateCalls g) t state hf', ?_⟩)
      split <;> exact hi
    rcases h.placed hc with hwithdrawn | ⟨bucket, hqueue, hi⟩ | ⟨t', f', hf', hi⟩
    · by_cases hi : i ∈ f.bucket
      · exact hkept hf hi
      · rw [hother i hi c]
        exact Or.inl hwithdrawn
    · refine Or.inr (Or.inl ⟨bucket, ?_, hi⟩)
      rw [(hstep i c hc).key_eq]
      exact hqueue
    · exact hkept hf' hi

end Updates

/-! ## Flush tasks -/

section Flushes

variable {D : BoundedMicrobatchDispatcher} {w : DispatcherWorld}

theorem lookup_map_const {β : Type} (active : List Nat) (result : β) (i : Nat) :
    (active.map fun j => (j, result)).lookup i = if i ∈ active then some result else none := by
  induction active with
  | nil => rfl
  | cons j active ih =>
    rw [map_cons, lookup_cons, ih]
    by_cases h : i = j
    · simp [h]
    · rw [beq_false_of_ne h]
      simp [h]

theorem lookup_zip {β : Type} : ∀ {active : List Nat} {outcomes : List β}, active.Nodup →
    ∀ {k i : Nat} {outcome : β}, active[k]? = some i → outcomes[k]? = some outcome →
      (active.zip outcomes).lookup i = some outcome := by
  intro active
  induction active with
  | nil => intro _ _ k i _ hi; simp at hi
  | cons j active ih =>
    intro outcomes hnodup k i outcome hi houtcome
    cases outcomes with
    | nil => simp at houtcome
    | cons first outcomes =>
      rw [nodup_cons] at hnodup
      rw [zip_cons_cons, lookup_cons]
      cases k with
      | zero =>
        cases hi
        cases houtcome
        simp
      | succ k =>
        have hne : i ≠ j := by
          rintro rfl
          exact hnodup.1 (mem_of_getElem? hi)
        rw [beq_false_of_ne hne]
        exact ih hnodup.2 hi houtcome

theorem checkOutcomes_eq_ok {size : Nat} {answer : Except Raised (List AdapterOutcome)}
    {outcomes : List AdapterOutcome} (h : checkOutcomes size answer = .ok outcomes) :
    answer = .ok outcomes ∧ outcomes.length = size := by
  obtain ⟨given, hgiven, h⟩ := bind_eq_ok.mp h
  split at h
  · cases h
  · rename_i hchecked
    cases h
    rw [not_or, not_not] at hchecked
    exact ⟨hgiven, hchecked.1⟩

/-- The result of the position of a call. -/
def resultAt (size k : Nat) (answer : Except Raised (List AdapterOutcome)) :
    Except Raised AdapterOutcome := do
  let outcomes ← checkOutcomes size answer
  match outcomes[k]? with
  | some outcome => .ok outcome
  | none => .error batchDispatchError

variable {i : Nat} {active : List Nat}

theorem lookup_settlements (hnodup : active.Nodup) (answer : Except Raised (List AdapterOutcome))
    {k : Nat} (h : active[k]? = some i) :
    (settlements active answer).lookup i = some (resultAt active.length k answer) := by
  unfold settlements resultAt
  cases hcheck : checkOutcomes active.length answer with
  | error exc =>
    show (active.map fun i => (i, Except.error exc)).lookup i = some (.error exc)
    rw [lookup_map_const, if_pos (mem_of_getElem? h)]
  | ok outcomes =>
    have hlength := (checkOutcomes_eq_ok hcheck).2
    have hlt : k < outcomes.length := by
      rw [hlength]
      exact (List.getElem?_eq_some_iff.mp h).1
    have houtcome : outcomes[k]? = some outcomes[k] := getElem?_eq_getElem hlt
    have hzip : (active.zip outcomes).map (fun entry => (entry.1, Except.ok (ε := Raised) entry.2))
        = active.zip (outcomes.map Except.ok) := by
      rw [zip_map_right]
      rfl
    show ((active.zip outcomes).map fun entry => (entry.1, Except.ok entry.2)).lookup i = _
    have hlookup : (active.zip (outcomes.map Except.ok)).lookup i =
        some (Except.ok (ε := Raised) outcomes[k]) := by
      refine lookup_zip hnodup h ?_
      rw [getElem?_map, houtcome]
      rfl
    rw [hzip, hlookup]
    simp only [ok_bind, houtcome]

theorem lookup_settlements_none {answer : Except Raised (List AdapterOutcome)} (h : i ∉ active) :
    (settlements active answer).lookup i = none := by
  rw [lookup_eq_none_iff]
  intro entry hentry
  have hmem : entry.1 ∈ active := by
    unfold settlements at hentry
    split at hentry
    · obtain ⟨j, hj, rfl⟩ := mem_map.mp hentry
      exact hj
    · obtain ⟨⟨j, outcome⟩, hj, rfl⟩ := mem_map.mp hentry
      exact (of_mem_zip hj).1
  rw [bne_iff_ne]
  rintro rfl
  exact h hmem

theorem settleFutures_step {requested : Prop}
    (results : List (Nat × Except Raised AdapterOutcome)) (i : Nat) (c : DispatchCall) :
    CallStep requested c (match results.lookup i with
      | some result => { c with queued.future := c.queued.future.settle result }
      | none => c) := by
  split
  · exact .settle _
  · exact .same

variable {bucket : List Nat} {c : DispatchCall}

theorem mem_activeOf (hc : w.calls[i]? = some c) :
    i ∈ w.activeOf bucket ↔ i ∈ bucket ∧ c.queued.isActive = true := by
  unfold activeOf
  rw [mem_filter, hc]
  rfl

theorem active_of_scheduled (hc : w.calls[i]? = some c) (hi : i ∈ bucket)
    (h : FlushState.CallHolds i c.queued .scheduled) :
    (i ∈ w.activeOf bucket ∧ c.queued.Pending) ∨ (i ∉ w.activeOf bucket ∧ c.queued.Withdrawn) := by
  rw [mem_activeOf hc, QueuedBatchRequest.isActive_iff]
  cases h with
  | pending h =>
    refine Or.inl ⟨⟨hi, h.wanted, ?_⟩, h⟩
    rw [h.future]
    exact fun h => (by cases h)
  | withdrawn h _ =>
    refine Or.inr ⟨fun ⟨_, hwanted⟩ => ?_, h⟩
    cases hwanted.cancelled.symm.trans h.cancelled

theorem CallsInv.startBatch (h : CallsInv D w) {t adapter : Nat} (now : Rat)
    (hf : w.flushTasks[t]? = some ⟨adapter, bucket, .scheduled⟩) :
    CallsInv D (w.startBatch t bucket now) := by
  have hsublist : (w.activeOf bucket).Sublist bucket := filter_sublist
  unfold DispatcherWorld.startBatch
  dsimp only
  split
  · rename_i hempty
    rw [← updateCalls_id (w := w)]
    refine h.flush False hf (nil_sublist _) (fun _ _ _ => rfl)
      (fun _ _ _ => .same) fun i hi c hc hholds => ?_
    rcases active_of_scheduled hc hi hholds with ⟨hactive, -⟩ | ⟨-, hwithdrawn⟩
    · rw [hempty] at hactive
      cases hactive
    · exact .withdrawn hwithdrawn not_mem_nil
  split
  · refine h.flush False hf hsublist (fun i hi c => ?_)
      (fun i c _ => settleFutures_step _ i c) fun i hi c hc hholds => ?_
    · rw [lookup_map_const, if_neg fun hactive => hi (hsublist.subset hactive)]
    · rw [lookup_map_const]
      rcases active_of_scheduled hc hi hholds with ⟨hactive, hpending⟩ | ⟨hactive, hwithdrawn⟩
      · rw [if_pos hactive]
        refine .expired hactive ?_ hpending.undispatched
        rw [hpending.future]
        rfl
      · rw [if_neg hactive]
        exact .withdrawn hwithdrawn hactive
  · refine h.flush False hf hsublist (fun i hi c => ?_) (fun i c hc => ?_)
      fun i hi c hc hholds => ?_
    · rw [if_neg fun hactive => hi (hsublist.subset hactive)]
    · split
      · rename_i hactive
        exact .start ((mem_activeOf hc).mp hactive).2
      · exact .same
    · rcases active_of_scheduled hc hi hholds with ⟨hactive, hpending⟩ | ⟨hactive, hwithdrawn⟩
      · rw [if_pos hactive]
        exact .inFlight hactive hpending.future hpending.wanted rfl
      · rw [if_neg hactive]
        exact .withdrawn hwithdrawn hactive

theorem CallsInv.answered (h : CallsInv D w) {t adapter : Nat}
    (answer : Except Raised (List AdapterOutcome))
    (hf : w.flushTasks[t]? = some ⟨adapter, bucket, .inFlight active⟩) :
    CallsInv D ((w.settleFutures (settlements active answer)).setFlush t
      (.settled active answer)) := by
  have hsublist : active.Sublist bucket := (h.flushes hf).active
  have hnodup : active.Nodup := ((h.flushes hf).sorted.sublist hsublist).imp (fun hlt => hlt.ne)
  refine h.flush False hf hsublist (fun i hi c => ?_)
    (fun i c _ => settleFutures_step _ i c) fun i hi c hc hholds => ?_
  · rw [lookup_settlements_none fun hactive => hi (hsublist.subset hactive)]
  · cases hholds with
    | withdrawn hwithdrawn hactive =>
      have hactive : i ∉ active := hactive
      rw [lookup_settlements_none hactive]
      exact .withdrawn hwithdrawn hactive
    | inFlight hactive hfuture hwanted hdispatched =>
      obtain ⟨k, hk, rfl⟩ := getElem_of_mem hactive
      have hlookup := lookup_settlements hnodup answer (getElem?_eq_getElem hk)
      rw [hlookup]
      refine .settled hactive _ hlookup ?_ hdispatched
      rw [hfuture]
      rfl

/-! ## Callers -/

theorem CallsInv.keep (h : CallsInv D w) (requested : Prop) {g : Nat → DispatchCall → DispatchCall}
    (hstep : ∀ i c, w.calls[i]? = some c → CallStep requested c (g i c))
    (hqueued : ∀ i c, w.calls[i]? = some c → (g i c).queued = c.queued) :
    CallsInv D (w.updateCalls g) := by
  have hcall : ∀ i c, w.calls[i]? = some c → (w.updateCalls g).calls[i]? = some (g i c) := by
    intro i c hc
    rw [calls_updateCalls, hc]
    rfl
  refine ⟨fun hc' => ?_, fun hc' => ?_, fun {key bucket} hkey => ?_, fun {t f} hf => ?_,
    h.apart, h.disjoint, fun {i c'} hc' => ?_⟩
  · obtain ⟨c, hc, rfl⟩ := mem_updateCalls hc'
    exact (h.consistent hc).step (hstep _ _ hc)
  · obtain ⟨c, hc, rfl⟩ := mem_updateCalls hc'
    rw [(hstep _ _ hc).request_eq, (hstep _ _ hc).key_eq]
    exact h.keyed hc
  · exact (h.buckets hkey).congr fun i hi c hc =>
      ⟨g i c, hcall i c hc, (hstep i c hc).key_eq, hqueued i c hc⟩
  · exact (h.flushes hf).congr (h.flushes hf).active fun i hi c hc hholds =>
      ⟨g i c, hcall i c hc, (hstep i c hc).key_eq, (hqueued i c hc).symm ▸ hholds⟩
  · obtain ⟨c, hc, rfl⟩ := mem_updateCalls hc'
    rcases h.placed hc with hwithdrawn | ⟨bucket, hqueue, hi⟩ | hflush
    · exact Or.inl ((hqueued i c hc).symm ▸ hwithdrawn)
    · exact Or.inr (Or.inl ⟨bucket, by rw [(hstep i c hc).key_eq]; exact hqueue, hi⟩)
    · exact Or.inr (Or.inr hflush)

def DispatchCall.left (c : DispatchCall) : DispatchCall :=
  { c with
    queued.cancelled := true
    queued.future := c.queued.future.cancel
    cancelRequested := false
    phase := .ended .cancelled }

theorem DispatchCall.left_withdrawn
    (hundispatched : c.queued.providerDispatchStarted = false) : c.left.queued.Withdrawn :=
  ⟨rfl, hundispatched, FutureState.cancel_ne_pending _⟩

/-- A flush task does not mind that a call leaves whose request is not dispatched. -/
theorem FlushState.CallHolds.left {state : FlushState}
    (h : state.CallHolds i c.queued) (hundispatched : c.queued.providerDispatchStarted = false) :
    state.CallHolds i c.left.queued := by
  have hwithdrawn := DispatchCall.left_withdrawn hundispatched
  cases h with
  | pending _ => exact .withdrawn hwithdrawn not_mem_nil
  | withdrawn _ hactive => exact .withdrawn hwithdrawn hactive
  | expired hactive hfuture _ =>
    refine .expired hactive ?_ hundispatched
    show c.queued.future.cancel = _
    rw [hfuture]
    rfl
  | inFlight _ _ _ hdispatched | settled _ _ _ _ hdispatched =>
    cases hundispatched.symm.trans hdispatched

section Pops

variable (w) (key : QueueKey) (current : Option Nat)

@[simp] theorem calls_popTimer : (w.popTimer key current).calls = w.calls := by
  unfold popTimer
  split
  · rfl
  · split <;> rfl

@[simp] theorem queues_popTimer : (w.popTimer key current).queues = w.queues := by
  unfold popTimer
  split
  · rfl
  · split <;> rfl

@[simp] theorem flushTasks_popTimer : (w.popTimer key current).flushTasks = w.flushTasks := by
  unfold popTimer
  split
  · rfl
  · split <;> rfl

end Pops

@[simp] theorem calls_removeQueuedMember (w : DispatcherWorld) (key : QueueKey) (i : Nat) :
    (w.removeQueuedMember key i).calls = w.calls := by
  unfold removeQueuedMember
  split
  · rfl
  · split
    · rfl
    · split <;> simp

@[simp] theorem flushTasks_removeQueuedMember (w : DispatcherWorld) (key : QueueKey) (i : Nat) :
    (w.removeQueuedMember key i).flushTasks = w.flushTasks := by
  unfold removeQueuedMember
  split
  · rfl
  · split
    · rfl
    · split <;> simp

variable {key : QueueKey}

theorem get?_removeQueuedMember
    (hnonempty : ∀ bucket, w.queues.get? key = some bucket → bucket ≠ []) (key' : QueueKey) :
    (w.removeQueuedMember key i).queues.get? key' =
      if key' = key then ((w.queues.get? key).map (·.erase i)).filter (· ≠ [])
      else w.queues.get? key' := by
  unfold removeQueuedMember
  cases hbucket : w.queues.get? key with
  | none =>
    by_cases hkey : key' = key
    · subst hkey
      simp [hbucket]
    · simp [hkey]
  | some bucket =>
    dsimp only
    by_cases hkey : key' = key
    · subst hkey
      rw [map_some, filter_some]
      by_cases hi : i ∈ bucket
      · rw [if_neg (not_not_intro hi)]
        by_cases hrest : bucket.erase i = []
        · rw [if_neg (not_not_intro hrest), queues_popTimer, get?_erase]
          simp [hrest]
        · simp [hrest]
      · rw [if_pos hi, erase_of_not_mem hi, hbucket]
        simp [hnonempty bucket hbucket]
    · split
      · rfl
      · split
        · rw [get?_set, if_neg hkey]
        · rw [queues_popTimer, get?_erase, if_neg hkey]

variable {key' : QueueKey}

theorem bucket_of_removed
    (hnonempty : ∀ {key bucket}, w.queues.get? key = some bucket → bucket ≠ [])
    {bucket' : List Nat} (hbucket : (w.removeQueuedMember key i).queues.get? key' = some bucket') :
    ∃ bucket, w.queues.get? key' = some bucket ∧ bucket' ≠ [] ∧
      bucket' = if key' = key then bucket.erase i else bucket := by
  rw [get?_removeQueuedMember (fun _ hb => hnonempty hb)] at hbucket
  by_cases hkey : key' = key
  · subst hkey
    rw [if_pos rfl, Option.filter_eq_some_iff, map_eq_some_iff] at hbucket
    obtain ⟨⟨bucket, hb, rfl⟩, hne⟩ := hbucket
    exact ⟨bucket, hb, of_decide_eq_true hne, (if_pos rfl).symm⟩
  · rw [if_neg hkey] at hbucket
    exact ⟨bucket', hbucket, hnonempty hbucket, (if_neg hkey).symm⟩

theorem CallsInv.leaves (h : CallsInv D w) {c : DispatchCall} (hc : w.calls[i]? = some c)
    (hresumption : c.resumption = .leaves) :
    CallsInv D ((w.updateCall i DispatchCall.left).removeQueuedMember c.key i) := by
  have hundispatched := (DispatchCall.resumption_leaves hresumption).2
  have hcalls : ∀ j, ((w.updateCall i DispatchCall.left).removeQueuedMember c.key i).calls[j]? =
      (w.calls[j]?).map fun d => if j = i then d.left else d := by
    intro j
    rw [calls_removeQueuedMember]
    exact calls_updateCalls j
  have hleft : ∀ {j c'}, ((w.updateCall i DispatchCall.left).removeQueuedMember c.key i).calls[j]? =
      some c' → ∃ d, w.calls[j]? = some d ∧ CallStep False d c' ∧
        ((j = i ∧ d = c ∧ c' = c.left) ∨ (j ≠ i ∧ c' = d)) := by
    intro j c' hc'
    rw [hcalls] at hc'
    obtain ⟨d, hd, rfl⟩ := map_eq_some_iff.mp hc'
    by_cases hj : j = i
    · subst hj
      cases hc.symm.trans hd
      rw [if_pos rfl]
      exact ⟨c, hd, .leaves hresumption, Or.inl ⟨rfl, rfl, rfl⟩⟩
    · rw [if_neg hj]
      exact ⟨d, hd, .same, Or.inr ⟨hj, rfl⟩⟩
  have hkept : ∀ {j d}, j ≠ i → w.calls[j]? = some d →
      ((w.updateCall i DispatchCall.left).removeQueuedMember c.key i).calls[j]? = some d := by
    intro j d hj hd
    rw [hcalls, hd, map_some, if_neg hj]
  have hbuckets : ∀ {key : QueueKey} {bucket' : List Nat}, ((w.updateCall i
      DispatchCall.left).removeQueuedMember c.key i).queues.get? key = some bucket' →
      ∃ bucket, w.queues.get? key = some bucket ∧ bucket' ≠ [] ∧ bucket' ⊆ bucket ∧
        bucket'.Sublist bucket ∧ i ∉ bucket' := by
    intro key bucket' hbucket'
    obtain ⟨bucket, hbucket, hne, rfl⟩ := bucket_of_removed
      (w := w.updateCall i DispatchCall.left) (fun hb => (h.buckets hb).nonempty) hbucket'
    have hinv := h.buckets hbucket
    refine ⟨bucket, hbucket, hne, ?_⟩
    by_cases hkey : key = c.key
    · rw [if_pos hkey]
      have hnodup : bucket.Nodup := hinv.sorted.imp fun hlt => hlt.ne
      exact ⟨erase_subset, erase_sublist, hnodup.not_mem_erase⟩
    · rw [if_neg hkey]
      refine ⟨fun _ hj => hj, List.Sublist.refl _, fun hi => ?_⟩
      obtain ⟨d, hd, hdkey, -⟩ := hinv.members i hi
      cases hc.symm.trans hd
      exact hkey hdkey.symm
  refine ⟨fun hc' => ?_, fun hc' => ?_, fun {key bucket'} hbucket' => ?_, fun {t f} hf => ?_,
    fun {key bucket'} {t j} {f} hbucket' hf hj => ?_, fun hf hf' => ?_, fun {j c'} hc' => ?_⟩
  · obtain ⟨d, hd, hstep, -⟩ := hleft hc'
    exact (h.consistent hd).step hstep
  · obtain ⟨d, hd, hstep, -⟩ := hleft hc'
    rw [hstep.request_eq, hstep.key_eq]
    exact h.keyed hd
  · obtain ⟨bucket, hbucket, hne, hsubset, hsublist, hi⟩ := hbuckets hbucket'
    have hinv := h.buckets hbucket
    refine ⟨hinv.sorted.sublist hsublist, hsublist.length_le.trans hinv.size, hne, fun j hj => ?_⟩
    obtain ⟨d, hd, hdkey, hpending⟩ := hinv.members j (hsubset hj)
    exact ⟨d, hkept (fun hji => hi (hji ▸ hj)) hd, hdkey, hpending⟩
  · rw [flushTasks_removeQueuedMember] at hf
    refine (h.flushes hf).congr (h.flushes hf).active fun j hj d hd hholds => ?_
    by_cases hji : j = i
    · subst hji
      cases hc.symm.trans hd
      exact ⟨c.left, by rw [hcalls, hd, map_some, if_pos rfl], rfl,
        hholds.left hundispatched⟩
    · exact ⟨d, hkept hji hd, rfl, hholds⟩
  · rw [flushTasks_removeQueuedMember] at hf
    obtain ⟨bucket, hbucket, -, hsubset, -⟩ := hbuckets hbucket'
    exact h.apart hbucket hf (hsubset hj)
  · rw [flushTasks_removeQueuedMember] at hf hf'
    exact h.disjoint hf hf'
  · obtain ⟨d, hd, -, ⟨rfl, rfl, rfl⟩ | ⟨hji, rfl⟩⟩ := hleft hc'
    · exact Or.inl (DispatchCall.left_withdrawn hundispatched)
    · rcases h.placed hd with hwithdrawn | ⟨bucket, hbucket, hj⟩ | ⟨t, f, hf, hj⟩
      · exact Or.inl hwithdrawn
      · refine Or.inr (Or.inl ?_)
        rw [get?_removeQueuedMember (w := w.updateCall i DispatchCall.left)
          fun _ hb => (h.buckets hb).nonempty]
        split
        · rename_i hkey
          rw [hkey] at hbucket
          have hmem : j ∈ bucket.erase i := (mem_erase_of_ne hji).mpr hj
          refine ⟨bucket.erase i, ?_, hmem⟩
          show Option.filter _ ((w.queues.get? c.key).map _) = _
          rw [hbucket, map_some, filter_some, if_pos]
          exact decide_eq_true (ne_nil_of_mem hmem)
        · exact ⟨bucket, hbucket, hj⟩
      · exact Or.inr (Or.inr ⟨t, f, by rw [flushTasks_removeQueuedMember]; exact hf, hj⟩)

theorem CallsInv.startFlush (h : CallsInv D w) (key : QueueKey) (current : Option Nat) :
    CallsInv D (w.startFlush key current) := by
  unfold DispatcherWorld.startFlush
  have hqueue : ∀ {key' bucket}, (w.queues.erase key).get? key' = some bucket →
      key' ≠ key ∧ w.queues.get? key' = some bucket := by
    intro key' bucket hbucket
    rw [get?_erase] at hbucket
    split at hbucket
    · cases hbucket
    · rename_i hne
      exact ⟨hne, hbucket⟩
  cases hbucket : w.queues.get? key with
  | none =>
    rw [Option.getD_none, if_pos rfl]
    refine ⟨?_, ?_, ?_, ?_, ?_, ?_, ?_⟩ <;>
      simp only [calls_popTimer, queues_popTimer, flushTasks_popTimer]
    · exact h.consistent
    · exact h.keyed
    · exact fun hb => h.buckets (hqueue hb).2
    · exact h.flushes
    · exact fun hb => h.apart (hqueue hb).2
    · exact h.disjoint
    · intro i c hc
      rcases h.placed hc with hwithdrawn | ⟨bucket, hb, hi⟩ | ⟨t, f, hf, hi⟩
      · exact Or.inl hwithdrawn
      · refine Or.inr (Or.inl ⟨bucket, ?_, hi⟩)
        rw [queues_popTimer, get?_erase, if_neg ?_]
        · exact hb
        · rintro hkey
          rw [hkey, hbucket] at hb
          cases hb
      · exact Or.inr (Or.inr ⟨t, f, by rw [flushTasks_popTimer]; exact hf, hi⟩)
  | some bucket =>
    have hinv := h.buckets hbucket
    rw [getD_some, if_neg hinv.nonempty]
    have happart : ∀ {key' bucket' i}, (w.queues.erase key).get? key' = some bucket' →
        i ∈ bucket' → i ∉ bucket := by
      intro key' bucket' i hb hi hi'
      obtain ⟨hne, hb⟩ := hqueue hb
      obtain ⟨c, hc, hkey, -⟩ := (h.buckets hb).members i hi
      obtain ⟨c', hc', hkey', -⟩ := hinv.members i hi'
      cases hc.symm.trans hc'
      exact hne (hkey.symm.trans hkey')
    refine ⟨?_, ?_, ?_, ?_, ?_, ?_, ?_⟩ <;>
      simp only [calls_popTimer, queues_popTimer, flushTasks_popTimer]
    · exact h.consistent
    · exact h.keyed
    · exact fun hb => h.buckets (hqueue hb).2
    · intro t f hf
      rcases getElem?_concat_cases hf with ⟨-, rfl⟩ | hf
      · refine ⟨hinv.sorted, hinv.size, nil_sublist _, key.2, fun i hi => ?_⟩
        obtain ⟨c, hc, hkey, hpending⟩ := hinv.members i hi
        exact ⟨c, hc, hkey, .pending hpending⟩
      · exact h.flushes hf
    · intro key' bucket' t i f hb hf hi
      rcases getElem?_concat_cases hf with ⟨-, rfl⟩ | hf
      · exact happart hb hi
      · exact h.apart (hqueue hb).2 hf hi
    · intro t t' i f f' hf hf' hi hi'
      rcases getElem?_concat_cases hf with ⟨rfl, rfl⟩ | hf <;>
        rcases getElem?_concat_cases hf' with ⟨rfl, rfl⟩ | hf'
      · rfl
      · exact absurd hi' (h.apart hbucket hf' hi)
      · exact absurd hi (h.apart hbucket hf hi')
      · exact h.disjoint hf hf' hi hi'
    · intro i c hc
      rcases h.placed hc with hwithdrawn | ⟨bucket', hb, hi⟩ | ⟨t, f, hf, hi⟩
      · exact Or.inl hwithdrawn
      · by_cases hkey : c.key = key
        · rw [hkey, hbucket] at hb
          cases hb
          refine Or.inr (Or.inr ⟨w.flushTasks.length, ⟨key.1, bucket, .scheduled⟩, ?_, hi⟩)
          simp
        · refine Or.inr (Or.inl ⟨bucket', ?_, hi⟩)
          rw [get?_erase, if_neg hkey]
          exact hb
      · refine Or.inr (Or.inr ⟨t, f, ?_, hi⟩)
        rw [getElem?_append_left (List.getElem?_eq_some_iff.mp hf).1]
        exact hf

theorem CallsInv.append (h : CallsInv D w) {request : VisionInferenceRequest}
    (hkey : batchCompatibilityKey request = some key.2) (now : Rat)
    (hsize : ((w.queues.get? key).getD []).length < D.maxBatchSize) :
    CallsInv D { w with
      calls := w.calls ++ [newCall key request now]
      queues := w.queues.set key ((w.queues.get? key).getD [] ++ [w.calls.length]) } := by
  have hold : ∀ {i : Nat} {c : DispatchCall}, w.calls[i]? = some c →
      (w.calls ++ [newCall key request now])[i]? = some c := by
    intro i c hc
    rw [getElem?_append_left (List.getElem?_eq_some_iff.mp hc).1]
    exact hc
  -- the new call is in no bucket yet
  have hfresh : ∀ {i : Nat} {c : DispatchCall}, w.calls[i]? = some c → i < w.calls.length := fun hc =>
    (List.getElem?_eq_some_iff.mp hc).1
  have hbucket : ∀ i ∈ (w.queues.get? key).getD [], ∃ c, w.calls[i]? = some c ∧ c.key = key ∧
      c.queued.Pending := by
    intro i hi
    cases hb : w.queues.get? key with
    | none => simp [hb] at hi
    | some bucket =>
      rw [hb] at hi
      exact (h.buckets hb).members i hi
  refine ⟨fun {i c} hc => ?_, fun {i c} hc => ?_, fun {key' bucket'} hb => ?_, fun {t f} hf => ?_,
    fun {key' bucket'} {t i} {f} hb hf hi => ?_, h.disjoint, fun {i c} hc => ?_⟩
  · rcases getElem?_concat_cases hc with ⟨-, rfl⟩ | hc
    · exact ⟨rfl, fun h => (by cases h)⟩
    · exact h.consistent hc
  · rcases getElem?_concat_cases hc with ⟨-, rfl⟩ | hc
    · exact hkey
    · exact h.keyed hc
  · rw [get?_set] at hb
    split at hb
    · rename_i hkey'
      cases hb
      subst hkey'
      refine ⟨pairwise_append.mpr ⟨?_, pairwise_singleton _ _, fun i hi j hj => ?_⟩, ?_,
        by simp, fun i hi => ?_⟩
      · cases hb : w.queues.get? key' with
        | none => exact List.Pairwise.nil
        | some bucket => exact (h.buckets hb).sorted
      · obtain ⟨c, hc, -⟩ := hbucket i hi
        cases mem_singleton.mp hj
        exact hfresh hc
      · rw [length_append]
        exact hsize
      · rcases mem_append.mp hi with hi | hi
        · obtain ⟨c, hc, hrest⟩ := hbucket i hi
          exact ⟨c, hold hc, hrest⟩
        · cases mem_singleton.mp hi
          exact ⟨_, getElem?_concat_length, rfl, rfl, rfl, rfl⟩
    · exact (h.buckets hb).congr fun i _ c hc => ⟨c, hold hc, rfl, rfl⟩
  · exact (h.flushes hf).congr (h.flushes hf).active fun i _ c hc hholds => ⟨c, hold hc, rfl, hholds⟩
  · intro hi'
    obtain ⟨_, hmembers⟩ := (h.flushes hf).members
    obtain ⟨c, hc, -⟩ := hmembers i hi'
    rw [get?_set] at hb
    split at hb
    · cases hb
      rcases mem_append.mp hi with hi | hi
      · cases hq : w.queues.get? key with
        | none => simp [hq] at hi
        | some bucket =>
          rw [hq] at hi
          exact h.apart hq hf hi hi'
      · cases mem_singleton.mp hi
        exact absurd (hfresh hc) (lt_irrefl _)
    · exact h.apart hb hf hi hi'
  · rcases getElem?_concat_cases hc with ⟨rfl, rfl⟩ | hc
    · exact Or.inr (Or.inl ⟨_, Dict.get?_set_self _ _ _, mem_append_right _
        (mem_singleton.mpr rfl)⟩)
    · rcases h.placed hc with hwithdrawn | ⟨bucket, hb, hi⟩ | hflush
      · exact Or.inl hwithdrawn
      · refine Or.inr (Or.inl ?_)
        rw [get?_set]
        split
        · rename_i hkey'
          rw [hkey'] at hb
          refine ⟨_, rfl, mem_append_left _ ?_⟩
          rw [hb]
          exact hi
        · exact ⟨bucket, hb, hi⟩
      · exact Or.inr (Or.inr hflush)

/-! ## Timers -/

theorem live_pop (hlive : ∀ {key task}, w.timers.get? key = some task ↔ w.Live key task)
    {task : Nat} (htimer : w.timers.get? key = some task) (state : TimerState)
    (hstate : state ≠ .sleeping) {task' : Nat} :
    (w.timers.erase key).get? key' = some task' ↔
      (w.timerTasks.modify task fun t => { t with state })[task']? = some ⟨key', .sleeping⟩ := by
  have hkey : w.Live key task := hlive.mp htimer
  rw [get?_erase, getElem?_modify]
  by_cases htask : task = task'
  · subst htask
    have htask : w.timerTasks[task]? = some ⟨key, .sleeping⟩ := hkey
    simp only [htask]
    refine iff_of_false (fun hget => ?_) fun hsleeping => ?_
    · split at hget
      · cases hget
      · rename_i hne
        have hother : w.timerTasks[task]? = some ⟨key', .sleeping⟩ := hlive.mp hget
        rw [htask] at hother
        cases hother
        exact hne rfl
    · cases hsleeping
      exact hstate rfl
  · have hsame : (fun t => if task = task' then { t with state } else t) <$> w.timerTasks[task']? =
        w.timerTasks[task']? := by simp [htask]
    rw [hsame]
    split
    · rename_i hkey'
      subst hkey'
      refine iff_of_false (fun h => (by cases h)) fun hother => htask ?_
      exact Option.some.inj (htimer.symm.trans (hlive.mpr hother))
    · exact hlive

/-- The timer of a key is taken from its bucket and cancelled, if there is one. -/
theorem popTimer_live (hlive : ∀ {key task}, w.timers.get? key = some task ↔ w.Live key task)
    (key : QueueKey) :
    (∀ {key' task'}, (w.popTimer key none).timers.get? key' = some task' ↔
      (w.popTimer key none).Live key' task') ∧
    ∀ key', (w.popTimer key none).timers.get? key' =
      if key' = key then none else w.timers.get? key' := by
  unfold popTimer
  split
  · rename_i hnone
    refine ⟨hlive, fun key' => ?_⟩
    split
    · rename_i hkey
      rw [hkey, hnone]
    · rfl
  · rename_i task htimer
    exact ⟨live_pop hlive htimer .cancelled (fun h => (by cases h)), fun key' => get?_erase _ _ _⟩

theorem TimersInv.startFlush (hlive : ∀ {key task}, w.timers.get? key = some task ↔ w.Live key task)
    (htimed : ∀ key', key' ≠ key → (w.timers.get? key').isSome = (w.queues.get? key').isSome) :
    TimersInv (w.startFlush key none) := by
  obtain ⟨hpopped, hget⟩ := popTimer_live (w := { w with queues := w.queues.erase key }) hlive key
  have hinv : TimersInv ({ w with queues := w.queues.erase key }.popTimer key none) := by
    refine ⟨hpopped, fun key' => ?_⟩
    rw [hget, queues_popTimer, get?_erase]
    split
    · rfl
    · rename_i hne
      exact htimed key' hne
  unfold DispatcherWorld.startFlush
  dsimp only
  split
  · exact hinv
  · exact ⟨hinv.live, hinv.timed⟩

theorem TimersInv.elapsed (h : TimersInv w) {task : Nat}
    (htask : w.timerTasks[task]? = some ⟨key, .sleeping⟩) :
    TimersInv ((w.endTimer task .finished).startFlush key (some task)) := by
  have htimer : w.timers.get? key = some task := h.live.mpr htask
  have hpop : ({ w.endTimer task .finished with queues := w.queues.erase key }).popTimer key
      (some task) = { w.endTimer task .finished with
        queues := w.queues.erase key, timers := w.timers.erase key } := by
    unfold popTimer
    rw [show (w.endTimer task .finished).timers.get? key = some task from htimer]
    dsimp only
    rw [if_pos rfl]
    rfl
  have hinv : TimersInv { w.endTimer task .finished with
      queues := w.queues.erase key, timers := w.timers.erase key } := by
    refine ⟨live_pop h.live htimer .finished (fun h => (by cases h)), fun key' => ?_⟩
    rw [get?_erase, get?_erase]
    split
    · rfl
    · exact h.timed key'
  unfold DispatcherWorld.startFlush
  dsimp only
  rw [← hpop] at hinv
  split
  · exact hinv
  · exact ⟨hinv.live, hinv.timed⟩

theorem TimersInv.removed (h : TimersInv w) (key : QueueKey) (i : Nat) :
    TimersInv (w.removeQueuedMember key i) := by
  unfold removeQueuedMember
  split
  · exact h
  rename_i bucket hbucket
  split
  · exact h
  split
  · refine ⟨h.live, fun key' => ?_⟩
    rw [get?_set, h.timed]
    split
    · rename_i hkey
      rw [hkey, hbucket]
      rfl
    · rfl
  · obtain ⟨hpopped, hget⟩ := popTimer_live (w := { w with queues := w.queues.erase key }) h.live key
    refine ⟨hpopped, fun key' => ?_⟩
    rw [hget, queues_popTimer, get?_erase]
    split
    · rfl
    · exact h.timed key'

theorem TimersInv.started (h : TimersInv w) (hnone : w.queues.get? key = none)
    (calls : List DispatchCall) (bucket : List Nat) :
    TimersInv { w with
      calls := calls
      queues := w.queues.set key bucket
      timers := w.timers.set key w.timerTasks.length
      timerTasks := w.timerTasks ++ [⟨key, .sleeping⟩] } := by
  have hno : ∀ task, ¬ w.Live key task := by
    intro task hlive
    have hsome := h.timed key
    rw [h.live.mpr hlive, hnone] at hsome
    cases hsome
  refine ⟨fun {key' task} => ?_, fun key' => ?_⟩
  · show (w.timers.set key _).get? key' = some task ↔
      (w.timerTasks ++ [⟨key, .sleeping⟩])[task]? = some ⟨key', .sleeping⟩
    rw [get?_set, getElem?_append]
    by_cases hlt : task < w.timerTasks.length
    · split
      · rename_i hkey
        subst hkey
        refine iff_of_false (fun hlast => ?_) (hno task)
        cases hlast
        exact lt_irrefl _ hlt
      · exact h.live
    · have hnew : w.timers.get? key' ≠ some task := fun hget =>
        hlt (List.getElem?_eq_some_iff.mp (h.live.mp hget)).1
      rw [getElem?_singleton]
      split
      · rename_i hkey
        subst hkey
        rw [Option.some.injEq]
        constructor
        · rintro rfl
          simp
        · intro hget
          split at hget
          · omega
          · cases hget
      · rename_i hkey
        refine iff_of_false hnew fun hget => ?_
        split at hget
        · cases hget
          exact hkey rfl
        · cases hget
  · rw [get?_set, get?_set]
    split
    · rfl
    · exact h.timed key'

/-! ## Every event -/

@[simp] theorem queues_startFlush (w : DispatcherWorld) (key : QueueKey) (current : Option Nat) :
    (w.startFlush key current).queues = w.queues.erase key := by
  unfold DispatcherWorld.startFlush
  dsimp only
  split
  · rw [queues_popTimer]
  · rw [queues_popTimer]

theorem unfilled_startFlush {current : Option Nat}
    (h : ∀ {key' bucket}, key' ≠ key → w.queues.get? key' = some bucket →
      bucket.length < D.maxBatchSize)
    (hbucket : (w.startFlush key current).queues.get? key' = some bucket) :
    bucket.length < D.maxBatchSize := by
  rw [queues_startFlush, get?_erase] at hbucket
  split at hbucket
  · cases hbucket
  · rename_i hne
    exact h hne hbucket

section

variable (h : DispatcherInv D w)
include h

theorem DispatcherInv.enqueue {key : QueueKey}
    {request : VisionInferenceRequest} (hkey : batchCompatibilityKey request = some key.2)
    (now : Rat) : DispatcherInv D (D.enqueue w key request now) := by
  have hsize : ((w.queues.get? key).getD []).length < D.maxBatchSize := by
    cases hb : w.queues.get? key with
    | none => exact Nat.lt_trans Nat.one_pos D.bounded
    | some bucket => exact h.unfilled hb
  have happended := h.toCallsInv.append hkey now hsize
  have hother : ∀ {key' bucket}, key' ≠ key → (w.queues.set key ((w.queues.get? key).getD [] ++
      [w.calls.length])).get? key' = some bucket → bucket.length < D.maxBatchSize := by
    intro key' bucket hne hb
    rw [get?_set, if_neg hne] at hb
    exact h.unfilled hb
  have hsome : ∀ {key'}, (w.queues.get? key).isSome = true → (w.timers.get? key').isSome =
      ((w.queues.set key ((w.queues.get? key).getD [] ++ [w.calls.length])).get? key').isSome := by
    intro key' hkey'
    rw [get?_set, h.timed]
    split
    · rename_i heq
      rw [heq, hkey']
      rfl
    · rfl
  unfold BoundedMicrobatchDispatcher.enqueue
  dsimp only
  split
  · refine ⟨happended.startFlush key none, TimersInv.startFlush h.live fun key' hne => ?_,
      unfilled_startFlush hother⟩
    rw [get?_set, if_neg hne]
    exact h.timed key'
  rename_i hnotfull
  have hunfilled : ∀ {key' bucket}, (w.queues.set key ((w.queues.get? key).getD [] ++
      [w.calls.length])).get? key' = some bucket → bucket.length < D.maxBatchSize := by
    intro key' bucket hb
    by_cases hkey' : key' = key
    · rw [hkey', Dict.get?_set_self] at hb
      cases hb
      rw [length_append, length_singleton] at hnotfull ⊢
      omega
    · exact hother hkey' hb
  split
  · rename_i hfirst
    have hnone : w.queues.get? key = none := by
      cases hb : w.queues.get? key with
      | none => rfl
      | some bucket =>
        rw [hb, getD_some, length_append, length_singleton] at hfirst
        exact absurd (eq_nil_of_length_eq_zero (by omega)) (h.buckets hb).nonempty
    exact ⟨⟨happended.consistent, happended.keyed, happended.buckets, happended.flushes,
      happended.apart, happended.disjoint, happended.placed⟩,
      h.toTimersInv.started hnone _ _, hunfilled⟩
  · rename_i hmore
    refine ⟨happended, ⟨h.live, fun key' => hsome ?_⟩, hunfilled⟩
    cases hb : w.queues.get? key with
    | none => simp [hb] at hmore
    | some bucket => rfl

/-- A wakeup, a cancellation or the answer of a flush leaves the timers alone. -/
theorem DispatcherInv.ofCalls {w' : DispatcherWorld}
    (hcalls : CallsInv D w') (hqueues : w'.queues = w.queues) (htimers : w'.timers = w.timers)
    (htasks : w'.timerTasks = w.timerTasks) : DispatcherInv D w' := by
  refine ⟨hcalls, ⟨fun {key task} => ?_, fun key => ?_⟩, fun hb => ?_⟩
  · rw [htimers, DispatcherWorld.Live, htasks]
    exact h.live
  · rw [htimers, hqueues]
    exact h.timed key
  · rw [hqueues] at hb
    exact h.unfilled hb

theorem DispatcherInv.resume (i : Nat) : DispatcherInv D (w.resume i) := by
  unfold DispatcherWorld.resume
  split
  · exact h
  rename_i c hc
  have hkeep : ∀ {f : DispatchCall → DispatchCall}, CallStep False c (f c) →
      (f c).queued = c.queued → DispatcherInv D (w.updateCall i f) := by
    intro f hstep hqueued
    refine h.ofCalls (h.toCallsInv.keep False (fun j d hd => ?_) fun j d hd => ?_) rfl rfl rfl
    · split
      · rename_i hj
        subst hj
        cases hc.symm.trans hd
        exact hstep
      · exact .same
    · split
      · rename_i hj
        subst hj
        cases hc.symm.trans hd
        exact hqueued
      · rfl
  split
  · exact h
  · rename_i result hresumption
    exact hkeep (.ends result hresumption) rfl
  · rename_i hresumption
    exact hkeep (.settles hresumption) rfl
  · rename_i hresumption
    refine ⟨h.toCallsInv.leaves hc hresumption,
      TimersInv.removed (w := w.updateCall i DispatchCall.left) ⟨h.live, h.timed⟩ c.key i,
      fun hb => ?_⟩
    obtain ⟨bucket, hbucket, -, heq⟩ := bucket_of_removed (w := w.updateCall i DispatchCall.left)
      (fun hb => (h.buckets hb).nonempty) hb
    have hlt := h.unfilled hbucket
    rw [heq]
    split
    · exact (List.erase_sublist.length_le).trans_lt hlt
    · exact hlt

theorem DispatcherInv.cancel (i : Nat) : DispatcherInv D (w.cancel i) := by
  refine h.ofCalls (h.toCallsInv.keep True (fun j c _ => ?_) fun j c _ => ?_) rfl rfl rfl
  · split
    · dsimp only
      split
      · exact .same
      · rename_i hphase
        exact .request trivial fun result hended => hphase result hended
    · exact .same
  · split
    · dsimp only
      split <;> rfl
    · rfl

theorem next_inv (e : DispatcherEvent) : DispatcherInv D (D.next w e) := by
  cases e with
  | dispatch adapter request now =>
    show DispatcherInv D (D.dispatch w adapter request now)
    unfold BoundedMicrobatchDispatcher.dispatch
    split
    · exact h
    · rename_i compatible hkey
      exact h.enqueue hkey now
  | cancel i => exact h.cancel i
  | resume i => exact h.resume i
  | timer task =>
    show DispatcherInv D (w.timerElapsed task)
    unfold timerElapsed
    split
    · rename_i key htask
      have hcalls : CallsInv D (w.endTimer task .finished) :=
        ⟨h.consistent, h.keyed, h.buckets, h.flushes, h.apart, h.disjoint, h.placed⟩
      exact ⟨hcalls.startFlush key (some task), h.toTimersInv.elapsed htask,
        unfilled_startFlush fun _ hb => h.unfilled hb⟩
    · exact h
  | flush task now =>
    show DispatcherInv D (w.flush task now)
    unfold DispatcherWorld.flush
    split
    · rename_i hf
      refine h.ofCalls (h.toCallsInv.startBatch now hf) ?_ ?_ ?_
      all_goals
        unfold DispatcherWorld.startBatch
        dsimp only
        split
        · rfl
        · split <;> rfl
    · exact h
  | answer task answer =>
    show DispatcherInv D (w.answer task answer)
    unfold DispatcherWorld.answer
    split
    · rename_i hf
      exact h.ofCalls (h.toCallsInv.answered answer hf) rfl rfl rfl
    · exact h

end

theorem initial_inv (D : BoundedMicrobatchDispatcher) : DispatcherInv D .initial := by
  refine ⟨⟨?_, ?_, ?_, ?_, ?_, ?_, ?_⟩,
    ⟨iff_of_false (fun h => (by cases h)) fun h => (by cases h), fun _ => rfl⟩, ?_⟩
  all_goals exact fun h => (by cases h)

theorem run_inv (events : List DispatcherEvent) :
    ∀ {w : DispatcherWorld}, DispatcherInv D w → DispatcherInv D (D.run w events) := by
  induction events with
  | nil => exact id
  | cons e events ih => exact fun h => ih (next_inv h e)

end Flushes

end Robata.Orchestration
