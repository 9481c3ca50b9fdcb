import Mathlib.Logic.Relation
import Mathlib.Tactic
import Robata.Lib.Aligned

/-!
# Serialised transactions with rollback

An operation on a store is a function `σ → Except ε σ`: it either produces the
committed state or raises, and a raised operation leaves the store as it was.
A run issues operations one after another; `Reach` collects the states a run
can be in.  The predicate `admits` restricts which operations may be issued in
which state, so that the same relation serves unrestricted runs and runs under
a condition on the environment.

The remaining lemmas take apart the two control structures such operations are
written with: sequencing and a loop over a list of rows.
-/

namespace Robata.Lib

open List

variable {ε σ α β : Type}

variable {f : α → Except ε β}

@[simp] theorem ok_bind (a : α) (f : α → Except ε β) : (Except.ok a >>= f) = f a := rfl

@[simp] theorem error_bind (e : ε) (f : α → Except ε β) :
    ((Except.error e : Except ε α) >>= f) = Except.error e := rfl

theorem bind_eq_ok {x : Except ε α} {b : β} :
    (x >>= f) = Except.ok b ↔ ∃ a, x = Except.ok a ∧ f a = Except.ok b := by
  cases x <;> simp

/-- The state that an operation with an answer leaves. -/
theorem map_snd_eq_ok {x : Except ε (α × β)} {b : β} :
    x.map Prod.snd = Except.ok b ↔ ∃ a, x = Except.ok (a, b) := by
  cases x with
  | error e => simp [Except.map]
  | ok out => simp [Except.map, Prod.ext_iff]

/-- Loop rule: an assertion about the rows still to come and the current state
that every round preserves holds when the loop has consumed all rows. -/
theorem foldlM_invariant {f : σ → α → Except ε σ} (P : List α → σ → Prop)
    (hstep : ∀ a rest s s', P (a :: rest) s → f s a = Except.ok s' → P rest s') :
    ∀ (rows : List α) (s s' : σ), P rows s → rows.foldlM f s = Except.ok s' → P [] s' := by
  intro rows
  induction rows with
  | nil =>
    intro s s' hP h
    cases h
    exact hP
  | cons a rest ih =>
    intro s s' hP h
    rw [foldlM_cons, bind_eq_ok] at h
    obtain ⟨mid, hmid, hrest⟩ := h
    exact ih mid s' (hstep a rest s mid hP hmid) hrest

/-- The loop completes when every round does, as long as an assertion about
the remaining rows is kept. -/
theorem foldlM_completes {f : σ → α → Except ε σ} (P : List α → σ → Prop)
    (hstep : ∀ a rest s, P (a :: rest) s → ∃ s', f s a = Except.ok s' ∧ P rest s') :
    ∀ (rows : List α) (s : σ), P rows s → ∃ s', rows.foldlM f s = Except.ok s' ∧ P [] s' := by
  intro rows
  induction rows with
  | nil =>
    intro s hP
    exact ⟨s, rfl, hP⟩
  | cons a rest ih =>
    intro s hP
    obtain ⟨mid, hmid, hPmid⟩ := hstep a rest s hP
    obtain ⟨s', hs', hP'⟩ := ih mid hPmid
    refine ⟨s', ?_, hP'⟩
    rw [foldlM_cons, hmid]
    exact hs'

variable {rows : List α}

theorem forM_eq_ok_iff {f : α → Except ε Unit} :
    rows.forM f = Except.ok () ↔ ∀ a ∈ rows, f a = Except.ok () := by
  induction rows with
  | nil => exact ⟨fun _ a ha => absurd ha not_mem_nil, fun _ => rfl⟩
  | cons a rest ih =>
    have hcons : (a :: rest).forM f = (f a >>= fun _ => rest.forM f) := rfl
    rw [hcons, bind_eq_ok, forall_mem_cons, ← ih]
    constructor
    · rintro ⟨_, hfirst, hrest⟩
      exact ⟨hfirst, hrest⟩
    · rintro ⟨hfirst, hrest⟩
      exact ⟨(), hfirst, hrest⟩

/-- A loop over checks raises what one of them raises. -/
theorem exists_of_forM_error {f : α → Except ε Unit} {e : ε} (h : rows.forM f = Except.error e) :
    ∃ a ∈ rows, f a = Except.error e := by
  induction rows with
  | nil => cases h
  | cons a rest ih =>
    have hcons : (a :: rest).forM f = (f a >>= fun _ => rest.forM f) := rfl
    cases hfirst : f a with
    | error e' =>
      rw [hcons, hfirst, error_bind] at h
      exact ⟨a, mem_cons_self, Except.error.inj h ▸ hfirst⟩
    | ok u =>
      rw [hcons, hfirst, ok_bind] at h
      obtain ⟨b, hb, hlater⟩ := ih h
      exact ⟨b, mem_cons_of_mem _ hb, hlater⟩

theorem mapM_completes {R : α → β → Prop} (h : ∀ a ∈ rows, ∃ b, f a = Except.ok b ∧ R a b) :
    ∃ results, rows.mapM f = Except.ok results ∧ List.Forall₂ R rows results := by
  induction rows with
  | nil => exact ⟨[], rfl, .nil⟩
  | cons a rest ih =>
    obtain ⟨b, hb, hR⟩ := h a mem_cons_self
    obtain ⟨results, hresults, hall⟩ := ih fun c hc => h c (mem_cons_of_mem _ hc)
    refine ⟨b :: results, ?_, .cons hR hall⟩
    rw [mapM_cons, hb, hresults]
    rfl

theorem mapM_forall₂ :
    ∀ {rows : List α} {results : List β}, rows.mapM f = Except.ok results →
      List.Forall₂ (fun a b => f a = Except.ok b) rows results := by
  intro rows
  induction rows with
  | nil =>
    intro results h
    cases h
    exact .nil
  | cons a rest ih =>
    intro results h
    rw [mapM_cons, bind_eq_ok] at h
    obtain ⟨b, hb, h⟩ := h
    obtain ⟨others, hothers, h⟩ := bind_eq_ok.mp h
    cases h
    exact .cons hb (ih hothers)

variable {results : List β}

theorem exists_of_mem_mapM {b : β} (h : rows.mapM f = Except.ok results) (hb : b ∈ results) :
    ∃ a ∈ rows, f a = Except.ok b :=
  exists_left_of_forall₂ (mapM_forall₂ h) b hb

theorem mem_results_of_mapM {a : α} (h : rows.mapM f = Except.ok results) (ha : a ∈ rows) :
    ∃ b ∈ results, f a = Except.ok b :=
  exists_right_of_forall₂ (mapM_forall₂ h) a ha

theorem mapM_of_forall {g : α → β} (h : ∀ a ∈ rows, f a = Except.ok (g a)) :
    rows.mapM f = Except.ok (rows.map g) := by
  induction rows with
  | nil => rfl
  | cons a rest ih =>
    rw [mapM_cons, h a mem_cons_self, ih fun b hb => h b (mem_cons_of_mem _ hb)]
    rfl

/-- What is known of each result of a successful `mapM` is known of the list. -/
theorem mapM_map_eq {γ : Type} {view : β → γ} {g : α → γ} (h : rows.mapM f = Except.ok results)
    (hview : ∀ a ∈ rows, ∀ b, f a = Except.ok b → view b = g a) :
    results.map view = rows.map g :=
  (map_eq_of_forall₂ (forall₂_with_mem (mapM_forall₂ h))
    fun a b ⟨hf, ha, _⟩ => (hview a ha b hf).symm).symm

theorem mapM_eq_some_iff {f : α → Option β} :
    ∀ {rows : List α} {results : List β},
      rows.mapM f = some results ↔ rows.map f = results.map some := by
  intro rows
  induction rows with
  | nil =>
    intro results
    cases results <;> simp
  | cons a rest ih =>
    intro results
    rw [mapM_cons, map_cons]
    cases ha : f a with
    | none => cases results <;> simp
    | some b =>
      cases results with
      | nil => cases mapM f rest <;> simp
      | cons c others =>
        rw [map_cons, List.cons.injEq, ← ih]
        cases mapM f rest <;> simp

/-- Commit a successful operation, roll a failed one back. -/
def commit (s : σ) : Except ε σ → σ
  | .ok s' => s'
  | .error _ => s

@[simp] theorem commit_ok (s s' : σ) : commit s (Except.ok s' : Except ε σ) = s' := rfl

@[simp] theorem commit_error (s : σ) (e : ε) : commit s (Except.error e) = s := rfl

section Runs

variable {ω : Type} (run : ω → σ → Except ε σ)

/-- The states of a run from `s₀` in which every operation is admitted by the
state it is issued in. -/
inductive Reach (admits : ω → σ → Prop) (s₀ : σ) : σ → Prop
  | start : Reach admits s₀ s₀
  | step {s : σ} (op : ω) (before : Reach admits s₀ s) (hadmits : admits op s) :
      Reach admits s₀ (commit s (run op s))

variable {run}

namespace Reach

/-- Invariant rule: an assertion that holds at the start and that every
admitted successful operation preserves holds in every state of a run. -/
theorem invariant {admits : ω → σ → Prop} {s₀ s : σ} (I : σ → Prop) (hstart : I s₀)
    (hstep : ∀ op s s', I s → admits op s → run op s = Except.ok s' → I s')
    (h : Reach run admits s₀ s) : I s := by
  induction h with
  | start => exact hstart
  | @step s op _ hadmits ih =>
    cases hrun : run op s with
    | error e => simpa using ih
    | ok s' => simpa using hstep op s s' ih hadmits hrun

end Reach

/-- Issue a list of operations one after another. -/
def replay (run : ω → σ → Except ε σ) (ops : List ω) (s : σ) : σ :=
  ops.foldl (fun s op => commit s (run op s)) s

/-- Every operation of the list is admitted by the state it is issued in. -/
def Admitted (run : ω → σ → Except ε σ) (admits : ω → σ → Prop) : List ω → σ → Prop
  | [], _ => True
  | op :: rest, s => admits op s ∧ Admitted run admits rest (commit s (run op s))

instance {admits : ω → σ → Prop} [∀ op s, Decidable (admits op s)] (ops : List ω) (s : σ) :
    Decidable (Admitted run admits ops s) := by
  induction ops generalizing s with
  | nil => exact isTrue trivial
  | cons op rest ih => exact @instDecidableAnd _ _ _ (ih _)

theorem replay_append (ops : List ω) (op : ω) (s : σ) :
    replay run (ops ++ [op]) s = commit (replay run ops s) (run op (replay run ops s)) := by
  simp [replay]

/-- The last operation of a list is issued in the state that the others lead to. -/
theorem admitted_append {admits : ω → σ → Prop} (ops : List ω) (op : ω) (s : σ) :
    Admitted run admits (ops ++ [op]) s ↔
      Admitted run admits ops s ∧ admits op (replay run ops s) := by
  induction ops generalizing s with
  | nil => simp [Admitted, replay]
  | cons first rest ih =>
    rw [cons_append, Admitted, Admitted, ih, and_assoc]
    rfl

theorem reach_of_admitted {admits : ω → σ → Prop} {s₀ : σ} (ops : List ω) {s : σ}
    (hops : Admitted run admits ops s) (h : Reach run admits s₀ s) :
    Reach run admits s₀ (replay run ops s) := by
  induction ops generalizing s with
  | nil => exact h
  | cons op rest ih => exact ih hops.2 (.step op h hops.1)

theorem reach_replay {s₀ s : σ} (ops : List ω) (h : Reach run (fun _ _ => True) s₀ s) :
    Reach run (fun _ _ => True) s₀ (replay run ops s) := by
  induction ops generalizing s with
  | nil => exact h
  | cons op rest ih => exact ih (.step op h trivial)

end Runs

end Robata.Lib
