import Mathlib.Logic.Relation
import Robata.Lib.Method

/-!
# Methods interleaved over one store

A method that uses a shared store is a program over *commands*.  Each command is
one atomic step of the store, a transaction or a lock-protected section; between
two commands of a method every other method may run, and a method may stop for
good.  `World` is the store with the calls in flight, and `Steps` relates
a world to those that some schedule leads to.

Programs are proved by rely and guarantee.  `Safe` says of a program that, as
long as the others keep an invariant `Inv` and change the store only along a
preorder `G`, every command of the program does so too, and its result satisfies
a postcondition from then on.  `Steps.keeps` composes programs that are safe
on their own into a statement about every reachable world.
-/

namespace Robata.Lib

open List

/-- A program over commands `κ` with answers `ρ`: it is done, with a result or an
exception, or it issues a command and goes on with the answer. -/
inductive Prog (κ : Type) (ρ : κ → Type) (ε α : Type) : Type
  | done (result : Except ε α)
  | call (c : κ) (next : Except ε (ρ c) → Prog κ ρ ε α)

namespace Prog

variable {κ : Type} {ρ : κ → Type} {ε α β : Type}

/-- Go on with the value of a program; an exception ends both. -/
def andThen (p : Prog κ ρ ε α) (f : α → Prog κ ρ ε β) : Prog κ ρ ε β :=
  match p with
  | .done (.ok a) => f a
  | .done (.error e) => .done (.error e)
  | .call c next => .call c fun answer => (next answer).andThen f

instance : Monad (Prog κ ρ ε) where
  pure a := .done (.ok a)
  bind := andThen

/-- Issue one command. -/
def perform (c : κ) : Prog κ ρ ε (ρ c) := .call c fun answer => .done answer

/-- A computation between two commands. -/
def ofExcept (x : Except ε α) : Prog κ ρ ε α := .done x

theorem bind_assoc {γ : Type} (p : Prog κ ρ ε α) (f : α → Prog κ ρ ε β) (g : β → Prog κ ρ ε γ) :
    (p >>= f) >>= g = p >>= fun a => f a >>= g := by
  induction p with
  | done result => cases result <;> rfl
  | call c next ih =>
    show Prog.call c _ = Prog.call c _
    congr 1
    funext answer
    exact ih answer

@[simp] theorem bind_pure (p : Prog κ ρ ε α) : p >>= pure = p := by
  induction p with
  | done result => cases result <;> rfl
  | call c next ih =>
    show Prog.call c _ = Prog.call c _
    congr 1
    funext answer
    exact ih answer

/-- Run a program to its end with nobody else running. -/
def execute {σ : Type} (run : (c : κ) → Method σ ε (ρ c)) : Prog κ ρ ε α → Method σ ε α
  | .done result => fun s => (result, s)
  | .call c next => fun s => execute run (next (run c s).1) (run c s).2

variable {σ : Type}

@[simp] theorem execute_done (run : (c : κ) → Method σ ε (ρ c)) (result : Except ε α)
    (s : σ) : execute run (.done result : Prog κ ρ ε α) s = (result, s) := rfl

@[simp] theorem execute_ofExcept (run : (c : κ) → Method σ ε (ρ c)) (x : Except ε α)
    (s : σ) : execute run (ofExcept x : Prog κ ρ ε α) s = (x, s) := rfl

theorem execute_call (run : (c : κ) → Method σ ε (ρ c)) (c : κ)
    (next : Except ε (ρ c) → Prog κ ρ ε α) (s : σ) :
    execute run (.call c next) s = execute run (next (run c s).1) (run c s).2 := rfl

theorem execute_bind (run : (c : κ) → Method σ ε (ρ c)) (p : Prog κ ρ ε α)
    (f : α → Prog κ ρ ε β) : execute run (p >>= f) = execute run p >>= fun a => execute run (f a) := by
  induction p with
  | done result => cases result <;> rfl
  | call c next ih =>
    funext s
    exact congrFun (ih (run c s).1) (run c s).2

theorem execute_bind_eq_ok {run : (c : κ) → Method σ ε (ρ c)} {p : Prog κ ρ ε α}
    {f : α → Prog κ ρ ε β} {b : β} {s s' : σ} :
    execute run (p >>= f) s = (.ok b, s') ↔
      ∃ a s₁, execute run p s = (.ok a, s₁) ∧ execute run (f a) s₁ = (.ok b, s') := by
  rw [execute_bind]
  exact Method.bind_eq_ok

theorem execute_perform_bind (run : (c : κ) → Method σ ε (ρ c)) (c : κ)
    (f : ρ c → Prog κ ρ ε α) (s : σ) :
    execute run (perform c >>= f) s =
      match run c s with
      | (.ok a, s') => execute run (f a) s'
      | (.error e, s') => (.error e, s') := by
  show execute run ((Prog.done (run c s).1).andThen f) (run c s).2 = _
  rcases run c s with ⟨e | a, s'⟩ <;> rfl

end Prog

/-- One executed command with its answer. -/
structure Event (κ : Type) (ρ : κ → Type) (ε : Type) where
  command : κ
  answer : Except ε (ρ command)

/-- A store and the methods callers may run on it. -/
structure System (σ ω κ : Type) (ρ : κ → Type) (ε α : Type) where
  run : (c : κ) → Method σ ε (ρ c)
  method : ω → Prog κ ρ ε α

/-- A call in flight, with the store it was made on. -/
structure Job (σ ω κ : Type) (ρ : κ → Type) (ε α : Type) where
  op : ω
  started : σ
  rest : Prog κ ρ ε α

/-- The store, the calls in flight, and the commands executed so far, the latest
first. -/
structure World (σ ω κ : Type) (ρ : κ → Type) (ε α : Type) where
  db : σ
  jobs : List (Job σ ω κ ρ ε α)
  log : List (Event κ ρ ε)

section Runs

variable {σ ω κ : Type} {ρ : κ → Type} {ε α β : Type}

/-- A store without calls in flight. -/
def World.initial (s₀ : σ) : World σ ω κ ρ ε α := ⟨s₀, [], []⟩

/-- What can happen next: somebody makes a call, a call executes its next
command, or a call stops for good.  `starts` and `admits` restrict the calls and
commands issued in a state. -/
inductive Step (sys : System σ ω κ ρ ε α) (starts : ω → σ → Prop) (admits : κ → σ → Prop)
    (w : World σ ω κ ρ ε α) : World σ ω κ ρ ε α → Prop
  | spawn (op : ω) (hstarts : starts op w.db) :
      Step sys starts admits w ⟨w.db, ⟨op, w.db, sys.method op⟩ :: w.jobs, w.log⟩
  | advance {earlier later : List (Job σ ω κ ρ ε α)} {job : Job σ ω κ ρ ε α} {c : κ}
      {next : Except ε (ρ c) → Prog κ ρ ε α} (hjobs : w.jobs = earlier ++ job :: later)
      (hrest : job.rest = .call c next) (hadmits : admits c w.db) :
      Step sys starts admits w
        ⟨(sys.run c w.db).2, earlier ++ ⟨job.op, job.started, next (sys.run c w.db).1⟩ :: later,
          ⟨c, (sys.run c w.db).1⟩ :: w.log⟩
  | crash {earlier later : List (Job σ ω κ ρ ε α)} {job : Job σ ω κ ρ ε α}
      (hjobs : w.jobs = earlier ++ job :: later) :
      Step sys starts admits w ⟨w.db, earlier ++ later, w.log⟩

/-- The worlds some schedule leads to from `w`. -/
def Steps (sys : System σ ω κ ρ ε α) (starts : ω → σ → Prop) (admits : κ → σ → Prop) :
    World σ ω κ ρ ε α → World σ ω κ ρ ε α → Prop :=
  Relation.ReflTransGen (Step sys starts admits)

/-! ## Rely and guarantee -/

/-- What every command keeps: an invariant of the store, and the direction in
which the store may change. -/
structure Discipline (σ : Type) where
  Inv : σ → Prop
  G : σ → σ → Prop
  refl : ∀ s, G s s
  trans : ∀ {s t u}, G s t → G t u → G s u

section Safety

variable (run : (c : κ) → Method σ ε (ρ c)) (admits : κ → σ → Prop) (d : Discipline σ)

/-- From store `s` on, whatever the others do within the discipline, the program
stays within it and ends with `Post`, which then holds for good. -/
def Safe (Post : Except ε α → σ → Prop) : Prog κ ρ ε α → σ → Prop
  | .done result, s => ∀ s', d.Inv s' → d.G s s' → Post result s'
  | .call c next, s => ∀ s', d.Inv s' → d.G s s' → admits c s' →
      d.Inv (run c s').2 ∧ d.G s' (run c s').2 ∧ Safe Post (next (run c s').1) (run c s').2

/-- The postcondition of a program that promises nothing when it raises. -/
def Returns (P : α → σ → Prop) (result : Except ε α) (s : σ) : Prop :=
  ∀ a, result = .ok a → P a s

theorem Returns.error {P : α → σ → Prop} {e : ε} {s : σ} : Returns P (.error e) s := by
  intro a h
  cases h

theorem Returns.ok {P : α → σ → Prop} {a : α} {s : σ} (h : P a s) :
    Returns P (Except.ok a : Except ε α) s := by
  intro b hb
  cases hb
  exact h

/-- The postcondition of a program that does not raise. -/
def Succeeds (P : α → σ → Prop) (result : Except ε α) (s : σ) : Prop :=
  ∃ a, result = .ok a ∧ P a s

variable {run admits d} {Post : Except ε α → σ → Prop} {s s' : σ}

namespace Safe

theorem later {p : Prog κ ρ ε α} (h : Safe run admits d Post p s) (hG : d.G s s') :
    Safe run admits d Post p s' := by
  cases p with
  | done result | call c next =>
    intro s'' hInv hG'
    exact h s'' hInv (d.trans hG hG')

theorem mono {Post' : Except ε α → σ → Prop} {p : Prog κ ρ ε α}
    (hPost : ∀ result s', d.Inv s' → d.G s s' → Post result s' → Post' result s')
    (h : Safe run admits d Post p s) : Safe run admits d Post' p s := by
  induction p generalizing s with
  | done result =>
    intro s' hInv hG
    exact hPost result s' hInv hG (h s' hInv hG)
  | call c next ih =>
    intro s' hInv hG hadmits
    obtain ⟨hInv', hG', hnext⟩ := h s' hInv hG hadmits
    refine ⟨hInv', hG', ih _ ?_ hnext⟩
    intro result s'' hInv'' hG''
    exact hPost result s'' hInv'' (d.trans hG (d.trans hG' hG''))

variable {p : Prog κ ρ ε β} {f : β → Prog κ ρ ε α}

theorem bind (hInv : d.Inv s)
    (h : Safe run admits d (fun result s' =>
      match result with
      | .ok b => Safe run admits d Post (f b) s'
      | .error e => Post (.error e) s') p s) :
    Safe run admits d Post (p >>= f) s := by
  induction p generalizing s with
  | done result =>
    cases result with
    | ok b => exact h s hInv (d.refl s)
    | error e => exact h
  | call c next ih =>
    intro s' hInv' hG hadmits
    obtain ⟨hInv'', hG', hnext⟩ := h s' hInv' hG hadmits
    exact ⟨hInv'', hG', ih _ hInv'' hnext⟩

theorem returns_bind {P : β → σ → Prop} (hInv : d.Inv s) (hp : Safe run admits d (Returns P) p s)
    (hok : ∀ b s', d.Inv s' → d.G s s' → P b s' → Safe run admits d Post (f b) s')
    (herror : ∀ e s', d.Inv s' → d.G s s' → Post (.error e) s') :
    Safe run admits d Post (p >>= f) s := by
  refine bind hInv (hp.mono ?_)
  intro result s' hInv' hG hresult
  cases result with
  | ok b => exact hok b s' hInv' hG (hresult b rfl)
  | error e => exact herror e s' hInv' hG

theorem succeeds_bind {P : β → σ → Prop} (hInv : d.Inv s) (hp : Safe run admits d (Succeeds P) p s)
    (hok : ∀ b s', d.Inv s' → d.G s s' → P b s' → Safe run admits d Post (f b) s') :
    Safe run admits d Post (p >>= f) s := by
  refine bind hInv (hp.mono ?_)
  rintro result s' hInv' hG ⟨b, rfl, hb⟩
  exact hok b s' hInv' hG hb

variable {c : κ}

theorem perform_bind {f : ρ c → Prog κ ρ ε α}
    (hcommand : ∀ s', d.Inv s' → d.G s s' → admits c s' → d.Inv (run c s').2 ∧ d.G s' (run c s').2)
    (hok : ∀ s' a, d.Inv s' → d.G s s' → admits c s' → (run c s').1 = .ok a →
      Safe run admits d Post (f a) (run c s').2)
    (herror : ∀ s' e, d.Inv s' → d.G s s' → admits c s' → (run c s').1 = .error e →
      ∀ s'', d.Inv s'' → d.G (run c s').2 s'' → Post (.error e) s'') :
    Safe run admits d Post (Prog.perform c >>= f) s := by
  intro s' hInv hG hadmits
  refine ⟨(hcommand s' hInv hG hadmits).1, (hcommand s' hInv hG hadmits).2, ?_⟩
  cases hanswer : (run c s').1 with
  | ok a => exact hok s' a hInv hG hadmits hanswer
  | error e => exact herror s' e hInv hG hadmits hanswer

theorem query_bind {f : ρ c → Prog κ ρ ε α} {read : σ → Except ε (ρ c)}
    (hrun : run c = Method.query read)
    (hok : ∀ s' a, d.Inv s' → d.G s s' → admits c s' → read s' = .ok a →
      Safe run admits d Post (f a) s')
    (herror : ∀ s' e, d.Inv s' → d.G s s' → admits c s' → read s' = .error e →
      ∀ s'', d.Inv s'' → d.G s' s'' → Post (.error e) s'') :
    Safe run admits d Post (Prog.perform c >>= f) s := by
  intro s' hInv hG hadmits
  have hanswer : run c s' = (read s', s') := by rw [hrun, Method.query]
  rw [hanswer]
  refine ⟨hInv, d.refl s', ?_⟩
  cases hread : read s' with
  | ok a => exact hok s' a hInv hG hadmits hread
  | error e => exact herror s' e hInv hG hadmits hread

theorem transact_bind {f : ρ c → Prog κ ρ ε α} (write : σ → Except ε (ρ c × σ))
    (hrun : run c = Method.transact write)
    (hok : ∀ s' a s'', d.Inv s' → d.G s s' → admits c s' → write s' = .ok (a, s'') →
      d.Inv s'' ∧ d.G s' s'' ∧ Safe run admits d Post (f a) s'')
    (herror : ∀ s' e, d.Inv s' → d.G s s' → admits c s' → write s' = .error e →
      ∀ s'', d.Inv s'' → d.G s' s'' → Post (.error e) s'') :
    Safe run admits d Post (Prog.perform c >>= f) s := by
  intro s' hInv hG hadmits
  cases hwrite : write s' with
  | ok answer =>
    have hanswer : run c s' = (.ok answer.1, answer.2) := by
      rw [hrun, Method.transact, hwrite]
    rw [hanswer]
    exact hok s' answer.1 answer.2 hInv hG hadmits hwrite
  | error e =>
    have hanswer : run c s' = (.error e, s') := by
      rw [hrun, Method.transact, hwrite]
    rw [hanswer]
    exact ⟨hInv, d.refl s', herror s' e hInv hG hadmits hwrite⟩

theorem perform {Post : Except ε (ρ c) → σ → Prop}
    (h : Safe run admits d Post (Prog.perform c >>= pure) s) :
    Safe run admits d Post (Prog.perform c) s := by
  intro s' hInv hG hadmits
  obtain ⟨hInv', hG', hnext⟩ := h s' hInv hG hadmits
  refine ⟨hInv', hG', ?_⟩
  cases hanswer : (run c s').1 with
  | ok a | error e =>
    rw [hanswer] at hnext
    exact hnext

theorem ofExcept_bind {x : Except ε β} (hok : ∀ b, x = .ok b → Safe run admits d Post (f b) s)
    (herror : ∀ e, x = .error e → ∀ s', d.Inv s' → d.G s s' → Post (.error e) s') :
    Safe run admits d Post (Prog.ofExcept x >>= f) s := by
  cases x with
  | ok b => exact hok b rfl
  | error e => exact herror e rfl

end Safe
end Safety

section Composition

variable {sys : System σ ω κ ρ ε α} {starts : ω → σ → Prop} {admits : κ → σ → Prop}
  {d : Discipline σ} {Post : ω → σ → Except ε α → σ → Prop} {w w' : World σ ω κ ρ ε α}

variable (sys admits d Post w) in
/-- The store satisfies the invariant and every call in flight is safe. -/
structure Keeps : Prop where
  inv : d.Inv w.db
  safe : ∀ job ∈ w.jobs, Safe sys.run admits d (Post job.op job.started) job.rest w.db

theorem Keeps.initial {s₀ : σ} (hstart : d.Inv s₀) : Keeps sys admits d Post (World.initial s₀) :=
  ⟨hstart, forall_mem_nil _⟩

/-- A call that has returned satisfies its postcondition in the present store. -/
theorem Keeps.returned (h : Keeps sys admits d Post w) {job : Job σ ω κ ρ ε α}
    (hjob : job ∈ w.jobs) {result : Except ε α} (hdone : job.rest = .done result) :
    Post job.op job.started result w.db := by
  have hsafe := h.safe job hjob
  rw [hdone] at hsafe
  exact hsafe w.db h.inv (d.refl w.db)

section

variable (hmethod : ∀ op s, d.Inv s → starts op s → Safe sys.run admits d (Post op s) (sys.method
    op) s)
include hmethod

theorem Step.keeps (h : Keeps sys admits d Post w) (hstep : Step sys starts admits w w') :
    Keeps sys admits d Post w' ∧ d.G w.db w'.db := by
  cases hstep with
  | spawn op hstarts =>
    exact ⟨⟨h.inv, forall_mem_cons.mpr ⟨hmethod op _ h.inv hstarts, h.safe⟩⟩, d.refl _⟩
  | @advance earlier later job c next hjobs hrest hadmits =>
    have hjob := h.safe job (by rw [hjobs]; simp)
    rw [hrest] at hjob
    obtain ⟨hInv, hG, hnext⟩ := hjob w.db h.inv (d.refl w.db) hadmits
    refine ⟨⟨hInv, ?_⟩, hG⟩
    intro other hother
    -- the advanced call has its own continuation; the others only see a later store
    have hcases : other ∈ w.jobs ∨ other = ⟨job.op, job.started, next (sys.run c w.db).1⟩ := by
      rw [hjobs]
      simp only [mem_append, mem_cons] at hother ⊢
      tauto
    rcases hcases with hold | rfl
    · exact (h.safe other hold).later hG
    · exact hnext
  | @crash earlier later job hjobs =>
    refine ⟨⟨h.inv, ?_⟩, d.refl _⟩
    intro other hother
    refine h.safe other ?_
    rw [hjobs]
    simp only [mem_append] at hother ⊢
    tauto

/-- Methods that are safe on their own are safe together, along every schedule. -/
theorem Steps.keeps (h : Keeps sys admits d Post w) (hsteps : Steps sys starts admits w w') :
    Keeps sys admits d Post w' ∧ d.G w.db w'.db := by
  induction hsteps with
  | refl => exact ⟨h, d.refl _⟩
  | tail _ hstep ih =>
    obtain ⟨hkeeps, hG⟩ := hstep.keeps hmethod ih.1
    exact ⟨hkeeps, d.trans ih.2 hG⟩

end

theorem Steps.logged {P : List (Event κ ρ ε) → σ → Prop}
    (hcommand : ∀ c log s, P log s → P (⟨c, (sys.run c s).1⟩ :: log) (sys.run c s).2)
    (h : P w.log w.db) (hsteps : Steps sys starts admits w w') : P w'.log w'.db := by
  induction hsteps with
  | refl => exact h
  | tail _ hstep ih =>
    cases hstep with
    | spawn | crash => exact ih
    | advance => exact hcommand _ _ _ ih

/-- What going on with a call keeps of its program holds of every call in flight. -/
theorem Steps.jobs {Q : ω → Prog κ ρ ε α → Prop} (hmethod : ∀ op, Q op (sys.method op))
    (hnext : ∀ op c next answer, Q op (.call c next) → Q op (next answer))
    (h : ∀ job ∈ w.jobs, Q job.op job.rest) (hsteps : Steps sys starts admits w w') :
    ∀ job ∈ w'.jobs, Q job.op job.rest := by
  induction hsteps with
  | refl => exact h
  | tail _ hstep ih =>
    cases hstep with
    | spawn op => exact forall_mem_cons.mpr ⟨hmethod op, ih⟩
    | @advance earlier later running c next hjobs hrest =>
      intro job hjob
      rw [hjobs] at ih
      rcases mem_append.mp hjob with hearlier | hrest'
      · exact ih job (mem_append_left _ hearlier)
      rcases mem_cons.mp hrest' with rfl | hlater
      · have hrunning := ih running (mem_append_right _ mem_cons_self)
        rw [hrest] at hrunning
        exact hnext _ _ _ _ hrunning
      · exact ih job (mem_append_right _ (mem_cons_of_mem _ hlater))
    | crash hjobs =>
      rw [hjobs, forall_mem_append, forall_mem_cons] at ih
      exact forall_mem_append.mpr ⟨ih.1, ih.2.2⟩

end Composition

/-! ## Executing a schedule -/

/-- One decision of a scheduler; calls are numbered from the latest on. -/
inductive Choice (ω : Type)
  | spawn (op : ω)
  | advance (i : Nat)
  | crash (i : Nat)

/-- Carry out one decision, if it makes sense. -/
def World.next? (sys : System σ ω κ ρ ε α) (w : World σ ω κ ρ ε α) :
    Choice ω → Option (World σ ω κ ρ ε α)
  | .spawn op => some ⟨w.db, ⟨op, w.db, sys.method op⟩ :: w.jobs, w.log⟩
  | .advance i =>
    match w.jobs[i]? with
    | some ⟨op, started, .call c next⟩ =>
      some ⟨(sys.run c w.db).2, w.jobs.set i ⟨op, started, next (sys.run c w.db).1⟩,
        ⟨c, (sys.run c w.db).1⟩ :: w.log⟩
    | _ => none
  | .crash i => if i < w.jobs.length then some ⟨w.db, w.jobs.eraseIdx i, w.log⟩ else none

/-- Carry out a list of decisions. -/
def World.play? (sys : System σ ω κ ρ ε α) (w : World σ ω κ ρ ε α) :
    List (Choice ω) → Option (World σ ω κ ρ ε α)
  | [] => some w
  | choice :: rest => (w.next? sys choice).bind (·.play? sys rest)

/-- The decision issues a call or a command that is allowed. -/
def World.Allows (starts : ω → σ → Prop) (admits : κ → σ → Prop) (w : World σ ω κ ρ ε α) :
    Choice ω → Prop
  | .spawn op => starts op w.db
  | .advance i =>
    match w.jobs[i]? with
    | some ⟨_, _, .call c _⟩ => admits c w.db
    | _ => True
  | .crash _ => True

/-- Every decision of the list is allowed where it is taken. -/
def World.AllowsAll (sys : System σ ω κ ρ ε α) (starts : ω → σ → Prop) (admits : κ → σ → Prop)
    (w : World σ ω κ ρ ε α) : List (Choice ω) → Prop
  | [] => True
  | choice :: rest => w.Allows starts admits choice ∧
      ∀ w', w.next? sys choice = some w' → w'.AllowsAll sys starts admits rest

section Schedules

variable {sys : System σ ω κ ρ ε α} {starts : ω → σ → Prop} {admits : κ → σ → Prop}
  {w w' : World σ ω κ ρ ε α}

theorem step_of_next? {choice : Choice ω} (hallows : w.Allows starts admits choice)
    (h : w.next? sys choice = some w') : Step sys starts admits w w' := by
  cases choice with
  | spawn op =>
    cases h
    exact .spawn op hallows
  | advance i =>
    simp only [World.next?] at h
    simp only [World.Allows] at hallows
    split at h
    · rename_i op started c next hjob
      rw [hjob] at hallows
      cases h
      obtain ⟨hi, hget⟩ := List.getElem?_eq_some_iff.mp hjob
      have hjobs : w.jobs = w.jobs.take i ++ ⟨op, started, .call c next⟩ :: w.jobs.drop (i + 1) :=
        by rw [← hget, cons_getElem_drop_succ, take_append_drop]
      have hset := set_eq_take_append_cons_drop
        (l := w.jobs) (i := i) (a := ⟨op, started, next (sys.run c w.db).1⟩)
      rw [hset, if_pos hi]
      exact .advance hjobs rfl hallows
    · cases h
  | crash i =>
    simp only [World.next?] at h
    split at h
    · cases h
      rw [eraseIdx_eq_take_drop_succ]
      have hjobs : w.jobs = w.jobs.take i ++ w.jobs[i] :: w.jobs.drop (i + 1) := by
        rw [cons_getElem_drop_succ, take_append_drop]
      exact .crash hjobs
    · cases h

variable {choices : List (Choice ω)}

theorem allowsAll_of_forall (hstarts : ∀ op, Choice.spawn op ∈ choices → ∀ s, starts op s)
    (hadmits : ∀ c s, admits c s) :
    ∀ {w : World σ ω κ ρ ε α}, w.AllowsAll sys starts admits choices := by
  induction choices with
  | nil => exact trivial
  | cons choice rest ih =>
    refine ⟨?_, fun _ _ => ih fun op hop => hstarts op (mem_cons_of_mem _ hop)⟩
    cases choice with
    | spawn op => exact hstarts op mem_cons_self _
    | advance i =>
      simp only [World.Allows]
      split
      · exact hadmits _ _
      · trivial
    | crash i => trivial

/-- A check that every command of the schedule is allowed where it is issued. -/
def World.admitsAll? (sys : System σ ω κ ρ ε α) (admits : κ → σ → Prop)
    [∀ c s, Decidable (admits c s)] (w : World σ ω κ ρ ε α) : List (Choice ω) → Bool
  | [] => true
  | choice :: rest =>
    (match choice with
      | .advance i =>
        match w.jobs[i]? with
        | some ⟨_, _, .call c _⟩ => decide (admits c w.db)
        | _ => true
      | _ => true) &&
    match w.next? sys choice with
    | some w' => w'.admitsAll? sys admits rest
    | none => true

/-- Decisions whose calls are allowed in every state and whose commands pass the
check. -/
theorem allowsAll_of_admitsAll? [∀ c s, Decidable (admits c s)]
    (hstarts : ∀ op, Choice.spawn op ∈ choices → ∀ s, starts op s) :
    ∀ {w : World σ ω κ ρ ε α}, w.admitsAll? sys admits choices = true →
      w.AllowsAll sys starts admits choices := by
  induction choices with
  | nil => exact fun _ => trivial
  | cons choice rest ih =>
    intro w h
    simp only [World.admitsAll?, Bool.and_eq_true] at h
    obtain ⟨hfirst, hrest⟩ := h
    refine ⟨?_, ?_⟩
    · cases choice with
      | spawn op => exact hstarts op mem_cons_self _
      | advance i =>
        simp only [World.Allows]
        split
        · rename_i hjob
          simp only [hjob, decide_eq_true_eq] at hfirst
          exact hfirst
        · trivial
      | crash i => trivial
    · intro w' hw'
      rw [hw'] at hrest
      exact ih (fun op hop => hstarts op (mem_cons_of_mem _ hop)) hrest

theorem Steps.execute_bind (earlier later : List (Job σ ω κ ρ ε α)) (op : ω) (started : σ)
    {p : Prog κ ρ ε β} (f : β → Prog κ ρ ε α) {b : β} {s s' : σ} (log : List (Event κ ρ ε))
    (hrun : p.execute sys.run s = (.ok b, s')) :
    ∃ log', Steps sys starts (fun _ _ => True)
      ⟨s, earlier ++ ⟨op, started, p >>= f⟩ :: later, log⟩
      ⟨s', earlier ++ ⟨op, started, f b⟩ :: later, log'⟩ := by
  induction p generalizing s log with
  | done result =>
    cases hrun
    exact ⟨log, .refl⟩
  | call c next ih =>
    obtain ⟨log', hsteps⟩ := ih (sys.run c s).1 _ hrun
    exact ⟨log', .head (.advance rfl rfl trivial) hsteps⟩

theorem steps_of_play? :
    ∀ {w : World σ ω κ ρ ε α}, w.AllowsAll sys starts admits choices →
      w.play? sys choices = some w' → Steps sys starts admits w w' := by
  induction choices with
  | nil =>
    intro w _ h
    cases h
    exact .refl
  | cons choice rest ih =>
    intro w hallows h
    simp only [World.play?, Option.bind_eq_some_iff] at h
    obtain ⟨mid, hmid, h⟩ := h
    exact .head (step_of_next? hallows.1 hmid) (ih (hallows.2 mid hmid) h)

end Schedules

end Runs

end Robata.Lib
