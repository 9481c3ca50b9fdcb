import Mathlib.Tactic

/-!
# Methods of a mutable object

A method reads and writes its object, and returns a value or raises.  What it
has written before it raises stays: the object is part of the result in both
cases.  The rules at the end take a method that has returned apart into the
calls it consists of.
-/

namespace Robata.Lib

/-- A method of an object of type `σ` that returns an `α` or raises an `ε`. -/
def Method (σ ε α : Type) := σ → Except ε α × σ

namespace Method

variable {σ τ ε α β : Type}

instance : Monad (Method σ ε) where
  pure a := fun s => (.ok a, s)
  bind x f := fun s =>
    match x s with
    | (.ok a, s') => f a s'
    | (.error e, s') => (.error e, s')

/-- The object as it is now. -/
def self : Method σ ε σ := fun s => (.ok s, s)

/-- Write to the object. -/
def assign (g : σ → σ) : Method σ ε Unit := fun s => (.ok (), g s)

/-- Raise if the condition holds. -/
def raiseIf (found : Bool) (e : ε) : Method σ ε Unit := fun s =>
  if found then (.error e, s) else (.ok (), s)

/-- A computation that may raise and does not touch the object. -/
def ofExcept (x : Except ε α) : Method σ ε α := fun s => (x, s)

/-- A method of a part of the object. -/
def within (part : σ → τ) (write : τ → σ → σ) (x : Method τ ε α) : Method σ ε α := fun s =>
  ((x (part s)).1, write (x (part s)).2 s)

/-- A method that only reads. -/
def query (read : σ → Except ε α) : Method σ ε α := fun s => (read s, s)

/-- A method whose writes are undone when it raises. -/
def transact (write : σ → Except ε (α × σ)) : Method σ ε α := fun s =>
  match write s with
  | .ok (a, s') => (.ok a, s')
  | .error e => (.error e, s)

/-- Writes without an answer. -/
def answerless (write : σ → Except ε σ) (s : σ) : Except ε (Unit × σ) :=
  match write s with
  | .ok s' => .ok ((), s')
  | .error e => .error e

/-- The same for a method that returns nothing. -/
def update (write : σ → Except ε σ) : Method σ ε Unit := transact (answerless write)

variable {write : σ → Except ε σ} {u : Unit}

theorem answerless_eq_ok {s s' : σ} : answerless write s = .ok (u, s') ↔ write s = .ok s' := by
  unfold answerless
  cases write s <;> simp

variable {e : ε}

theorem answerless_eq_error {s : σ} : answerless write s = .error e ↔ write s = .error e := by
  unfold answerless
  cases write s <;> simp

theorem update_of_ok {s s' : σ} (h : write s = .ok s') : update write s = (.ok (), s') := by
  simp only [update, transact, answerless, h]

theorem update_of_error {s : σ} (h : write s = .error e) : update write s = (.error e, s) := by
  simp only [update, transact, answerless, h]

/-! ## Methods that have returned -/

variable {s s' : σ}

variable {x : Method σ ε α}

theorem bind_eq_ok {f : α → Method σ ε β} {b : β} :
    (x >>= f) s = (.ok b, s') ↔ ∃ a s₁, x s = (.ok a, s₁) ∧ f a s₁ = (.ok b, s') := by
  show (match x s with | (.ok a, s₁) => f a s₁ | (.error e, s₁) => (.error e, s₁)) = _ ↔ _
  constructor
  · intro h
    split at h
    · rename_i a s₁ hx
      exact ⟨a, s₁, hx, h⟩
    · cases h
  · rintro ⟨a, s₁, hx, hf⟩
    rw [hx]
    exact hf

variable {a : α}

theorem bind_of_ok {f : α → Method σ ε β} (h : x s = (.ok a, s')) : (x >>= f) s = f a s' := by
  show (match x s with | (.ok a, s₁) => f a s₁ | (.error e, s₁) => (.error e, s₁)) = _
  rw [h]

@[simp] theorem pure_eq_ok {b : α} : (pure a : Method σ ε α) s = (.ok b, s') ↔ a = b ∧ s = s' := by
  show ((Except.ok a : Except ε α), s) = _ ↔ _
  rw [Prod.mk.injEq, Except.ok.injEq]

@[simp] theorem self_eq_ok {t : σ} : (self : Method σ ε σ) s = (.ok t, s') ↔ s = t ∧ s = s' := by
  rw [self, Prod.mk.injEq, Except.ok.injEq]

@[simp] theorem assign_eq_ok {g : σ → σ} :
    (assign g : Method σ ε Unit) s = (.ok u, s') ↔ g s = s' := by
  rw [Prod.mk.injEq]
  exact and_iff_right rfl

@[simp] theorem raiseIf_eq_ok {found : Bool} :
    (raiseIf found e : Method σ ε Unit) s = (.ok u, s') ↔ found = false ∧ s = s' := by
  cases found <;> simp [raiseIf]

@[simp] theorem ofExcept_eq_ok {x : Except ε α} :
    (ofExcept x : Method σ ε α) s = (.ok a, s') ↔ x = .ok a ∧ s = s' := by
  rw [ofExcept, Prod.mk.injEq]

theorem within_eq_ok {part : σ → τ} {write : τ → σ → σ} {x : Method τ ε α} :
    within part write x s = (.ok a, s') ↔ ∃ t, x (part s) = (.ok a, t) ∧ write t s = s' := by
  unfold within
  rw [Prod.mk.injEq]
  constructor
  · rintro ⟨hx, hs'⟩
    exact ⟨(x (part s)).2, Prod.ext hx rfl, hs'⟩
  · rintro ⟨t, hx, hs'⟩
    rw [hx]
    exact ⟨rfl, hs'⟩

theorem exists_of_isOk (h : (x s).1.isOk = true) : ∃ a, x s = (.ok a, (x s).2) := by
  cases hx : (x s).1 with
  | error e =>
    rw [hx] at h
    cases h
  | ok a => exact ⟨a, Prod.ext hx rfl⟩

/-! ## What a method ensures, whether it returns or raises -/

/-- Started on `s`, the method returns an answer and an object that satisfy `Q`, or raises an
exception and leaves an object that satisfy `E`. -/
def wp (x : Method σ ε α) (Q : α → σ → Prop) (E : ε → σ → Prop) (s : σ) : Prop :=
  match x s with
  | (.ok a, s') => Q a s'
  | (.error e, s') => E e s'

section Rules

variable {Q : α → σ → Prop} {R : β → σ → Prop} {E : ε → σ → Prop}

@[simp] theorem wp_pure (a : α) : wp (pure a : Method σ ε α) Q E s ↔ Q a s := Iff.rfl

@[simp] theorem wp_self {Q : σ → σ → Prop} : wp (self : Method σ ε σ) Q E s ↔ Q s s := Iff.rfl

@[simp] theorem wp_assign {Q : Unit → σ → Prop} (g : σ → σ) :
    wp (assign g : Method σ ε Unit) Q E s ↔ Q () (g s) := Iff.rfl

@[simp] theorem wp_raiseIf {Q : Unit → σ → Prop} (found : Bool) (e : ε) :
    wp (raiseIf found e : Method σ ε Unit) Q E s ↔
      (found = true → E e s) ∧ (found = false → Q () s) := by
  cases found <;> simp [wp, raiseIf]

@[simp] theorem wp_ofExcept (x : Except ε α) :
    wp (ofExcept x : Method σ ε α) Q E s ↔
      (∀ a, x = .ok a → Q a s) ∧ ∀ e, x = .error e → E e s := by
  cases x <;> simp [wp, ofExcept]

@[simp] theorem wp_bind (x : Method σ ε α) (f : α → Method σ ε β) :
    wp (x >>= f) R E s ↔ wp x (fun a s' => wp (f a) R E s') E s := by
  show (match (match x s with | (.ok a, s₁) => f a s₁ | (.error e, s₁) => (.error e, s₁)) with
    | (.ok b, s₂) => R b s₂
    | (.error e, s₂) => E e s₂) ↔ _
  unfold wp
  split <;> split <;> simp_all

theorem wp_iff :
    wp x Q E s ↔ (∀ a s', x s = (.ok a, s') → Q a s') ∧ ∀ e s', x s = (.error e, s') → E e s' := by
  unfold wp
  split <;> rename_i hx <;> simp [hx]

theorem wp_mono {Q' : α → σ → Prop} {E' : ε → σ → Prop} (h : wp x Q E s)
    (hQ : ∀ a s', Q a s' → Q' a s') (hE : ∀ e s', E e s' → E' e s') : wp x Q' E' s := by
  unfold wp at *
  split at h
  · exact hQ _ _ h
  · exact hE _ _ h

theorem wp_within {part : σ → τ} {write : τ → σ → σ} {x : Method τ ε α} :
    wp (within part write x) Q E s ↔
      wp x (fun a t => Q a (write t s)) (fun e t => E e (write t s)) (part s) := by
  unfold wp within
  split <;> split <;> simp_all

theorem wp_const {P : σ → Prop} : wp x (fun _ => P) (fun _ => P) s ↔ P (x s).2 := by
  unfold wp
  split <;> rename_i hx <;> rw [hx]

/-- The method leaves a view of its object as it is, whether it returns or raises. -/
def KeepsView (view : σ → τ) (x : Method σ ε α) : Prop := ∀ s, view (x s).2 = view s

variable {view : σ → τ}

theorem KeepsView.bind {f : α → Method σ ε β} (hx : KeepsView view x)
    (hf : ∀ a, KeepsView view (f a)) : KeepsView view (x >>= f) := by
  intro s
  refine (wp_const (P := fun t => view t = view s)).mp ?_
  rw [wp_bind]
  exact wp_mono (wp_const.mpr (hx s)) (fun a t ht => wp_const.mpr ((hf a t).trans ht))
    fun _ _ ht => ht

theorem keepsView_raiseIf {found : Bool} {e : ε} :
    KeepsView view (raiseIf found e : Method σ ε Unit) := by
  intro s
  cases found <;> rfl

theorem KeepsView.wp {P : σ → Prop} (hx : KeepsView view x) (h : ∀ t, view t = view s → P t) :
    wp x (fun _ => P) (fun _ => P) s := wp_const.mpr (h _ (hx s))

end Rules

end Method
end Robata.Lib
