import Robata.Lib.MissingRows

/-!
# Tables that agree row by row

Two tables of different types whose rows, in order, are related.  If the relation
respects the keys, lookups, updates, row counts and inserts on both sides agree.
-/

namespace Robata.Lib

open List

theorem filterMap_eq_of_forall₂ {α β γ : Type} {R : α → β → Prop} {f : α → Option γ}
    {g : β → Option γ} {xs : List α} {ys : List β} (h : List.Forall₂ R xs ys)
    (hfg : ∀ a b, R a b → f a = g b) : xs.filterMap f = ys.filterMap g := by
  induction h with
  | nil => rfl
  | cons hab _ ih => rw [filterMap_cons, filterMap_cons, hfg _ _ hab, ih]

theorem any_eq_of_forall₂ {α β : Type} {R : α → β → Prop} {p : α → Bool} {q : β → Bool}
    {xs : List α} {ys : List β} (h : List.Forall₂ R xs ys) (hpq : ∀ a b, R a b → p a = q b) :
    xs.any p = ys.any q := by
  induction h with
  | nil => rfl
  | cons hab _ ih => rw [any_cons, any_cons, hpq _ _ hab, ih]

theorem forall₂_getElem? {α β : Type} {R : α → β → Prop} {xs : List α} {ys : List β}
    (h : List.Forall₂ R xs ys) (i : Nat) : Option.Rel R xs[i]? ys[i]? := by
  induction h generalizing i with
  | nil => exact .none
  | cons hab _ ih =>
    cases i with
    | zero => exact .some hab
    | succ i => exact ih i

namespace KeyedTable

variable {ρ ρ' κ : Type} {key : ρ → κ} {key' : ρ' → κ} {R : ρ → ρ' → Prop}
  {t : KeyedTable ρ κ key} {u : KeyedTable ρ' κ key'}

variable (R t u) in
/-- The rows of both tables are related, in order. -/
def Agree : Prop :=
  List.Forall₂ R t.rows u.rows

theorem Agree.refl {R : ρ → ρ → Prop} (hrefl : ∀ a, R a a) (t : KeyedTable ρ κ key) :
    Agree R t t :=
  forall₂_same.mpr fun a _ => hrefl a

theorem Agree.trans {ρ'' : Type} {key'' : ρ'' → κ} {v : KeyedTable ρ'' κ key''}
    {Q : ρ' → ρ'' → Prop} {T : ρ → ρ'' → Prop} (h : Agree R t u) (h' : Agree Q u v)
    (hRQ : ∀ a b c, R a b → Q b c → T a c) : Agree T t v := by
  unfold Agree at h h' ⊢
  generalize t.rows = rows at h ⊢
  generalize u.rows = rows' at h h'
  generalize v.rows = rows'' at h' ⊢
  induction h generalizing rows'' with
  | nil =>
    cases h'
    exact .nil
  | cons hab _ ih =>
    cases h' with
    | cons hbc hrest => exact .cons (hRQ _ _ _ hab hbc) (ih _ hrest)

theorem Agree.updateWhere (h : Agree R t u) {sel : ρ → Bool} {sel' : ρ' → Bool} {set : ρ → ρ}
    {set' : ρ' → ρ'} (hset : ∀ r, key (set r) = key r) (hset' : ∀ r, key' (set' r) = key' r)
    (hsel : ∀ a b, R a b → sel a = sel' b)
    (hsets : ∀ a b, R a b → sel a = true → R (set a) (set' b)) :
    Agree R (t.updateWhere sel set hset) (u.updateWhere sel' set' hset') := by
  show List.Forall₂ R (t.rows.map _) (u.rows.map _)
  rw [forall₂_map_left_iff, forall₂_map_right_iff]
  refine h.imp ?_
  intro a b hab
  rw [← hsel a b hab]
  split
  · rename_i hselected
    exact hsets a b hab hselected
  · exact hab

theorem Agree.rowcount (h : Agree R t u) {sel : ρ → Bool} {sel' : ρ' → Bool}
    (hsel : ∀ a b, R a b → sel a = sel' b) : t.rowcount sel = u.rowcount sel' := by
  unfold KeyedTable.rowcount
  unfold Agree at h
  generalize t.rows = rows at h ⊢
  generalize u.rows = rows' at h ⊢
  induction h with
  | nil => rfl
  | cons hab _ ih => rw [countP_cons, countP_cons, ih, hsel _ _ hab]

variable [DecidableEq κ]

theorem Agree.find? (h : Agree R t u) (hkey : ∀ a b, R a b → key a = key' b) (k : κ) :
    Option.Rel R (t.find? k) (u.find? k) := by
  unfold KeyedTable.find?
  unfold Agree at h
  generalize t.rows = rows at h ⊢
  generalize u.rows = rows' at h ⊢
  induction h with
  | nil => exact .none
  | @cons a b _ _ hab _ ih =>
    rw [find?_cons, find?_cons, hkey a b hab]
    split
    · exact .some hab
    · exact ih

theorem Agree.find?_eq_none_iff (h : Agree R t u) (hkey : ∀ a b, R a b → key a = key' b) (k : κ) :
    t.find? k = none ↔ u.find? k = none := by
  have hfind := h.find? hkey k
  generalize t.find? k = a at hfind ⊢
  generalize u.find? k = b at hfind ⊢
  cases hfind with
  | none | some _ => simp

theorem Agree.insert? (h : Agree R t u) (hkey : ∀ a b, R a b → key a = key' b) {a : ρ} {b : ρ'}
    (hab : R a b) : Option.Rel (Agree R) (t.insert? a) (u.insert? b) := by
  have htaken : t.find? (key a) = none ↔ u.find? (key' b) = none := by
    rw [h.find?_eq_none_iff hkey, hkey a b hab]
  unfold KeyedTable.insert?
  by_cases hfree : t.find? (key a) = none
  · rw [dif_pos hfree, dif_pos (htaken.mp hfree)]
    exact .some (rel_append h (.cons hab .nil))
  · rw [dif_neg hfree, dif_neg fun hfree' => hfree (htaken.mpr hfree')]
    exact .none

theorem Agree.insertMissing {α β : Type} {S : α → β → Prop} {f : α → ρ} {g : β → ρ'}
    (hkey : ∀ a b, R a b → key a = key' b) (hfg : ∀ a b, S a b → R (f a) (g b)) {xs : List α}
    {ys : List β} (hxs : List.Forall₂ S xs ys) :
    ∀ {t : KeyedTable ρ κ key} {u : KeyedTable ρ' κ key'}, Agree R t u →
      Agree R (t.insertMissing f xs) (u.insertMissing g ys) := by
  induction hxs with
  | nil => exact fun h => h
  | @cons a b _ _ hab _ ih =>
    intro t u h
    refine ih ?_
    have hinsert := h.insert? hkey (hfg a b hab)
    show Agree R ((t.insert? (f a)).getD t) ((u.insert? (g b)).getD u)
    generalize t.insert? (f a) = t' at hinsert ⊢
    generalize u.insert? (g b) = u' at hinsert ⊢
    cases hinsert with
    | none => exact h
    | some hagree => exact hagree

end KeyedTable
end Robata.Lib
