import Mathlib.Data.List.Infix

/-!
# Greedy splitting of a list

A list is split into consecutive parts that fit, each as long as possible.  When what fits is
closed under infixes, no cover by consecutive parts that fit has fewer parts.
-/

namespace Robata.Lib

open List

variable {α : Type*} (Fits : List α → Prop) [DecidablePred Fits]

/-- The parts of `current ++ items`, where `current` is the part that is being filled. -/
def greedySplit (current : List α) : List α → List (List α)
  | [] => [current]
  | item :: items =>
    if Fits (current ++ [item]) then greedySplit (current ++ [item]) items
    else current :: greedySplit [item] items

variable {Fits} {current items : List α} {item : α}

theorem greedySplit_of_fits (h : Fits (current ++ [item])) :
    greedySplit Fits current (item :: items) = greedySplit Fits (current ++ [item]) items :=
  if_pos h

theorem greedySplit_of_not_fits (h : ¬ Fits (current ++ [item])) :
    greedySplit Fits current (item :: items) = current :: greedySplit Fits [item] items :=
  if_neg h

@[simp] theorem flatten_greedySplit :
    (greedySplit Fits current items).flatten = current ++ items := by
  induction items generalizing current with
  | nil => simp [greedySplit]
  | cons item items ih =>
    by_cases hfits : Fits (current ++ [item])
    · rw [greedySplit_of_fits hfits, ih, append_assoc]
      rfl
    · rw [greedySplit_of_not_fits hfits, flatten_cons, ih]
      rfl

/-- What holds of single items and is kept while a part is filled holds of every part. -/
theorem greedySplit_forall {P : List α → Prop} (h : P current) (hitems : ∀ item ∈ items, P [item])
    (hfill : ∀ part item, P part → Fits (part ++ [item]) → P (part ++ [item])) :
    ∀ part ∈ greedySplit Fits current items, P part := by
  induction items generalizing current with
  | nil => exact forall_mem_singleton.mpr h
  | cons item items ih =>
    obtain ⟨hitem, hitems⟩ := forall_mem_cons.mp hitems
    by_cases hfits : Fits (current ++ [item])
    · rw [greedySplit_of_fits hfits]
      exact ih (hfill _ _ h hfits) hitems
    · rw [greedySplit_of_not_fits hfits]
      exact forall_mem_cons.mpr ⟨h, ih hitem hitems⟩

theorem head_greedySplit :
    ∃ more parts, greedySplit Fits current items = (current ++ more) :: parts := by
  induction items generalizing current with
  | nil => exact ⟨[], [], by rw [append_nil]; rfl⟩
  | cons item items ih =>
    by_cases hfits : Fits (current ++ [item])
    · rw [greedySplit_of_fits hfits]
      obtain ⟨more, parts, heq⟩ := @ih (current ++ [item])
      exact ⟨item :: more, parts, by rw [heq, append_assoc]; rfl⟩
    · rw [greedySplit_of_not_fits hfits]
      exact ⟨[], _, by rw [append_nil]⟩

/-- A part does not fit with the first item of the next one. -/
theorem isChain_greedySplit : (greedySplit Fits current items).IsChain
    fun part next => ∀ item ∈ next.head?, ¬ Fits (part ++ [item]) := by
  induction items generalizing current with
  | nil => exact .singleton _
  | cons item items ih =>
    by_cases hfits : Fits (current ++ [item])
    · rw [greedySplit_of_fits hfits]
      exact ih
    · rw [greedySplit_of_not_fits hfits]
      have hrest := @ih [item]
      obtain ⟨more, parts, heq⟩ :
          ∃ more parts, greedySplit Fits [item] items = ([item] ++ more) :: parts :=
        head_greedySplit
      rw [heq] at hrest ⊢
      refine isChain_cons_cons.mpr ⟨fun other hother => ?_, hrest⟩
      cases hother
      exact hfits

section Fewest

variable (hinit : ∀ {l l' : List α}, l <+: l' → Fits l' → Fits l)
include hinit

/-- After a first part of any cover, the greedy split is one part ahead at most. -/
theorem greedySplit_after {first rest : List α} (hfirst : Fits first)
    (h : first ++ rest = current ++ items) : (greedySplit Fits current items).length = 1 ∨
      ∃ before current' items', rest = before ++ (current' ++ items') ∧ current' ≠ [] ∧
        (greedySplit Fits current items).length =
          (greedySplit Fits current' items').length + 1 := by
  induction items generalizing current with
  | nil => exact Or.inl rfl
  | cons item items ih =>
    have hassoc : current ++ item :: items = current ++ [item] ++ items := by
      rw [append_assoc]
      rfl
    by_cases hfits : Fits (current ++ [item])
    · rw [greedySplit_of_fits hfits]
      exact ih (h.trans hassoc)
    · rw [greedySplit_of_not_fits hfits]
      have hle : first.length ≤ current.length := by
        by_contra hlt
        have hlong : (current ++ [item]).length ≤ first.length := by
          rw [length_append, length_singleton]
          omega
        exact hfits (hinit (prefix_of_prefix_length_le ⟨items, hassoc.symm⟩ ⟨rest, h⟩ hlong)
          hfirst)
      obtain ⟨before, rfl⟩ := prefix_of_prefix_length_le ⟨rest, h⟩ ⟨item :: items, rfl⟩ hle
      rw [append_assoc, append_cancel_left_eq] at h
      exact Or.inr ⟨before, [item], items, h, cons_ne_nil _ _, rfl⟩

theorem length_greedySplit_le (htail : ∀ {l l' : List α}, l <:+ l' → Fits l' → Fits l)
    (cover : List (List α)) : ∀ (before : List α) {current items : List α}, current ≠ [] →
      (∀ part ∈ cover, Fits part) → cover.flatten = before ++ (current ++ items) →
      (greedySplit Fits current items).length ≤ cover.length := by
  induction cover with
  | nil =>
    intro before current items hne _ hflat
    exact absurd (append_eq_nil_iff.mp (append_eq_nil_iff.mp hflat.symm).2).1 hne
  | cons first cover ih =>
    intro before current items hne hfits hflat
    obtain ⟨hfirst, hcover⟩ := forall_mem_cons.mp hfits
    rw [length_cons]
    rw [flatten_cons] at hflat
    rcases append_eq_append_iff.mp hflat with ⟨before', rfl, hrest⟩ | ⟨first', rfl, hrest⟩
    · exact (ih before' hne hcover hrest).trans (Nat.le_succ _)
    · rcases greedySplit_after hinit (htail ⟨before, rfl⟩ hfirst) hrest.symm with
        hone | ⟨before', current', items', hrest, hne', hlength⟩
      · rw [hone]
        exact Nat.succ_le_succ (Nat.zero_le _)
      · rw [hlength]
        exact Nat.succ_le_succ (ih before' hne' hcover hrest)

end Fewest

end Robata.Lib
