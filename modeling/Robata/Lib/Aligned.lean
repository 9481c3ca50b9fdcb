import Mathlib.Data.List.Forall2
import Mathlib.Data.List.Nodup

/-!
# Aligned lists

Two lists whose items are related one by one, `List.Forall₂`: what is known of an item of one of
them from the items of the other, and how such relations compose.
-/

namespace Robata.Lib

open List

variable {α β γ : Type} {R : α → β → Prop} {S : β → γ → Prop} {l : List α} {r : List β}

section

variable (h : List.Forall₂ R l r)
include h

theorem exists_left_of_forall₂ : ∀ b ∈ r, ∃ a ∈ l, R a b := by
  induction h with
  | nil => simp
  | cons hfirst _ ih =>
    rw [forall_mem_cons]
    refine ⟨⟨_, mem_cons_self, hfirst⟩, ?_⟩
    intro b hb
    obtain ⟨a, ha, hrelated⟩ := ih b hb
    exact ⟨a, mem_cons_of_mem _ ha, hrelated⟩

theorem exists_right_of_forall₂ : ∀ a ∈ l, ∃ b ∈ r, R a b :=
  exists_left_of_forall₂ (R := flip R) (List.Forall₂.flip h)

theorem forall₂_with_mem : List.Forall₂ (fun a b => R a b ∧ a ∈ l ∧ b ∈ r) l r := by
  induction h with
  | nil => exact .nil
  | cons hfirst _ ih =>
    refine .cons ⟨hfirst, mem_cons_self, mem_cons_self⟩ (ih.imp ?_)
    rintro a b ⟨hab, ha, hb⟩
    exact ⟨hab, mem_cons_of_mem _ ha, mem_cons_of_mem _ hb⟩

theorem forall₂_comp {t : List γ} (h' : List.Forall₂ S r t) :
    List.Forall₂ (fun a c => ∃ b, R a b ∧ S b c) l t := by
  induction h generalizing t with
  | nil =>
    cases h'
    exact .nil
  | cons hfirst _ ih =>
    cases h' with
    | cons hfirst' hrest' => exact .cons ⟨_, hfirst, hfirst'⟩ (ih hrest')

theorem map_eq_of_forall₂ {f : α → γ} {g : β → γ}
    (hview : ∀ a b, R a b → f a = g b) : l.map f = r.map g := by
  induction h with
  | nil => rfl
  | cons hfirst _ ih => rw [map_cons, map_cons, hview _ _ hfirst, ih]

theorem getElem?_of_forall₂ {i : Nat} {a : α} (ha : l[i]? = some a) :
    ∃ b, r[i]? = some b ∧ R a b := by
  induction h generalizing i with
  | nil => cases ha
  | cons hfirst _ ih =>
    cases i with
    | zero =>
      cases ha
      exact ⟨_, rfl, hfirst⟩
    | succ i => exact ih ha

theorem pairwise_iff_of_forall₂ {P : α → α → Prop} {Q : β → β → Prop}
    (hiff : ∀ a a' b b', R a b → R a' b' → (P a a' ↔ Q b b')) : l.Pairwise P ↔ r.Pairwise Q := by
  induction h with
  | nil => simp
  | @cons a b rest rest' hfirst hrest ih =>
    rw [pairwise_cons, pairwise_cons, ih]
    apply and_congr_left
    intro _
    constructor
    · intro hall b' hb'
      obtain ⟨a', ha', hR⟩ := exists_left_of_forall₂ hrest b' hb'
      exact (hiff a a' b b' hfirst hR).mp (hall a' ha')
    · intro hall a' ha'
      obtain ⟨b', hb', hR⟩ := exists_right_of_forall₂ hrest a' ha'
      exact (hiff a a' b b' hfirst hR).mpr (hall b' hb')

end

theorem eq_of_map_eq {α κ : Type} {f : α → κ} : ∀ {l l' : List α}, l.map f = l'.map f →
    (∀ a ∈ l, ∀ b ∈ l', f a = f b → a = b) → l = l' := by
  intro l
  induction l with
  | nil =>
    intro l' hmap _
    rw [map_nil, eq_comm, map_eq_nil_iff] at hmap
    exact hmap.symm
  | cons a rest ih =>
    intro l' hmap hinj
    cases l' with
    | nil => cases hmap
    | cons b rest' =>
      rw [map_cons, map_cons, List.cons.injEq] at hmap
      rw [hinj a mem_cons_self b mem_cons_self hmap.1,
        ih hmap.2 fun c hc d hd => hinj c (mem_cons_of_mem _ hc) d (mem_cons_of_mem _ hd)]

theorem nodup_flatMap_of_key {κ : Type} {items : List α} {f : α → List β} (key : α → κ)
    (owner : β → κ) (hkeys : (items.map key).Nodup) (hmembers : ∀ a ∈ items, (f a).Nodup)
    (howner : ∀ a ∈ items, ∀ b ∈ f a, owner b = key a) : (items.flatMap f).Nodup := by
  rw [nodup_flatMap]
  refine ⟨hmembers, ?_⟩
  rw [List.Nodup, pairwise_map] at hkeys
  refine List.Pairwise.imp_of_mem ?_ hkeys
  intro a b ha hb hne c hca hcb
  exact hne ((howner a ha c hca).symm.trans (howner b hb c hcb))

end Robata.Lib
