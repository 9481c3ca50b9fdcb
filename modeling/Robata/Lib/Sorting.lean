import Mathlib.Data.List.Dedup
import Mathlib.Data.List.Sort
import Mathlib.Order.MinMax

/-!
# Sorting by a key

`sorted(items, key=...)`: a stable sort by keys in a linear order.  Where the keys of the items
differ the result is determined by the items alone; `canonical` is the sorted list of the distinct
items.
-/

namespace Robata.Lib

open List

variable {α κ : Type} [LinearOrder κ] {key : α → κ} {items sorted : List α}

/-- `sorted` by a key: stable, as `insertionSort` is. -/
def sortedBy (key : α → κ) (items : List α) : List α :=
  items.insertionSort fun a b => key a ≤ key b

theorem sortedBy_perm (key : α → κ) (items : List α) : (sortedBy key items).Perm items :=
  perm_insertionSort _ items

@[simp] theorem mem_sortedBy {a : α} : a ∈ sortedBy key items ↔ a ∈ items :=
  (sortedBy_perm key items).mem_iff

theorem sortedBy_pairwise (key : α → κ) (items : List α) :
    (sortedBy key items).Pairwise fun a b => key a ≤ key b := by
  exact pairwise_insertionSort _ items

theorem sortedBy_of_pairwise (h : items.Pairwise fun a b => key a ≤ key b) :
    sortedBy key items = items := by
  exact List.Pairwise.insertionSort_eq h

theorem sortedBy_sortedBy (key : α → κ) (items : List α) :
    sortedBy key (sortedBy key items) = sortedBy key items :=
  sortedBy_of_pairwise (sortedBy_pairwise key items)

theorem sortedBy_strict (h : (items.map key).Nodup) :
    (sortedBy key items).Pairwise fun a b => key a < key b := by
  have hnodup : ((sortedBy key items).map key).Nodup :=
    ((sortedBy_perm key items).map key).nodup_iff.mpr h
  rw [List.Nodup, pairwise_map] at hnodup
  exact ((sortedBy_pairwise key items).and hnodup).imp fun hab => lt_of_le_of_ne hab.1 hab.2

theorem sortedBy_eq (hperm : items.Perm sorted)
    (hsorted : sorted.Pairwise fun a b => key a < key b) : sortedBy key items = sorted := by
  have hall := (sortedBy_perm key items).trans hperm
  have hnodup : (items.map key).Nodup := by
    rw [(hperm.map key).nodup_iff, List.Nodup, pairwise_map]
    exact hsorted.imp fun h => ne_of_lt h
  exact hall.eq_of_pairwise (fun a b _ _ hab hba => absurd hba (not_lt_of_gt hab))
    (sortedBy_strict hnodup) hsorted

theorem sortedBy_eq_of_perm {items' : List α} (hperm : items.Perm items')
    (h : (items.map key).Nodup) : sortedBy key items = sortedBy key items' :=
  (sortedBy_eq (hperm.symm.trans (sortedBy_perm key items).symm) (sortedBy_strict h)).symm

theorem sortedBy_eq_of_perm_of_inj {items' : List α} (hperm : items.Perm items')
    (h : ∀ a ∈ items, ∀ b ∈ items, key a = key b → a = b) :
    sortedBy key items = sortedBy key items' := by
  have hall := (sortedBy_perm key items).trans (hperm.trans (sortedBy_perm key items').symm)
  refine hall.eq_of_pairwise ?_ (sortedBy_pairwise key items) (sortedBy_pairwise key items')
  intro a b ha hb hab hba
  have hb' : b ∈ items := hperm.mem_iff.mpr (mem_sortedBy.mp hb)
  exact h a (mem_sortedBy.mp ha) b hb' (le_antisymm hab hba)

/-- Items with one key keep their order. -/
theorem sortedBy_filter_key (key : α → κ) (items : List α) (k : κ) :
    (sortedBy key items).filter (key · = k) = items.filter (key · = k) := by
  have hkeys : (items.filter (key · = k)).Pairwise fun a b => key a ≤ key b :=
    pairwise_of_forall_mem_list fun a ha b hb =>
      ((of_decide_eq_true (mem_filter.mp ha).2).trans (of_decide_eq_true (mem_filter.mp hb).2).symm).le
  have hsub := (sublist_insertionSort hkeys filter_sublist).filter (key · = k)
  rw [filter_filter] at hsub
  simp only [Bool.and_self] at hsub
  exact (hsub.eq_of_length ((sortedBy_perm key items).filter _).length_eq.symm).symm

variable [DecidableEq α]

/-- `tuple(sorted(set(items), key=...))`. -/
def canonical (key : α → κ) (items : List α) : List α := sortedBy key items.dedup

theorem canonical_canonical (key : α → κ) (items : List α) :
    canonical key (canonical key items) = canonical key items := by
  unfold canonical
  have hnodup : (sortedBy key items.dedup).Nodup :=
    (sortedBy_perm key _).nodup_iff.mpr items.nodup_dedup
  rw [hnodup.dedup, sortedBy_sortedBy]

theorem canonical_of_pairwise (h : items.Pairwise fun a b => key a < key b) :
    canonical key items = items := by
  unfold canonical
  have hnodup : items.Nodup := by
    refine h.imp ?_
    rintro a b hlt rfl
    exact lt_irrefl _ hlt
  rw [hnodup.dedup, sortedBy_of_pairwise (h.imp fun hab => le_of_lt hab)]

theorem min?_completes {values : List κ} (h : values ≠ []) :
    ∃ least, values.min? = some least ∧ least ∈ values ∧ ∀ b ∈ values, least ≤ b := by
  obtain ⟨least, hleast⟩ := Option.ne_none_iff_exists'.mp
    (fun hnone => h (min?_eq_none_iff.mp hnone))
  exact ⟨least, hleast, (min?_eq_some_iff.mp hleast).1, (min?_eq_some_iff.mp hleast).2⟩

theorem max?_completes {values : List κ} (h : values ≠ []) :
    ∃ greatest, values.max? = some greatest ∧ greatest ∈ values ∧ ∀ b ∈ values, b ≤ greatest := by
  obtain ⟨greatest, hgreatest⟩ := Option.ne_none_iff_exists'.mp
    (fun hnone => h (max?_eq_none_iff.mp hnone))
  exact ⟨greatest, hgreatest, (max?_eq_some_iff.mp hgreatest).1, (max?_eq_some_iff.mp hgreatest).2⟩

end Robata.Lib
