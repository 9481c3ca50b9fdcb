import Mathlib.Data.List.Basic
import Mathlib.Tactic

/-!
# Paging

A list that is handed out in pages of one size: a page has the items from its offset on, the total,
and whether there are more.  A caller who starts at zero and asks for the next offset while there are
more sees every item once, in the order of the list, and stops.
-/

namespace Robata.Lib

open List

/-- What a caller sees of a page. -/
structure Page (α : Type) where
  items : List α
  total : Nat
  hasMore : Bool

namespace Page

variable {α : Type} {items : List α} {limit offset : Nat}

/-- The page of a list at an offset. -/
def of (items : List α) (offset limit : Nat) : Page α where
  items := (items.drop offset).take limit
  total := items.length
  hasMore := decide (offset + ((items.drop offset).take limit).length < items.length)

/-- The pages that a caller sees who asks for the next offset while there are more. -/
inductive Walk {ε : Type} (call : Nat → Except ε (Page α)) (limit : Nat) :
    Nat → List (Page α) → Prop
  | last {offset : Nat} {page : Page α} (hcall : call offset = .ok page)
      (hmore : page.hasMore = false) : Walk call limit offset [page]
  | next {offset : Nat} {page : Page α} {rest : List (Page α)} (hcall : call offset = .ok page)
      (hmore : page.hasMore = true) (hrest : Walk call limit (offset + limit) rest) :
      Walk call limit offset (page :: rest)

theorem hasMore_of (hlimit : 0 < limit) :
    (Page.of items offset limit).hasMore = true ↔ offset + limit < items.length := by
  unfold Page.of
  simp only [length_take, length_drop, decide_eq_true_eq]
  omega

theorem walk_of {ε : Type} {call : Nat → Except ε (Page α)} (hlimit : 0 < limit)
    (hcall : ∀ k, k = 0 ∨ k * limit < items.length →
      call (k * limit) = .ok (Page.of items (k * limit) limit)) :
    ∃ pages, Walk call limit 0 pages ∧ (∀ page ∈ pages, page.total = items.length) ∧
      pages.flatMap Page.items = items := by
  -- from any page on, by induction on how much of the list is still ahead
  have hfrom : ∀ n k, items.length - k * limit ≤ n → (k = 0 ∨ k * limit < items.length) →
      ∃ pages, Walk call limit (k * limit) pages ∧ (∀ page ∈ pages, page.total = items.length) ∧
        pages.flatMap Page.items = items.drop (k * limit) := by
    intro n
    induction n with
    | zero =>
      intro k hahead hk
      have hlast : (Page.of items (k * limit) limit).hasMore = false := by
        rw [← Bool.not_eq_true, hasMore_of hlimit]
        omega
      have hnil : items.drop (k * limit) = [] := drop_eq_nil_of_le (by omega)
      refine ⟨[_], .last (hcall k hk) hlast, ?_, ?_⟩
      · intro page hpage
        rw [mem_singleton.mp hpage]
        rfl
      · simp [Page.of, hnil]
    | succ n ih =>
      intro k hahead hk
      by_cases hmore : k * limit + limit < items.length
      · have hnext : (k + 1) * limit = k * limit + limit := by ring
        obtain ⟨rest, hwalk, htotal, hitems⟩ := ih (k + 1) (by omega) (.inr (by omega))
        rw [hnext] at hwalk hitems
        refine ⟨_ :: rest, .next (hcall k hk) ((hasMore_of hlimit).mpr hmore) hwalk, ?_, ?_⟩
        · exact forall_mem_cons.mpr ⟨rfl, htotal⟩
        · rw [flatMap_cons, hitems, ← drop_drop]
          exact take_append_drop limit _
      · have hlast : (Page.of items (k * limit) limit).hasMore = false := by
          rw [← Bool.not_eq_true, hasMore_of hlimit]
          exact hmore
        refine ⟨[_], .last (hcall k hk) hlast, ?_, ?_⟩
        · intro page hpage
          rw [mem_singleton.mp hpage]
          rfl
        · have hall : (items.drop (k * limit)).length ≤ limit := by
            rw [length_drop]
            omega
          simp [Page.of, take_of_length_le hall]
  obtain ⟨pages, hwalk, htotal, hitems⟩ := hfrom _ 0 (le_refl _) (.inl rfl)
  rw [Nat.zero_mul] at hwalk hitems
  exact ⟨pages, hwalk, htotal, hitems⟩

end Page
end Robata.Lib
