import Mathlib.Data.List.Sort
import Mathlib.Logic.Relation
import Mathlib.Order.Bounds.Basic
import Mathlib.Tactic.Common

/-!
# Sweeps over intervals

Items with a start and a stop in a linear order, swept in order of their starts.  `gapGroups` joins
an item to the open group if it starts at or before what the latest stop of the group reaches;
the groups are the classes of the items under being in reach of each other.  `exists_mem_of_chain`
says that intervals of which each starts within the one before leave no gap.
-/

namespace Robata.Lib

open List

variable {ι β : Type} [LinearOrder β]

section Groups

variable (start stop : ι → β) (reach : β → β)

/-- Two items each of which starts within reach of the stop of the other. -/
def InReach (a b : ι) : Prop := start a ≤ reach (stop b) ∧ start b ≤ reach (stop a)

theorem InReach.symm {a b : ι} (h : InReach start stop reach a b) : InReach start stop reach b a :=
  ⟨h.2, h.1⟩

/-- Two items of a list that are linked through items of the list, each in reach of the next. -/
def Linked (group : List ι) : ι → ι → Prop :=
  Relation.ReflTransGen fun a b => a ∈ group ∧ b ∈ group ∧ InReach start stop reach a b

/-- The sweep with an open group whose latest stop is `groupEnd`. -/
def gapGroupsFrom (current : List ι) (groupEnd : β) : List ι → List (List ι)
  | [] => [current]
  | item :: rest =>
    if reach groupEnd < start item then
      current :: gapGroupsFrom [item] (stop item) rest
    else
      gapGroupsFrom (current ++ [item]) (max groupEnd (stop item)) rest

def gapGroups : List ι → List (List ι)
  | [] => []
  | item :: rest => gapGroupsFrom start stop reach [item] (stop item) rest

variable {start stop reach}

theorem gapGroupsFrom_flatten (current : List ι) (groupEnd : β) (rest : List ι) :
    (gapGroupsFrom start stop reach current groupEnd rest).flatten = current ++ rest := by
  induction rest generalizing current groupEnd with
  | nil => simp [gapGroupsFrom]
  | cons item rest ih =>
    unfold gapGroupsFrom
    by_cases hgap : reach groupEnd < start item
    · simp [hgap, ih]
    · simp [hgap, ih]

variable (start stop reach) in
theorem gapGroups_flatten (items : List ι) :
    (gapGroups start stop reach items).flatten = items := by
  cases items with
  | nil => rfl
  | cons item rest => exact gapGroupsFrom_flatten [item] (stop item) rest

theorem gapGroupsFrom_ne_nil {current : List ι} (hcurrent : current ≠ []) (groupEnd : β)
    (rest : List ι) : ∀ g ∈ gapGroupsFrom start stop reach current groupEnd rest, g ≠ [] := by
  induction rest generalizing current groupEnd with
  | nil => simpa [gapGroupsFrom] using hcurrent
  | cons item rest ih =>
    unfold gapGroupsFrom
    by_cases hgap : reach groupEnd < start item
    · rw [if_pos hgap]
      exact forall_mem_cons.mpr ⟨hcurrent, ih (by simp) _⟩
    · rw [if_neg hgap]
      exact ih (by simp) _

variable (start stop reach) in
theorem gapGroups_ne_nil (items : List ι) : ∀ g ∈ gapGroups start stop reach items, g ≠ [] := by
  cases items with
  | nil => simp [gapGroups]
  | cons item rest => exact gapGroupsFrom_ne_nil (by simp) _ rest

theorem Linked.symm {group : List ι} {a b : ι} (h : Linked start stop reach group a b) :
    Linked start stop reach group b a :=
  have : Std.Symm fun a b => a ∈ group ∧ b ∈ group ∧ InReach start stop reach a b :=
    ⟨fun _ _ ⟨hx, hy, hnear⟩ => ⟨hy, hx, hnear.symm⟩⟩
  Relation.ReflTransGen.stdSymm.symm _ _ h

theorem Linked.mono {group group' : List ι} (hsub : group ⊆ group') {a b : ι}
    (h : Linked start stop reach group a b) : Linked start stop reach group' a b :=
  Relation.ReflTransGen.mono (fun _ _ ⟨hx, hy, hnear⟩ => ⟨hsub hx, hsub hy, hnear⟩) _ _ h

/-- The open group of a sweep: its items are linked, and one of them has the latest stop. -/
structure OpenGroup (start stop : ι → β) (reach : β → β) (current : List ι) (groupEnd : β) : Prop where
  linked : ∀ a ∈ current, ∀ b ∈ current, Linked start stop reach current a b
  latest : ∃ a ∈ current, stop a = groupEnd
  bound : ∀ a ∈ current, stop a ≤ groupEnd

theorem OpenGroup.single (item : ι) : OpenGroup start stop reach [item] (stop item) where
  linked := by
    intro a ha b hb
    rw [mem_singleton.mp ha, mem_singleton.mp hb]
    exact .refl
  latest := ⟨item, mem_singleton_self item, rfl⟩
  bound := by
    intro a ha
    rw [mem_singleton.mp ha]

theorem OpenGroup.join {current : List ι} {groupEnd : β}
    (h : OpenGroup start stop reach current groupEnd) (hreach : ∀ x, x ≤ reach x) {item : ι}
    (hproper : start item ≤ stop item) (hsorted : ∀ a ∈ current, start a ≤ start item)
    (hnear : start item ≤ reach groupEnd) :
    OpenGroup start stop reach (current ++ [item]) (max groupEnd (stop item)) := by
  obtain ⟨last, hlast, hend⟩ := h.latest
  have hsub : current ⊆ current ++ [item] := subset_append_left current [item]
  have hitem : item ∈ current ++ [item] := by simp
  have hlink : Linked start stop reach (current ++ [item]) last item := by
    refine .single ⟨hsub hlast, hitem, ?_, hend ▸ hnear⟩
    calc start last ≤ start item := hsorted last hlast
      _ ≤ stop item := hproper
      _ ≤ reach (stop item) := hreach _
  have hto : ∀ a ∈ current ++ [item], Linked start stop reach (current ++ [item]) a item := by
    refine forall_mem_append.mpr ⟨fun a hold => ?_, forall_mem_singleton.mpr .refl⟩
    exact ((h.linked a hold last hlast).mono hsub).trans hlink
  constructor
  case linked => exact fun a ha b hb => (hto a ha).trans (hto b hb).symm
  case latest =>
    rcases le_total groupEnd (stop item) with hle | hle
    · exact ⟨item, hitem, (max_eq_right hle).symm⟩
    · exact ⟨last, hsub hlast, hend.trans (max_eq_left hle).symm⟩
  case bound =>
    exact forall_mem_append.mpr ⟨fun a hold => (h.bound a hold).trans (le_max_left _ _),
      forall_mem_singleton.mpr (le_max_right _ _)⟩

/-- What a sweep gives: groups of linked items, and what comes later is out of reach. -/
structure Separated (start stop : ι → β) (reach : β → β) (groups : List (List ι)) : Prop where
  linked : ∀ g ∈ groups, ∀ a ∈ g, ∀ b ∈ g, Linked start stop reach g a b
  apart : groups.Pairwise fun g g' => ∀ a ∈ g, ∀ b ∈ g', reach (stop a) < start b

theorem gapGroupsFrom_separated (hmono : Monotone reach) (hreach : ∀ x, x ≤ reach x)
    {current rest : List ι} {groupEnd : β} (h : OpenGroup start stop reach current groupEnd)
    (hproper : ∀ a ∈ rest, start a ≤ stop a)
    (hsorted : (current ++ rest).Pairwise fun a b => start a ≤ start b) :
    Separated start stop reach (gapGroupsFrom start stop reach current groupEnd rest) := by
  induction rest generalizing current groupEnd with
  | nil =>
    constructor
    · simpa [gapGroupsFrom] using h.linked
    · simp [gapGroupsFrom]
  | cons item rest ih =>
    have hsorted' := pairwise_append.mp hsorted
    have hproper' : ∀ a ∈ rest, start a ≤ stop a := fun a ha =>
      hproper a (mem_cons_of_mem _ ha)
    unfold gapGroupsFrom
    by_cases hgap : reach groupEnd < start item
    · rw [if_pos hgap]
      have hrest := ih (.single item) hproper' hsorted'.2.1
      constructor
      · exact forall_mem_cons.mpr ⟨h.linked, hrest.linked⟩
      · rw [pairwise_cons]
        refine ⟨?_, hrest.apart⟩
        intro g hg a ha b hb
        -- whatever comes later starts no earlier than this item
        have hmem : b ∈ item :: rest := by
          have hflat : (gapGroupsFrom start stop reach [item] (stop item) rest).flatten =
              item :: rest := gapGroupsFrom_flatten _ _ _
          exact hflat ▸ mem_flatten_of_mem hg hb
        have hlater : start item ≤ start b := by
          rcases mem_cons.mp hmem with rfl | hb'
          · exact le_refl _
          · exact (pairwise_cons.mp hsorted'.2.1).1 b hb'
        calc reach (stop a) ≤ reach groupEnd := hmono (h.bound a ha)
          _ < start item := hgap
          _ ≤ start b := hlater
    · rw [if_neg hgap]
      apply ih ?_ hproper'
      · simpa using hsorted
      · exact h.join hreach (hproper item mem_cons_self)
          (fun a ha => hsorted'.2.2 a ha item mem_cons_self) (not_lt.mp hgap)

/-- The groups of a sweep in order of the starts are the classes of linked items. -/
theorem gapGroups_separated (hmono : Monotone reach) (hreach : ∀ x, x ≤ reach x) {items : List ι}
    (hproper : ∀ a ∈ items, start a ≤ stop a)
    (hsorted : items.Pairwise fun a b => start a ≤ start b) :
    Separated start stop reach (gapGroups start stop reach items) := by
  cases items with
  | nil => exact ⟨by simp [gapGroups], by simp [gapGroups]⟩
  | cons item rest =>
    exact gapGroupsFrom_separated hmono hreach (.single item)
      (fun a ha => hproper a (mem_cons_of_mem _ ha)) hsorted

end Groups

/-! ## Covers -/

/-- Intervals of which each starts within the one before cover what lies between the first start
and the last stop. -/
theorem exists_mem_of_chain (start stop : ι → β) {first : ι} {rest : List ι}
    (hchain : (first :: rest).IsChain fun a b => start b ≤ stop a) {x : β}
    (hfirst : start first ≤ x)
    (hlast : x < stop ((first :: rest).getLast (cons_ne_nil first rest))) :
    ∃ a ∈ first :: rest, start a ≤ x ∧ x < stop a := by
  induction rest generalizing first with
  | nil => exact ⟨first, mem_singleton_self first, hfirst, hlast⟩
  | cons next rest ih =>
    rw [isChain_cons_cons] at hchain
    by_cases hx : x < stop first
    · exact ⟨first, mem_cons_self, hfirst, hx⟩
    · obtain ⟨a, ha, hwithin⟩ := ih hchain.2 (hchain.1.trans (not_lt.mp hx)) hlast
      exact ⟨a, mem_cons_of_mem _ ha, hwithin⟩

end Robata.Lib
