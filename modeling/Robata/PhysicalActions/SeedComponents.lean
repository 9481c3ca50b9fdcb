import Mathlib.Data.List.Lex
import Mathlib.Data.Prod.Lex
import Mathlib.Data.String.Basic
import Robata.Contracts.Common
import Robata.Lib.Components
import Robata.Lib.PathHalving
import Robata.Lib.Sorting

/-!
# Components of positive seeds

`_connected_components` of `provisional_fusion.py`: the positive pieces of evidence of one label
whose intervals are within the association gap are joined in a disjoint set.  The loop over all
pairs of places is the list of the pairs that it joins; the loops of `find` have the number of
seeds as fuel, which is enough.
-/

namespace Robata.PhysicalActions

open Contracts Lib List

/-- Where a seed comes from. -/
inductive SeedKind
  | camera
  | crossView
  deriving DecidableEq

def SeedKind.value : SeedKind → String
  | camera => "CAMERA"
  | crossView => "CROSS_VIEW"

structure PositiveSeed where
  kind : SeedKind
  (sourceActionEvidenceLogicalKey logicalKey : NodeLogicalKey)
  interval : NanosecondInterval
  label : String
  sourceLabel : Option String
  cameraId : Option CameraId
  deriving DecidableEq

def withinGap (left right : NanosecondInterval) (gapNs : Nat) : Prop :=
  left.startNs ≤ right.endNs + gapNs ∧ right.startNs ≤ left.endNs + gapNs

instance decidableWithinGap (left right : NanosecondInterval) (gapNs : Nat) :
    Decidable (withinGap left right gapNs) :=
  inferInstanceAs (Decidable (_ ∧ _))

/-- Two seeds of one label whose intervals overlap, touch or are at most the gap apart. -/
def Associated (gapNs : Nat) (left right : PositiveSeed) : Prop :=
  left.label = right.label ∧ withinGap left.interval right.interval gapNs

instance decidableAssociated (gapNs : Nat) (left right : PositiveSeed) :
    Decidable (Associated gapNs left right) :=
  inferInstanceAs (Decidable (_ ∧ _))

def positiveSeedSortKey (item : PositiveSeed) : String ×ₗ Int ×ₗ Int ×ₗ String ×ₗ String :=
  toLex (item.label, toLex (item.interval.startNs, toLex (item.interval.endNs,
    toLex (item.kind.value, item.logicalKey))))

/-- `_component_sort_key`, of a component that is not empty. -/
def componentSortKey (component : List PositiveSeed) : Int ×ₗ Int ×ₗ String ×ₗ List String :=
  toLex ((component.map (·.interval.startNs)).min?.getD 0,
    toLex ((component.map (·.interval.endNs)).max?.getD 0,
      toLex (((component.map (·.label)).head?).getD "", component.map (·.logicalKey))))

/-- The seeds at two places are associated. -/
def associatedAt (seeds : List PositiveSeed) (gapNs left right : Nat) : Bool :=
  match seeds[left]?, seeds[right]? with
  | some a, some b => decide (Associated gapNs a b)
  | _, _ => false

/-- The pairs that the two loops over the places join. -/
def associatedPairs (seeds : List PositiveSeed) (gapNs : Nat) : List (Nat × Nat) :=
  (List.range seeds.length).flatMap fun left =>
    ((List.range seeds.length).filter fun right =>
      decide (left < right) && associatedAt seeds gapNs left right).map fun right => (left, right)

def connectedComponents (seeds : List PositiveSeed) (associationGapNs : Nat) :
    Option (List (List PositiveSeed)) :=
  if seeds = [] then some []
  else do
    let parents ← PathHalving.unions seeds.length id (associatedPairs seeds associationGapNs)
    let roots ← PathHalving.findAll seeds.length parents (List.range seeds.length)
    let components := (groupedByRoot roots seeds).map (sortedBy positiveSeedSortKey)
    return sortedBy componentSortKey components

theorem Associated.symm {gapNs : Nat} {left right : PositiveSeed}
    (h : Associated gapNs left right) : Associated gapNs right left :=
  ⟨h.1.symm, h.2.2, h.2.1⟩

theorem mem_associatedPairs {seeds : List PositiveSeed} {gapNs i j : Nat} :
    (i, j) ∈ associatedPairs seeds gapNs ↔ NearPlaces (Associated gapNs) seeds i j := by
  have hat : associatedAt seeds gapNs i j = true ↔
      ∃ a b, seeds[i]? = some a ∧ seeds[j]? = some b ∧ Associated gapNs a b := by
    unfold associatedAt
    split
    · rename_i a b ha hb
      simp [ha, hb]
    · rename_i hnone
      simp only [Bool.false_eq_true, false_iff]
      rintro ⟨a, b, ha, hb, _⟩
      exact hnone a b ha hb
  unfold associatedPairs
  simp only [mem_flatMap, mem_map, mem_filter, mem_range, Bool.and_eq_true,
    decide_eq_true_eq, Prod.mk.injEq]
  constructor
  · rintro ⟨_, _, _, ⟨_, hlt, hnear⟩, rfl, rfl⟩
    exact ⟨hlt, hat.mp hnear⟩
  · rintro ⟨hlt, a, b, ha, hb, hnear⟩
    exact ⟨i, (List.getElem?_eq_some_iff.mp ha).1, j,
      ⟨(List.getElem?_eq_some_iff.mp hb).1, hlt, hat.mpr ⟨a, b, ha, hb, hnear⟩⟩, rfl, rfl⟩

theorem connectedComponents_spec (seeds : List PositiveSeed) (gapNs : Nat) :
    ∃ components, connectedComponents seeds gapNs = some components ∧
      Components (Associated gapNs) seeds components ∧
      components.Pairwise (fun a b => componentSortKey a ≤ componentSortKey b) ∧
      ∀ component ∈ components, sortedBy positiveSeedSortKey component = component := by
  unfold connectedComponents
  by_cases hnil : seeds = []
  · rw [hnil]
    exact ⟨[], rfl, ⟨.refl _, by simp, by simp, .nil⟩, .nil, by simp⟩
  · have hcard : (Finset.range seeds.length).card = seeds.length := Finset.card_range _
    have hpairs : ∀ pair ∈ associatedPairs seeds gapNs,
        pair.1 ∈ Finset.range seeds.length ∧ pair.2 ∈ Finset.range seeds.length := by
      rintro ⟨i, j⟩ hmem
      obtain ⟨_, a, b, ha, hb, _⟩ := mem_associatedPairs.mp hmem
      exact ⟨Finset.mem_range.mpr (List.getElem?_eq_some_iff.mp ha).1,
        Finset.mem_range.mpr (List.getElem?_eq_some_iff.mp hb).1⟩
    obtain ⟨parents, root, hunions, htree, hclasses⟩ :=
      PathHalving.unions_spec hpairs (PathHalving.tree_start (Finset.range seeds.length))
        DisjointSet.classes_start
    have hplaces : DisjointSet.Classes root (NearPlaces (Associated gapNs) seeds) := by
      refine hclasses.congr ?_ ?_
      · rintro i j (hfalse | hmem)
        · exact hfalse.elim
        · exact .rel _ _ (mem_associatedPairs.mp hmem)
      · intro i j hij
        exact .rel _ _ (.inr (mem_associatedPairs.mpr hij))
    have hrange : ∀ k ∈ List.range seeds.length, k ∈ Finset.range seeds.length :=
      fun k hk => Finset.mem_range.mpr (mem_range.mp hk)
    have hroots := PathHalving.findAll_spec htree hrange
    rw [hcard] at hunions hroots
    rw [if_neg hnil, hunions]
    have hsymm : ∀ a b, Associated gapNs a b → Associated gapNs b a := fun _ _ h => h.symm
    have hgroups := (components_groupedByRoot hsymm hplaces).map (f := sortedBy positiveSeedSortKey)
      fun g => sortedBy_perm _ g
    refine ⟨_, ?_, hgroups.perm hsymm (sortedBy_perm componentSortKey _).symm,
      sortedBy_pairwise _ _, ?_⟩
    · show (PathHalving.findAll _ _ _ >>= _) = _
      rw [hroots]
      rfl
    · intro component hcomponent
      obtain ⟨g, _, rfl⟩ := mem_map.mp (mem_sortedBy.mp hcomponent)
      exact sortedBy_sortedBy _ _

/-! ## Hulls -/

section Hulls

variable {gapNs : Nat} {seeds : List PositiveSeed} {g g' : List PositiveSeed}

/-- Seeds linked to one that starts no later than a seed of another component end before it. -/
theorem reach_lt_of_linked (hlinked : ∀ a ∈ g, ∀ b ∈ g, LinkedIn (Associated gapNs) g a b)
    {first other : PositiveSeed} (hfirst : first ∈ g)
    (hstart : first.interval.startNs ≤ other.interval.startNs)
    (hapart : ∀ a ∈ g, ¬ Associated gapNs a other) (hlabel : first.label = other.label) :
    ∀ a ∈ g, a.label = other.label ∧ a.interval.endNs + gapNs < other.interval.startNs := by
  have hout : ∀ a ∈ g, a.label = other.label → a.interval.startNs < other.interval.endNs →
      a.interval.endNs + gapNs < other.interval.startNs := by
    intro a ha hsame hbefore
    by_contra hreach
    exact hapart a ha ⟨hsame, by omega, by omega⟩
  have hproper := other.interval.nonempty
  intro a ha
  refine (hlinked first hfirst a ha).invariant (P := fun x => x.label = other.label ∧
    x.interval.endNs + gapNs < other.interval.startNs) ?_
    ⟨hlabel, hout first hfirst hlabel (by omega)⟩
  rintro x _ y hy ⟨hsame, _, hnear⟩ ⟨hx, hpast⟩
  have hy' := hsame.symm.trans hx
  exact ⟨hy', hout y hy hy' (by omega)⟩

/-- The hulls of two groups are more than the gap apart. -/
def HullsApart (gapNs : Nat) (g g' : List PositiveSeed) : Prop :=
  (∀ a ∈ g, ∀ b ∈ g', a.interval.endNs + gapNs < b.interval.startNs) ∨
    ∀ a ∈ g, ∀ b ∈ g', b.interval.endNs + gapNs < a.interval.startNs

theorem hulls_apart {components : List (List PositiveSeed)}
    (h : Components (Associated gapNs) seeds components) :
    components.Pairwise fun g g' =>
      (∃ a ∈ g, ∃ b ∈ g', a.label = b.label) → HullsApart gapNs g g' := by
  have hearliest : ∀ g ∈ components, ∃ first ∈ g, ∀ a ∈ g,
      first.interval.startNs ≤ a.interval.startNs := by
    intro g hg
    obtain ⟨_, _, hmem, hleast⟩ :=
      min?_completes (mt map_eq_nil_iff.mp (h.nonempty g hg) : g.map (·.interval.startNs) ≠ [])
    obtain ⟨first, hfirst, rfl⟩ := mem_map.mp hmem
    exact ⟨first, hfirst, fun a ha => hleast _ (mem_map_of_mem ha)⟩
  have honeLabel : ∀ g ∈ components, ∀ a ∈ g, ∀ b ∈ g, b.label = a.label :=
    fun g hg a ha b hb => (h.connected g hg a ha b hb).invariant (P := (·.label = a.label))
      (fun _ _ _ _ hnear hx => hnear.1.symm.trans hx) rfl
  refine h.apart.imp_of_mem ?_
  rintro g g' hg hg' hapart ⟨a, ha, b, hb, hlabel⟩
  obtain ⟨first, hfirst, hleast⟩ := hearliest g hg
  obtain ⟨first', hfirst', hleast'⟩ := hearliest g' hg'
  have hsame : first.label = first'.label :=
    (honeLabel g hg a ha first hfirst).trans (hlabel.trans (honeLabel g' hg' b hb first' hfirst').symm)
  rcases le_total first.interval.startNs first'.interval.startNs with hle | hle
  · left
    intro x hx y hy
    have hreach := (reach_lt_of_linked (h.connected g hg) hfirst hle
      (fun z hz => hapart z hz first' hfirst') hsame x hx).2
    have hlater := hleast' y hy
    omega
  · right
    intro x hx y hy
    have hreach := (reach_lt_of_linked (h.connected g' hg') hfirst' hle
      (fun z hz hnear => hapart first hfirst z hz hnear.symm) hsame.symm y hy).2
    have hlater := hleast x hx
    omega

end Hulls

end Robata.PhysicalActions
