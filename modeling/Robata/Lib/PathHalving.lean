import Robata.Lib.DisjointSet

/-!
# Disjoint sets with halved paths

A disjoint set that keeps parents only: `find` lets every node on its way point to its grandparent,
and `union` puts the right root under the left one.  The sizes of the trees, which bound the way,
are not kept; they are there as a witness in `Tree`.
-/

namespace Robata.Lib

open Function (update update_of_ne update_self)
namespace PathHalving

open DisjointSet List

variable {κ : Type} [LinearOrder κ]

/-- `while parents[i] != i: parents[i] = parents[parents[i]]; i = parents[i]`, with fuel. -/
def find : Nat → (κ → κ) → κ → Option (κ × (κ → κ))
  | 0, _, _ => none
  | fuel + 1, parents, i =>
    if parents i ≠ i then
      find fuel (update parents i (parents (parents i))) (parents (parents i))
    else some (i, parents)

/-- The right root is put under the left one. -/
def union (fuel : Nat) (parents : κ → κ) (left right : κ) : Option (κ → κ) := do
  let (leftRoot, parents) ← find fuel parents left
  let (rightRoot, parents) ← find fuel parents right
  return if leftRoot ≠ rightRoot then update parents rightRoot leftRoot else parents

/-- Pairs joined one after another. -/
def unions (fuel : Nat) (parents : κ → κ) (pairs : List (κ × κ)) : Option (κ → κ) :=
  pairs.foldlM (fun parents pair => union fuel parents pair.1 pair.2) parents

/-- The roots of keys, one after another. -/
def findAll (fuel : Nat) (parents : κ → κ) : List κ → Option (List κ)
  | [] => some []
  | key :: rest => do
      let (root, parents) ← find fuel parents key
      let roots ← findAll fuel parents rest
      return root :: roots

/-- The parents form a forest with the given roots over a set of keys. -/
def Tree (keys : Finset κ) (parents root : κ → κ) : Prop :=
  ∃ sizes, Forest keys ⟨parents, sizes⟩ root

variable {keys : Finset κ} {parents root : κ → κ}

theorem tree_start (keys : Finset κ) : Tree keys (id : κ → κ) id := ⟨_, forest_start keys⟩

theorem halve {sizes : κ → Nat} (h : Forest keys ⟨parents, sizes⟩ root) {depth : κ → Nat}
    (hdepth : ∀ k, parents k ≠ k → depth (parents k) < depth k)
    (hbound : ∀ k, depth k < sizes (root k)) (i : κ) :
    Forest keys ⟨update parents i (parents (parents i)), sizes⟩ root ∧
      ∀ k, update parents i (parents (parents i)) k ≠ k →
        depth (update parents i (parents (parents i)) k) < depth k := by
  have hgrand : ∀ k, root (parents (parents k)) = root k := fun k => by
    have hup := h.parent (parents k)
    have hk := h.parent k
    exact hup.trans hk
  have hless : ∀ k, update parents i (parents (parents i)) k ≠ k →
      depth (update parents i (parents (parents i)) k) < depth k := by
    intro k hne
    by_cases hk : k = i
    · subst hk
      rw [update_self] at hne ⊢
      have hself : parents k ≠ k := fun heq => hne (by rw [heq, heq])
      by_cases hparent : parents (parents k) = parents k
      · rw [hparent]
        exact hdepth k hself
      · exact (hdepth _ hparent).trans (hdepth k hself)
    · rw [update_of_ne hk] at hne ⊢
      exact hdepth k hne
  refine ⟨?_, hless⟩
  constructor
  case fixed =>
    intro k
    dsimp only
    have hroot : parents (root k) = root k := h.fixed k
    by_cases hk : root k = i
    · rw [← hk, update_self, hroot, hroot]
    · rw [update_of_ne hk, hroot]
  case parent =>
    intro k
    dsimp only
    by_cases hk : k = i
    · rw [hk, update_self, hgrand]
    · rw [update_of_ne hk]
      exact h.parent k
  case self =>
    intro k hself
    dsimp only at hself
    by_cases hk : k = i
    · subst hk
      rw [update_self] at hself
      -- a node that is its own grandparent is its own parent, or the depth would fall twice
      by_contra hroot
      have hne : parents k ≠ k := fun heq => hroot (h.self k heq)
      have hfirst := hdepth k hne
      have hsecond : depth (parents (parents k)) < depth (parents k) := by
        apply hdepth
        rw [hself]
        exact hne.symm
      rw [hself] at hsecond
      omega
    · rw [update_of_ne hk] at hself
      exact h.self k hself
  case inside => exact h.inside
  case size => exact h.size
  case depth => exact ⟨depth, hless, hbound⟩

/-- With more fuel than the depth, `find` gives the root and keeps the forest. -/
theorem find_eq {sizes : κ → Nat} {depth : κ → Nat} (hbound : ∀ k, depth k < sizes (root k)) :
    ∀ {fuel : Nat} {parents : κ → κ} {i : κ}, Forest keys ⟨parents, sizes⟩ root →
      (∀ k, parents k ≠ k → depth (parents k) < depth k) → depth i < fuel →
      ∃ parents', find fuel parents i = some (root i, parents') ∧ Tree keys parents' root := by
  intro fuel
  induction fuel with
  | zero =>
    intro parents i _ _ hfuel
    exact absurd hfuel (Nat.not_lt_zero _)
  | succ fuel ih =>
    intro parents i h hdepth hfuel
    unfold find
    by_cases hself : parents i = i
    · rw [if_neg (not_not.mpr hself)]
      exact ⟨parents, by rw [h.self i hself], ⟨sizes, h⟩⟩
    · rw [if_pos hself]
      obtain ⟨hhalved, hless⟩ := halve h hdepth hbound i
      have hgrand : root (parents (parents i)) = root i := (h.parent (parents i)).trans (h.parent i)
      have hshort : depth (parents (parents i)) < fuel := by
        have hfirst := hdepth i hself
        by_cases hparent : parents (parents i) = parents i
        · rw [hparent]
          omega
        · have hsecond := hdepth _ hparent
          omega
      obtain ⟨parents', hfind, htree⟩ := ih hhalved hless hshort
      rw [hgrand] at hfind
      exact ⟨parents', hfind, htree⟩

theorem find_spec (h : Tree keys parents root) {key : κ} (hkey : key ∈ keys) :
    ∃ parents', find keys.card parents key = some (root key, parents') ∧
      Tree keys parents' root := by
  obtain ⟨sizes, hforest⟩ := h
  obtain ⟨depth, hdepth, hbound⟩ := hforest.depth
  have hle : sizes (root key) ≤ keys.card := by
    have hsize : sizes (root key) = (keys.filter fun j => root j = root key).card :=
      hforest.size key hkey
    rw [hsize]
    exact Finset.card_filter_le _ _
  exact find_eq hbound hforest hdepth (lt_of_lt_of_le (hbound key) hle)

theorem findAll_spec {items : List κ} (h : Tree keys parents root) (hitems : ∀ k ∈ items, k ∈ keys) :
    findAll keys.card parents items = some (items.map root) := by
  induction items generalizing parents with
  | nil => rfl
  | cons key rest ih =>
    obtain ⟨parents', hfind, htree⟩ := find_spec h (hitems key mem_cons_self)
    have hrest := ih htree fun k hk => hitems k (mem_cons_of_mem _ hk)
    unfold findAll
    rw [hfind]
    show (findAll keys.card parents' rest >>= _) = _
    rw [hrest]
    rfl

/-- With fuel for every key, `union` joins the trees of two keys and no others. -/
theorem union_spec (h : Tree keys parents root) {left right : κ} (hleft : left ∈ keys)
    (hright : right ∈ keys) :
    ∃ parents' root', union keys.card parents left right = some parents' ∧
      Tree keys parents' root' ∧ Forest.Joined root root' left right := by
  obtain ⟨parents₁, hfind₁, htree₁⟩ := find_spec h hleft
  obtain ⟨parents₂, hfind₂, sizes, hforest⟩ := find_spec htree₁ hright
  have hunion : union keys.card parents left right =
      some (if root left ≠ root right then update parents₂ (root right) (root left)
        else parents₂) := by
    unfold union
    rw [hfind₁]
    show (find keys.card parents₁ right >>= _) = _
    rw [hfind₂]
    rfl
  rw [hunion]
  by_cases hsame : root left = root right
  · rw [if_neg (not_not.mpr hsame)]
    refine ⟨parents₂, root, rfl, ⟨sizes, hforest⟩, ?_⟩
    intro x y
    constructor
    · exact .inl
    · rintro (heq | ⟨hx, hy⟩ | ⟨hx, hy⟩)
      · exact heq
      · rw [hx, hy, hsame]
      · rw [hx, hy, hsame]
  · rw [if_pos hsame]
    exact ⟨_, _, rfl, ⟨_, hforest.graft (hforest.inside left hleft) (hforest.inside right hright)
      (hforest.root_root left) (hforest.root_root right) hsame⟩,
      Forest.joined_graft root (.inl ⟨rfl, rfl⟩)⟩

/-- After a list of unions two keys are in one tree exactly if the pairs link them. -/
theorem unions_spec {pairs : List (κ × κ)} (hpairs : ∀ pair ∈ pairs, pair.1 ∈ keys ∧ pair.2 ∈ keys)
    {linked : κ → κ → Prop} (h : Tree keys parents root) (hclasses : Classes root linked) :
    ∃ parents' root', unions keys.card parents pairs = some parents' ∧ Tree keys parents' root' ∧
      Classes root' fun x y => linked x y ∨ (x, y) ∈ pairs := by
  induction pairs generalizing parents root linked with
  | nil =>
    refine ⟨parents, root, rfl, h, hclasses.congr ?_ ?_⟩
    · exact fun x y hxy => .rel _ _ (.inl hxy)
    · rintro x y (hxy | hmem)
      · exact .rel _ _ hxy
      · exact absurd hmem not_mem_nil
  | cons pair rest ih =>
    obtain ⟨hleft, hright⟩ := hpairs pair mem_cons_self
    obtain ⟨parents₁, root₁, hunion, htree₁, hjoined⟩ := union_spec h hleft hright
    obtain ⟨parents₂, root₂, hrest, htree₂, hclasses₂⟩ :=
      ih (fun p hp => hpairs p (mem_cons_of_mem _ hp)) htree₁ (hclasses.join hjoined)
    refine ⟨parents₂, root₂, ?_, htree₂, hclasses₂.congr ?_ ?_⟩
    · unfold unions at hrest ⊢
      rw [foldlM_cons, hunion]
      exact hrest
    · rintro x y ((hxy | ⟨rfl, rfl⟩) | hmem)
      · exact .rel _ _ (.inl hxy)
      · exact .rel _ _ (.inr mem_cons_self)
      · exact .rel _ _ (.inr (mem_cons_of_mem _ hmem))
    · rintro x y (hxy | hmem)
      · exact .rel _ _ (.inl (.inl hxy))
      · rcases mem_cons.mp hmem with rfl | hmem
        · exact .rel _ _ (.inl (.inr ⟨rfl, rfl⟩))
        · exact .rel _ _ (.inr hmem)

end PathHalving
end Robata.Lib
