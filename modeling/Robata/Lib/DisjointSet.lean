import Mathlib.Data.Finset.Card
import Mathlib.Logic.Function.Basic
import Mathlib.Logic.Relation
import Mathlib.Tactic

/-!
# Disjoint sets

Union by size with compressed paths, over keys of any type.  `parents` and `sizes` are total: a key
that has never been joined is its own parent and has size one.  A `find` climbs to the root, with
fuel; `Forest` says that the parents form a forest whose roots know the sizes of their trees, which
bounds every climb, and `find_spec` and `union_spec` say what the operations do to the partition
into trees.  After a list of unions two keys are in one tree exactly if the pairs link them.
-/

namespace Robata.Lib

open Function (update update_of_ne update_self)

/-- The parents and the sizes of the trees. -/
structure DisjointSet (κ : Type) where
  parents : κ → κ
  sizes : κ → Nat

namespace DisjointSet

variable {κ : Type}

/-- Every key on its own. -/
def start : DisjointSet κ := ⟨id, fun _ => 1⟩

section Operations

variable [DecidableEq κ]

/-- `while parent != parents[parent]: parent = parents[parent]`. -/
def climb (parents : κ → κ) : Nat → κ → Option κ
  | 0, _ => none
  | fuel + 1, parent =>
    if parent ≠ parents parent then climb parents fuel (parents parent) else some parent

/-- The root of a key, which becomes its parent. -/
def find (fuel : Nat) (d : DisjointSet κ) (key : κ) : Option (κ × DisjointSet κ) :=
  (climb d.parents fuel (d.parents key)).map fun root =>
    (root, { d with parents := update d.parents key root })

/-- The size of the tree of a key. -/
def componentSize (fuel : Nat) (d : DisjointSet κ) (key : κ) : Option (Nat × DisjointSet κ) :=
  (d.find fuel key).map fun found => (found.2.sizes found.1, found.2)

/-- The smaller of two trees is put under the root of the larger one. -/
def link [LinearOrder κ] (d : DisjointSet κ) (leftRoot rightRoot : κ) : DisjointSet κ :=
  let swap := d.sizes leftRoot < d.sizes rightRoot ∨
    (d.sizes leftRoot = d.sizes rightRoot ∧ leftRoot < rightRoot)
  let (above, below) := if swap then (rightRoot, leftRoot) else (leftRoot, rightRoot)
  { parents := update d.parents below above
    sizes := update d.sizes above (d.sizes above + d.sizes below) }

end Operations

variable [LinearOrder κ]

/-- The trees of two keys become one. -/
def union (fuel : Nat) (d : DisjointSet κ) (left right : κ) : Option (DisjointSet κ) := do
  let (leftRoot, d) ← d.find fuel left
  let (rightRoot, d) ← d.find fuel right
  if leftRoot = rightRoot then some d else some (d.link leftRoot rightRoot)

/-- The roots of keys, one after another. -/
def findAll (fuel : Nat) (d : DisjointSet κ) : List κ → Option (List κ × DisjointSet κ)
  | [] => some ([], d)
  | key :: rest => do
      let (root, d) ← d.find fuel key
      let (roots, d) ← findAll fuel d rest
      return (root :: roots, d)

/-! ## Forests -/

/-- The parents form a forest with the given roots over a set of keys. -/
structure Forest (keys : Finset κ) (d : DisjointSet κ) (root : κ → κ) : Prop where
  fixed : ∀ k, d.parents (root k) = root k
  parent : ∀ k, root (d.parents k) = root k
  self : ∀ k, d.parents k = k → root k = k
  inside : ∀ k ∈ keys, root k ∈ keys
  size : ∀ k ∈ keys, d.sizes (root k) = (keys.filter fun j => root j = root k).card
  depth : ∃ depth : κ → Nat, (∀ k, d.parents k ≠ k → depth (d.parents k) < depth k) ∧
    ∀ k, depth k < d.sizes (root k)

variable {keys : Finset κ} {d : DisjointSet κ} {root : κ → κ}

theorem forest_start (keys : Finset κ) : Forest keys start id where
  fixed := fun _ => rfl
  parent := fun _ => rfl
  self := fun _ _ => rfl
  inside := fun _ hk => hk
  size := by
    intro k hk
    have hone : (keys.filter fun j => id j = id k) = {k} := by
      ext j
      simp only [Finset.mem_filter, Finset.mem_singleton]
      exact ⟨fun h => h.2, fun h => ⟨h ▸ hk, h⟩⟩
    rw [hone]
    rfl
  depth := ⟨fun _ => 0, fun k hk => absurd rfl hk, fun _ => Nat.one_pos⟩

namespace Forest

section

variable (h : Forest keys d root)
include h

theorem root_root (k : κ) : root (root k) = root k :=
  h.self _ (h.fixed k)

theorem climb_eq {depth : κ → Nat}
    (hdepth : ∀ k, d.parents k ≠ k → depth (d.parents k) < depth k) {fuel : Nat} {k : κ}
    (hfuel : depth k < fuel) : climb d.parents fuel k = some (root k) := by
  induction fuel generalizing k with
  | zero => exact absurd hfuel (Nat.not_lt_zero _)
  | succ fuel ih =>
    unfold climb
    by_cases hroot : d.parents k = k
    · rw [if_neg (not_not.mpr hroot.symm), h.self k hroot]
    · have hless := hdepth k hroot
      rw [if_pos (Ne.symm hroot), ih (by omega), h.parent]

theorem size_le {k : κ} (hk : k ∈ keys) : d.sizes (root k) ≤ keys.card := by
  rw [h.size k hk]
  exact Finset.card_filter_le _ _

theorem compress (key : κ) :
    Forest keys { d with parents := update d.parents key (root key) } root := by
  obtain ⟨depth, hless, hbound⟩ := h.depth
  have hle : ∀ n k, depth k = n → depth (root k) ≤ n ∧ (root k ≠ k → depth (root k) < n) := by
    intro n
    induction n using Nat.strong_induction_on with
    | _ n ih =>
      rintro k rfl
      by_cases hroot : d.parents k = k
      · rw [h.self k hroot]
        exact ⟨le_refl _, fun hne => absurd rfl hne⟩
      · have hparent := (ih _ (hless k hroot) (d.parents k) rfl).1
        rw [h.parent] at hparent
        have hstep := hless k hroot
        exact ⟨by omega, fun _ => by omega⟩
  constructor
  case fixed =>
    intro k
    dsimp only
    by_cases hk : root k = key
    · have hroot : root key = key := by rw [← hk, h.root_root]
      rw [hk, update_self, hroot]
    · rw [update_of_ne hk]
      exact h.fixed k
  case parent =>
    intro k
    dsimp only
    by_cases hk : k = key
    · rw [hk, update_self, h.root_root]
    · rw [update_of_ne hk]
      exact h.parent k
  case self =>
    intro k hself
    dsimp only at hself
    by_cases hk : k = key
    · rw [hk, update_self] at hself
      rw [hk, hself]
    · rw [update_of_ne hk] at hself
      exact h.self k hself
  case inside => exact h.inside
  case size => exact h.size
  case depth =>
    refine ⟨depth, ?_, hbound⟩
    intro k hne
    dsimp only at hne ⊢
    by_cases hk : k = key
    · subst hk
      rw [update_self] at hne ⊢
      exact (hle _ k rfl).2 hne
    · rw [update_of_ne hk] at hne ⊢
      exact hless k hne

theorem find_spec {key : κ} (hkey : key ∈ keys) :
    ∃ d', d.find keys.card key = some (root key, d') ∧ d'.sizes = d.sizes ∧
      Forest keys d' root := by
  obtain ⟨depth, hless, hbound⟩ := h.depth
  have hclimb : climb d.parents keys.card (d.parents key) = some (root key) := by
    rw [h.climb_eq hless, h.parent]
    have hparent := hbound (d.parents key)
    rw [h.parent] at hparent
    exact lt_of_lt_of_le hparent (h.size_le hkey)
  refine ⟨{ d with parents := update d.parents key (root key) }, ?_, rfl, h.compress key⟩
  unfold find
  rw [hclimb]
  rfl

theorem findAll_spec {items : List κ} (hitems : ∀ k ∈ items, k ∈ keys) :
    ∃ d', d.findAll keys.card items = some (items.map root, d') := by
  induction items generalizing d with
  | nil => exact ⟨d, rfl⟩
  | cons key rest ih =>
    obtain ⟨d₁, hfind, -, hforest⟩ := h.find_spec (hitems key List.mem_cons_self)
    obtain ⟨d₂, hrest⟩ := ih hforest fun k hk => hitems k (List.mem_cons_of_mem _ hk)
    refine ⟨d₂, ?_⟩
    unfold findAll
    rw [hfind]
    show (d₁.findAll keys.card rest >>= _) = _
    rw [hrest]
    rfl

theorem componentSize_spec {key : κ} (hkey : key ∈ keys) :
    ∃ d', d.componentSize keys.card key = some (d.sizes (root key), d') ∧ d'.sizes = d.sizes ∧
      Forest keys d' root := by
  obtain ⟨d', hfind, hsizes, hforest⟩ := h.find_spec hkey
  refine ⟨d', ?_, hsizes, hforest⟩
  unfold componentSize
  rw [hfind, Option.map_some, hsizes]

theorem sizes_add_le {left right : κ} (hleft : left ∈ keys)
    (hright : right ∈ keys) (hne : root left ≠ root right) :
    d.sizes (root left) + d.sizes (root right) ≤ keys.card := by
  rw [h.size left hleft, h.size right hright, ← Finset.card_union_of_disjoint]
  · apply Finset.card_le_card
    exact Finset.union_subset (Finset.filter_subset _ _) (Finset.filter_subset _ _)
  · rw [Finset.disjoint_left]
    intro j hj hj'
    exact hne ((Finset.mem_filter.mp hj).2.symm.trans (Finset.mem_filter.mp hj').2)

theorem graft {above below : κ} (habove : above ∈ keys)
    (hbelow : below ∈ keys) (haboveRoot : root above = above) (hbelowRoot : root below = below)
    (hne : above ≠ below) :
    Forest keys
      { parents := update d.parents below above
        sizes := update d.sizes above (d.sizes above + d.sizes below) }
      (fun k => if root k = below then above else root k) := by
  have haboveParent : d.parents above = above := haboveRoot ▸ h.fixed above
  obtain ⟨depth, hless, hbound⟩ := h.depth
  constructor
  case fixed =>
    intro k
    by_cases hk : root k = below
    · simp only [hk, ↓reduceIte]
      rw [update_of_ne hne, haboveParent]
    · simp only [hk, ↓reduceIte]
      rw [update_of_ne hk, h.fixed]
  case parent =>
    intro k
    by_cases hk : k = below
    · subst hk
      simp only [update_self, haboveRoot, hbelowRoot, hne, ↓reduceIte]
    · simp only [update_of_ne hk, h.parent]
  case self =>
    intro k hself
    dsimp only at hself ⊢
    by_cases hk : k = below
    · rw [hk, update_self] at hself
      exact absurd hself hne
    · rw [update_of_ne hk] at hself
      simp only [h.self k hself, hk, ↓reduceIte]
  case inside =>
    intro k hk
    by_cases hroot : root k = below
    · simpa only [hroot, ↓reduceIte] using habove
    · simpa only [hroot, ↓reduceIte] using h.inside k hk
  case size =>
    intro k hk
    dsimp only
    have hsizeAbove := h.size above habove
    have hsizeBelow := h.size below hbelow
    rw [haboveRoot] at hsizeAbove
    rw [hbelowRoot] at hsizeBelow
    by_cases hmerged : root k = below ∨ root k = above
    · have hroot : (if root k = below then above else root k) = above := by
        rcases hmerged with hk' | hk'
        · rw [if_pos hk']
        · rw [hk', if_neg hne]
      rw [hroot, update_self, hsizeAbove, hsizeBelow, ← Finset.card_union_of_disjoint]
      · congr 1
        ext j
        by_cases hj : root j = below
        · simp [hj, hne.symm]
        · simp [hj]
      · rw [Finset.disjoint_left]
        intro j hj hj'
        exact hne ((Finset.mem_filter.mp hj).2.symm.trans (Finset.mem_filter.mp hj').2)
    · have hbelow' : root k ≠ below := fun heq => hmerged (.inl heq)
      have habove' : root k ≠ above := fun heq => hmerged (.inr heq)
      rw [if_neg hbelow', update_of_ne habove', h.size k hk]
      congr 1
      ext j
      by_cases hj : root j = below
      · simp [hj, hbelow'.symm, habove'.symm]
      · simp [hj]
  case depth =>
    refine ⟨fun k => if root k = below then depth k + depth above + 1 else depth k, ?_, ?_⟩
    · intro k hne'
      dsimp only at hne' ⊢
      by_cases hk : k = below
      · subst hk
        rw [update_self]
        simp only [haboveRoot, hbelowRoot, hne, ↓reduceIte]
        omega
      · rw [update_of_ne hk] at hne' ⊢
        have hstep := hless k hne'
        simp only [h.parent]
        by_cases hroot : root k = below
        · simp only [hroot, ↓reduceIte]
          omega
        · simpa only [hroot, ↓reduceIte] using hstep
    · intro k
      have hdepth := hbound k
      have hdepthAbove := hbound above
      rw [haboveRoot] at hdepthAbove
      by_cases hroot : root k = below
      · rw [hroot] at hdepth
        simp only [hroot, ↓reduceIte, update_self]
        omega
      · simp only [hroot, ↓reduceIte]
        by_cases hroot' : root k = above
        · rw [hroot'] at hdepth ⊢
          rw [update_self]
          omega
        · rwa [update_of_ne hroot']

end

/-- The tree that two keys have become. -/
def Joined (root root' : κ → κ) (left right : κ) : Prop :=
  ∀ x y, root' x = root' y ↔ root x = root y ∨ (root x = root left ∧ root y = root right) ∨
    (root x = root right ∧ root y = root left)

theorem joined_graft (root : κ → κ) {left right above below : κ}
    (hpair : (above = root left ∧ below = root right) ∨ (above = root right ∧ below = root left)) :
    Joined root (fun k => if root k = below then above else root k) left right := by
  intro x y
  rcases hpair with ⟨rfl, rfl⟩ | ⟨rfl, rfl⟩
  all_goals
    dsimp only
    split_ifs with hx hy hy
    · simp [hx, hy]
    · constructor
      · intro heq
        simp [hx, ← heq]
      · rintro (heq | ⟨-, heq⟩ | ⟨heq, heq'⟩)
        · exact absurd (heq.symm.trans hx) hy
        · first | exact absurd heq hy | exact heq.symm
        · first | exact heq'.symm | exact absurd heq' hy
    · constructor
      · intro heq
        simp [hy, heq]
      · rintro (heq | ⟨heq, heq'⟩ | ⟨heq, heq'⟩)
        · exact absurd (heq.trans hy) hx
        · first | exact heq | exact absurd heq hx
        · first | exact heq | exact absurd heq hx
    · constructor
      · exact .inl
      · rintro (heq | ⟨heq, heq'⟩ | ⟨heq, heq'⟩)
        · exact heq
        · first | exact absurd heq hx | exact absurd heq' hy
        · first | exact absurd heq hx | exact absurd heq' hy

/-- With fuel for every key, `union` joins the trees of two keys and no others. -/
theorem union_spec (h : Forest keys d root) {left right : κ} (hleft : left ∈ keys)
    (hright : right ∈ keys) :
    ∃ d' root', d.union keys.card left right = some d' ∧ Forest keys d' root' ∧
      Joined root root' left right := by
  obtain ⟨d₁, hfind₁, -, hforest₁⟩ := h.find_spec hleft
  obtain ⟨d₂, hfind₂, -, hforest₂⟩ := hforest₁.find_spec hright
  have hunion : d.union keys.card left right =
      if root left = root right then some d₂ else some (d₂.link (root left) (root right)) := by
    unfold union
    rw [hfind₁]
    show (d₁.find keys.card right >>= _) = _
    rw [hfind₂]
    rfl
  rw [hunion]
  by_cases hsame : root left = root right
  · rw [if_pos hsame]
    refine ⟨d₂, root, rfl, hforest₂, ?_⟩
    intro x y
    constructor
    · exact .inl
    · rintro (heq | ⟨hx, hy⟩ | ⟨hx, hy⟩)
      · exact heq
      · rw [hx, hy, hsame]
      · rw [hx, hy, hsame]
  · rw [if_neg hsame]
    have hleft' := h.inside left hleft
    have hright' := h.inside right hright
    unfold link
    by_cases hswap : d₂.sizes (root left) < d₂.sizes (root right) ∨
        (d₂.sizes (root left) = d₂.sizes (root right) ∧ root left < root right)
    · simp only [hswap]
      exact ⟨_, _, rfl, hforest₂.graft hright' hleft' (h.root_root right) (h.root_root left)
        (Ne.symm hsame), joined_graft root (.inr ⟨rfl, rfl⟩)⟩
    · simp only [hswap]
      exact ⟨_, _, rfl, hforest₂.graft hleft' hright' (h.root_root left) (h.root_root right)
        hsame, joined_graft root (.inl ⟨rfl, rfl⟩)⟩

end Forest

/-! ## Lists of unions -/

/-- The trees are the classes of the keys under the pairs. -/
def Classes (root : κ → κ) (linked : κ → κ → Prop) : Prop :=
  ∀ x y, root x = root y ↔ Relation.EqvGen linked x y

omit [LinearOrder κ] in
theorem classes_start : Classes (id : κ → κ) fun _ _ => False := by
  intro x y
  constructor
  · rintro rfl
    exact .refl _
  · intro h
    induction h with
    | rel _ _ hfalse => exact hfalse.elim
    | refl => rfl
    | symm _ _ _ ih => exact ih.symm
    | trans _ _ _ _ _ ih₁ ih₂ => exact ih₁.trans ih₂

omit [LinearOrder κ] in
variable {linked : κ → κ → Prop}

theorem Classes.join {root' : κ → κ} {left right : κ}
    (h : Classes root linked) (hjoined : Forest.Joined root root' left right) :
    Classes root' fun x y => linked x y ∨ (x = left ∧ y = right) := by
  have hmono : ∀ {x y}, root x = root y →
      Relation.EqvGen (fun x y => linked x y ∨ (x = left ∧ y = right)) x y := by
    intro x y heq
    exact ((h x y).mp heq).mono fun _ _ hlinked => .inl hlinked
  have hpair : Relation.EqvGen (fun x y => linked x y ∨ (x = left ∧ y = right)) left right :=
    .rel _ _ (.inr ⟨rfl, rfl⟩)
  intro x y
  rw [hjoined]
  constructor
  · rintro (heq | ⟨hx, hy⟩ | ⟨hx, hy⟩)
    · exact hmono heq
    · exact .trans _ _ _ (hmono hx) (.trans _ _ _ hpair (hmono hy.symm))
    · exact .trans _ _ _ (hmono hx) (.trans _ _ _ (.symm _ _ hpair) (hmono hy.symm))
  · intro hlinked
    rw [← hjoined]
    induction hlinked with
    | rel a b hab =>
      rcases hab with hab | ⟨rfl, rfl⟩
      · exact (hjoined a b).mpr (.inl ((h a b).mpr (.rel _ _ hab)))
      · exact (hjoined a b).mpr (.inr (.inl ⟨rfl, rfl⟩))
    | refl => rfl
    | symm _ _ _ ih => exact ih.symm
    | trans _ _ _ _ _ ih₁ ih₂ => exact ih₁.trans ih₂

omit [LinearOrder κ] in
theorem Classes.congr {linked' : κ → κ → Prop} (h : Classes root linked)
    (hto : ∀ x y, linked x y → Relation.EqvGen linked' x y)
    (hback : ∀ x y, linked' x y → Relation.EqvGen linked x y) : Classes root linked' := by
  have hgen : ∀ {r s : κ → κ → Prop}, (∀ x y, r x y → Relation.EqvGen s x y) →
      ∀ x y, Relation.EqvGen r x y → Relation.EqvGen s x y := by
    intro r s hrs x y hxy
    induction hxy with
    | rel _ _ hab => exact hrs _ _ hab
    | refl _ => exact .refl _
    | symm _ _ _ ih => exact .symm _ _ ih
    | trans _ _ _ _ _ ih₁ ih₂ => exact .trans _ _ _ ih₁ ih₂
  intro x y
  rw [h x y]
  exact ⟨hgen hto x y, hgen hback x y⟩

omit [LinearOrder κ] in
theorem exists_linked {x y : κ} (h : Relation.EqvGen linked x y)
    (hne : x ≠ y) : ∃ z, linked x z ∨ linked z x := by
  -- both ends are linked, so that the induction can turn a class around
  have hends : x = y ∨ ((∃ z, linked x z ∨ linked z x) ∧ ∃ z, linked y z ∨ linked z y) := by
    clear hne
    induction h with
    | rel a b hab => exact .inr ⟨⟨b, .inl hab⟩, ⟨a, .inr hab⟩⟩
    | refl _ => exact .inl rfl
    | symm a b _ ih =>
      rcases ih with heq | ⟨ha, hb⟩
      · exact .inl heq.symm
      · exact .inr ⟨hb, ha⟩
    | trans a b c _ _ ih₁ ih₂ =>
      rcases ih₁ with rfl | ⟨ha, hb⟩
      · exact ih₂
      · rcases ih₂ with rfl | ⟨-, hc⟩
        · exact .inr ⟨ha, hb⟩
        · exact .inr ⟨ha, hc⟩
  exact (hends.resolve_left hne).1

end DisjointSet
end Robata.Lib
