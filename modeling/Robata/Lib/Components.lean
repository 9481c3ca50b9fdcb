import Robata.Lib.DisjointSet
import Robata.Lib.Grouping

/-!
# Connected components of a list

A list of groups is the connected components of a list of items under a symmetric relation if the
groups share the items out, the items of each are linked through it, and no item of one group is
near one of another.  Items grouped by the roots of a disjoint set are such groups.
-/

namespace Robata.Lib

open List

variable {α κ : Type}

/-- Two items that are linked through items of a group. -/
def LinkedIn (near : α → α → Prop) (group : List α) : α → α → Prop :=
  Relation.ReflTransGen fun a b => a ∈ group ∧ b ∈ group ∧ near a b

/-- The groups are the connected components of the items. -/
structure Components (near : α → α → Prop) (items : List α) (groups : List (List α)) : Prop where
  partition : groups.flatten.Perm items
  nonempty : ∀ g ∈ groups, g ≠ []
  connected : ∀ g ∈ groups, ∀ a ∈ g, ∀ b ∈ g, LinkedIn near g a b
  apart : groups.Pairwise fun g g' => ∀ a ∈ g, ∀ b ∈ g', ¬near a b

variable {near : α → α → Prop} {items : List α} {groups : List (List α)}

variable {group : List α} {a b : α}

theorem LinkedIn.symm (hsymm : ∀ a b, near a b → near b a) (h : LinkedIn near group a b) :
    LinkedIn near group b a :=
  have : Std.Symm fun a b => a ∈ group ∧ b ∈ group ∧ near a b :=
    ⟨fun _ _ ⟨hx, hy, hnear⟩ => ⟨hy, hx, hsymm _ _ hnear⟩⟩
  Relation.ReflTransGen.stdSymm.symm _ _ h

theorem LinkedIn.congr {group' : List α} (hmem : ∀ a ∈ group, a ∈ group')
    (h : LinkedIn near group a b) : LinkedIn near group' a b :=
  Relation.ReflTransGen.mono
    (fun _ _ ⟨hx, hy, hnear⟩ => ⟨hmem _ hx, hmem _ hy, hnear⟩) _ _ h

/-- What holds of one item of a link, and passes from an item to one near it, holds of the other. -/
theorem LinkedIn.invariant {P : α → Prop} (hstep : ∀ a ∈ group, ∀ b ∈ group, near a b → P a → P b)
    (h : LinkedIn near group a b) (ha : P a) : P b := by
  induction h with
  | refl => exact ha
  | tail _ hlast ih =>
    obtain ⟨hx, hy, hnear⟩ := hlast
    exact hstep _ hx _ hy hnear ih

theorem Components.perm (hsymm : ∀ a b, near a b → near b a) (h : Components near items groups)
    {groups' : List (List α)} (hperm : groups.Perm groups') : Components near items groups' where
  partition := hperm.flatten.symm.trans h.partition
  nonempty := fun g hg => h.nonempty g (hperm.mem_iff.mpr hg)
  connected := fun g hg => h.connected g (hperm.mem_iff.mpr hg)
  apart := (hperm.pairwise_iff fun hab b hb a ha hnear => hab a ha b hb (hsymm _ _ hnear)).mp h.apart

theorem Components.map (h : Components near items groups) {f : List α → List α}
    (hf : ∀ g, (f g).Perm g) : Components near items (groups.map f) where
  partition := by
    refine List.Perm.trans ?_ h.partition
    clear h
    induction groups with
    | nil => exact .refl _
    | cons g rest ih =>
      exact (hf g).append ih
  nonempty := by
    intro g' hg' hnil
    obtain ⟨g, hg, rfl⟩ := mem_map.mp hg'
    exact h.nonempty g hg (List.Perm.nil_eq (hnil ▸ (hf g))).symm
  connected := by
    intro g' hg' a ha b hb
    obtain ⟨g, hg, rfl⟩ := mem_map.mp hg'
    exact (h.connected g hg a ((hf g).mem_iff.mp ha) b ((hf g).mem_iff.mp hb)).congr
      fun x hx => (hf g).mem_iff.mpr hx
  apart := by
    rw [pairwise_map]
    exact h.apart.imp fun hab a ha b hb => hab a ((hf _).mem_iff.mp ha) b ((hf _).mem_iff.mp hb)

/-! ## Buckets -/

section Buckets

variable [DecidableEq κ] {key : α → κ}

theorem flatMap_inBucket_perm {keys : List κ} (hnodup : keys.Nodup) :
    ∀ {items : List α}, (∀ a ∈ items, key a ∈ keys) →
      (keys.flatMap fun k => inBucket key items k).Perm items := by
  induction keys with
  | nil =>
    intro items hkeys
    cases items with
    | nil => exact .refl _
    | cons a rest => exact absurd (hkeys a mem_cons_self) not_mem_nil
  | cons k rest ih =>
    intro items hkeys
    obtain ⟨hfresh, hrest⟩ := nodup_cons.mp hnodup
    have hothers : ∀ k' ∈ rest, inBucket key items k' =
        inBucket key (items.filter fun a => !decide (key a = k)) k' := by
      intro k' hk'
      unfold inBucket
      rw [filter_filter]
      apply filter_congr
      intro a _
      have hne : key a = k' → key a ≠ k := by
        rintro rfl rfl
        exact hfresh hk'
      by_cases ha : key a = k'
      · simp [ha, ha ▸ hne ha]
      · simp [ha]
    rw [flatMap_cons, flatMap_congr hothers]
    have hsub : ∀ a ∈ items.filter (fun a => !decide (key a = k)), key a ∈ rest := by
      intro a ha
      obtain ⟨hmem, hne⟩ := mem_filter.mp ha
      have hne' : key a ≠ k := by simpa using hne
      exact (mem_cons.mp (hkeys a hmem)).resolve_left hne'
    exact ((ih hrest hsub).append_left _).trans (filter_append_perm _ items)

theorem values_grouped_perm (key : α → κ) (items : List α) :
    (grouped key items).values.flatten.Perm items := by
  have hnodup : ((grouped key items).rows.map Prod.fst).Nodup := (grouped key items).nodup
  have hall : ∀ a ∈ items, key a ∈ (grouped key items).rows.map Prod.fst := by
    intro a ha
    obtain ⟨entry, hentry, hkey, _⟩ := exists_group key ha
    exact hkey ▸ mem_map_of_mem hentry
  have hvalues : (grouped key items).values.flatten =
      ((grouped key items).rows.map Prod.fst).flatMap fun k => inBucket key items k := by
    rw [flatMap_map]
    apply flatMap_congr
    intro entry hentry
    exact (mem_rows_grouped.mp hentry).1
  rw [hvalues]
  exact flatMap_inBucket_perm hnodup hall

end Buckets

/-! ## Items grouped by roots -/

section Roots

/-- The items, in groups that have one root. -/
def groupedByRoot (roots : List Nat) (items : List α) : List (List α) :=
  (grouped Prod.fst (roots.zip items)).values.map (·.map Prod.snd)

variable (near items) in
/-- The pairs of places whose items are near each other, the earlier place first. -/
def NearPlaces (i j : Nat) : Prop :=
  i < j ∧ ∃ a b, items[i]? = some a ∧ items[j]? = some b ∧ near a b

variable {root : Nat → Nat}

theorem mem_rootGroup {entry : Nat × List (Nat × α)}
    (hentry : entry ∈ (grouped Prod.fst (((List.range items.length).map root).zip items)).rows) :
    a ∈ entry.2.map Prod.snd ↔ ∃ i, root i = entry.1 ∧ items[i]? = some a := by
  have hbucket := (mem_rows_grouped.mp hentry).1
  simp only [mem_map, Prod.exists, exists_eq_right]
  rw [hbucket]
  simp only [mem_inBucket]
  constructor
  · rintro ⟨k, hzip, rfl⟩
    obtain ⟨i, hi⟩ := mem_iff_getElem?.mp hzip
    rw [getElem?_zip_eq_some, getElem?_map] at hi
    obtain ⟨j, hj, hroot⟩ := Option.map_eq_some_iff.mp hi.1
    have hij : j = i := by
      rw [getElem?_range (List.getElem?_eq_some_iff.mp hi.2).1] at hj
      exact (Option.some.inj hj).symm
    exact ⟨i, hij ▸ hroot, hi.2⟩
  · rintro ⟨i, hroot, ha⟩
    refine ⟨entry.1, mem_iff_getElem?.mpr ⟨i, ?_⟩, rfl⟩
    rw [getElem?_zip_eq_some, getElem?_map, getElem?_range (List.getElem?_eq_some_iff.mp ha).1]
    exact ⟨congrArg some hroot, ha⟩

open DisjointSet in
/-- Places in one class have items that are linked through the group of their root. -/
theorem linkedIn_of_class (hsymm : ∀ a b, near a b → near b a)
    (hclasses : Classes root (NearPlaces near items)) {k : Nat}
    (hgroup : ∀ a, a ∈ group ↔ ∃ i, root i = k ∧ items[i]? = some a) {i j : Nat}
    (h : Relation.EqvGen (NearPlaces near items) i j) :
    root i = k → ∀ a b, items[i]? = some a → items[j]? = some b → LinkedIn near group a b := by
  induction h with
  | rel i j hij =>
    rintro hroot a b ha hb
    have hroots : root i = root j := (hclasses i j).mpr (.rel _ _ hij)
    obtain ⟨_, a', b', ha', hb', hnear⟩ := hij
    rw [ha, Option.some.injEq] at ha'
    rw [hb, Option.some.injEq] at hb'
    subst ha' hb'
    exact .single ⟨(hgroup a).mpr ⟨i, hroot, ha⟩, (hgroup b).mpr ⟨j, hroots ▸ hroot, hb⟩, hnear⟩
  | refl i =>
    rintro _ a b ha hb
    rw [ha, Option.some.injEq] at hb
    rw [hb]
    exact .refl
  | symm i j hij ih =>
    rintro hroot a b ha hb
    have hroots : root i = root j := (hclasses i j).mpr hij
    exact (ih (hroots.trans hroot) b a hb ha).symm hsymm
  | trans i m j him hmj ih₁ ih₂ =>
    rintro hroot a b ha hb
    have hroots : root i = root m := (hclasses i m).mpr him
    by_cases hsame : i = m
    · subst hsame
      exact ih₂ hroot a b ha hb
    · -- the place between is one of the list, since it is near another one
      obtain ⟨z, hz⟩ := exists_linked (.symm _ _ him) (Ne.symm hsame)
      obtain ⟨c, hc⟩ : ∃ c, items[m]? = some c := by
        rcases hz with ⟨_, c, _, hc, _, _⟩ | ⟨_, _, c, _, hc, _⟩
        · exact ⟨c, hc⟩
        · exact ⟨c, hc⟩
      exact (ih₁ hroot a c ha hc).trans (ih₂ (hroots ▸ hroot) c b hc hb)

open DisjointSet in
/-- Items whose places are grouped by their classes are in connected components. -/
theorem components_groupedByRoot (hsymm : ∀ a b, near a b → near b a)
    (hclasses : Classes root (NearPlaces near items)) :
    Components near items (groupedByRoot ((List.range items.length).map root) items) := by
  unfold groupedByRoot Dict.values
  rw [map_map]
  constructor
  case partition =>
    have hperm := (values_grouped_perm Prod.fst
      (((List.range items.length).map root).zip items)).map Prod.snd
    rw [map_flatten, map_snd_zip (by simp)] at hperm
    unfold Dict.values at hperm
    rwa [map_map] at hperm
  case nonempty =>
    intro g hg hnil
    obtain ⟨entry, hentry, rfl⟩ := mem_map.mp hg
    exact (mem_rows_grouped.mp hentry).2 (map_eq_nil_iff.mp hnil)
  case connected =>
    intro g hg a ha b hb
    obtain ⟨entry, hentry, rfl⟩ := mem_map.mp hg
    obtain ⟨i, hi, hia⟩ := (mem_rootGroup hentry).mp ha
    obtain ⟨j, hj, hjb⟩ := (mem_rootGroup hentry).mp hb
    exact linkedIn_of_class hsymm hclasses (fun _ => mem_rootGroup hentry)
      ((hclasses i j).mp (hi.trans hj.symm)) hi a b hia hjb
  case apart =>
    have hkeys := (grouped Prod.fst (((List.range items.length).map root).zip items)).nodup
    rw [List.Nodup, pairwise_map] at hkeys
    rw [pairwise_map]
    refine hkeys.imp_of_mem ?_
    intro entry entry' hentry hentry' hne a ha b hb hnear
    obtain ⟨i, hi, hia⟩ := (mem_rootGroup hentry).mp ha
    obtain ⟨j, hj, hjb⟩ := (mem_rootGroup hentry').mp hb
    apply hne
    rw [← hi, ← hj]
    rcases Nat.lt_trichotomy i j with hlt | rfl | hgt
    · exact (hclasses i j).mpr (.rel _ _ ⟨hlt, a, b, hia, hjb, hnear⟩)
    · rfl
    · exact ((hclasses j i).mpr (.rel _ _ ⟨hgt, b, a, hjb, hia, hsymm _ _ hnear⟩)).symm

end Roots

end Robata.Lib
