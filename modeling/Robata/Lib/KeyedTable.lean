import Mathlib.Data.List.Nodup
import Mathlib.Data.List.Sort
import Mathlib.Tactic

/-!
# Tables with a primary key

A relational table is a list of rows, in insertion order, together with a key
column that no two rows share.  Uniqueness is a field of the structure, so a
table with a duplicated key cannot be built and no later proof has to carry
that fact along.

* `find?` is `SELECT * … WHERE key = k`;
* `updateWhere` is `UPDATE … SET … WHERE …`, and `rowcount` is the number of
  rows such a statement reports;
* `deleteWhere` is `DELETE … WHERE …`;
* `insert?` is `INSERT`, which fails on a key that is already present;
* `upsert` is the assignment of a dictionary entry, which replaces the row under
  a key that is already present.
-/

namespace Robata.Lib

open List

/-- What stands at a position of a list that has grown by one entry. -/
theorem getElem?_concat_cases {α : Type} {l : List α} {a b : α} {k : Nat}
    (h : (l ++ [a])[k]? = some b) : (k = l.length ∧ b = a) ∨ l[k]? = some b := by
  rw [getElem?_append] at h
  split at h
  · exact Or.inr h
  · rw [getElem?_singleton] at h
    split at h
    · cases h
      exact Or.inl ⟨by omega, rfl⟩
    · cases h

/-- Rows in insertion order whose keys are pairwise distinct. -/
structure KeyedTable (ρ κ : Type) (key : ρ → κ) where
  rows : List ρ
  nodup : (rows.map key).Nodup

namespace KeyedTable

variable {ρ κ : Type} {key : ρ → κ}

variable {t u : KeyedTable ρ κ key}

@[ext] theorem ext (h : t.rows = u.rows) : t = u := by
  cases t
  subst h
  rfl

instance [DecidableEq ρ] : DecidableEq (KeyedTable ρ κ key) := fun t u =>
  decidable_of_iff (t.rows = u.rows) ⟨ext, fun h => h ▸ rfl⟩

/-- The table without rows. -/
def empty : KeyedTable ρ κ key := ⟨[], nodup_nil⟩

@[simp] theorem rows_empty : (empty : KeyedTable ρ κ key).rows = [] := rfl

variable {r : ρ}

theorem eq_of_key_eq (t : KeyedTable ρ κ key) {r' : ρ} (hr : r ∈ t.rows) (hr' : r' ∈ t.rows)
    (hkey : key r = key r') : r = r' :=
  inj_on_of_nodup_map t.nodup hr hr' hkey

variable {sel : ρ → Bool}

/-- Rows that are told apart by their keys are told apart by what fixes the key among them. -/
theorem nodup_map_filter {γ : Type} {sel : ρ → Bool} {g : ρ → γ} (t : KeyedTable ρ κ key)
    (hkey : ∀ a b, sel a = true → sel b = true → g a = g b → key a = key b) :
    ((t.rows.filter sel).map g).Nodup := by
  refine (t.nodup.of_map.filter _).map_on fun a ha b hb heq => ?_
  rw [mem_filter] at ha hb
  exact t.eq_of_key_eq ha.1 hb.1 (hkey a b ha.2 hb.2 heq)

theorem filter_eq_singleton (t : KeyedTable ρ κ key) (hr : r ∈ t.rows) (hsel : sel r = true)
    (hunique : ∀ q ∈ t.rows, sel q = true → q = r) :
    t.rows.filter sel = [r] := by
  have hnodup : (t.rows.filter sel).Nodup := (List.Nodup.of_map key t.nodup).filter sel
  apply perm_singleton.mp
  rw [perm_ext_iff_of_nodup hnodup (nodup_singleton r)]
  intro q
  rw [mem_filter, mem_singleton]
  constructor
  · rintro ⟨hq, hqsel⟩
    exact hunique q hq hqsel
  · rintro rfl
    exact ⟨hr, hsel⟩

section Lookup

variable [DecidableEq κ]

/-- The row with the given key, if there is one. -/
def find? (t : KeyedTable ρ κ key) (k : κ) : Option ρ :=
  t.rows.find? fun r => decide (key r = k)

variable {k : κ}

theorem find?_eq_some_iff : t.find? k = some r ↔ r ∈ t.rows ∧ key r = k := by
  constructor
  · intro h
    refine ⟨mem_of_find?_eq_some h, ?_⟩
    simpa using find?_some h
  · rintro ⟨hmem, hkey⟩
    have hsome : (t.find? k).isSome := by
      rw [find?, find?_isSome]
      exact ⟨r, hmem, by simpa using hkey⟩
    obtain ⟨r', hr'⟩ := Option.isSome_iff_exists.mp hsome
    have hmem' : r' ∈ t.rows := mem_of_find?_eq_some hr'
    have hkey' : key r' = k := by simpa using find?_some hr'
    rw [hr', t.eq_of_key_eq hmem' hmem (hkey'.trans hkey.symm)]

theorem mem_of_find? (h : t.find? k = some r) : r ∈ t.rows :=
  (find?_eq_some_iff.mp h).1

theorem key_of_find? (h : t.find? k = some r) : key r = k :=
  (find?_eq_some_iff.mp h).2

theorem mem_rows_iff : r ∈ t.rows ↔ t.find? (key r) = some r := by
  simp [find?_eq_some_iff]

theorem find?_eq_none_iff : t.find? k = none ↔ ∀ r ∈ t.rows, key r ≠ k := by
  simp [find?]

@[simp] theorem find?_empty (k : κ) : (empty : KeyedTable ρ κ key).find? k = none := rfl

end Lookup

section Update

/-- Rewrite every selected row; the key column is not among the columns set. -/
def updateWhere (t : KeyedTable ρ κ key) (sel : ρ → Bool) (set : ρ → ρ)
    (hset : ∀ r, key (set r) = key r) : KeyedTable ρ κ key where
  rows := t.rows.map fun r => if sel r then set r else r
  nodup := by
    have hkeys : (t.rows.map fun r => if sel r then set r else r).map key = t.rows.map key := by
      rw [map_map]
      apply map_congr_left
      intro r _
      by_cases h : sel r = true <;> simp [h, hset]
    rw [hkeys]
    exact t.nodup

theorem updateWhere_congr (t : KeyedTable ρ κ key) {sel' : ρ → Bool} {set set' : ρ → ρ}
    {hset : ∀ r, key (set r) = key r} {hset' : ∀ r, key (set' r) = key r}
    (h : ∀ r ∈ t.rows, (if sel r then set r else r) = if sel' r then set' r else r) :
    t.updateWhere sel set hset = t.updateWhere sel' set' hset' :=
  ext (map_congr_left h)

/-- How many rows a statement with this `WHERE` clause touches. -/
def rowcount (t : KeyedTable ρ κ key) (sel : ρ → Bool) : Nat :=
  t.rows.countP sel

theorem find?_updateWhere [DecidableEq κ] (t : KeyedTable ρ κ key) (sel : ρ → Bool) (set : ρ → ρ)
    (hset : ∀ r, key (set r) = key r) (k : κ) :
    (t.updateWhere sel set hset).find? k = (t.find? k).map fun r => if sel r then set r else r := by
  have hpred : (fun r => decide (key r = k)) ∘ (fun r => if sel r then set r else r) =
      fun r => decide (key r = k) := by
    funext r
    by_cases h : sel r = true <;> simp [h, hset]
  simp only [find?, updateWhere, find?_map, hpred]

variable (t sel) in
theorem mem_updateWhere (set : ρ → ρ) (hset : ∀ r, key (set r) = key r) {r' : ρ} :
    r' ∈ (t.updateWhere sel set hset).rows ↔ ∃ r ∈ t.rows, (if sel r then set r else r) = r' := by
  simp [updateWhere]

/-- A statement that names one key touches one row exactly when that row is
there and satisfies the rest of its `WHERE` clause. -/
theorem rowcount_eq_one_iff [DecidableEq κ] (t : KeyedTable ρ κ key) {k : κ}
    (hsel : ∀ r, sel r = true → key r = k) :
    t.rowcount sel = 1 ↔ ∃ r, t.find? k = some r ∧ sel r = true := by
  have hcount : t.rowcount sel = (t.rows.filter sel).length := by
    rw [rowcount, countP_eq_length_filter]
  constructor
  · intro h
    rw [hcount] at h
    obtain ⟨r, hr⟩ := length_eq_one_iff.mp h
    have hmem : r ∈ t.rows.filter sel := by simp [hr]
    rw [mem_filter] at hmem
    exact ⟨r, find?_eq_some_iff.mpr ⟨hmem.1, hsel r hmem.2⟩, hmem.2⟩
  · rintro ⟨r, hfind, hr⟩
    obtain ⟨hmem, hkey⟩ := find?_eq_some_iff.mp hfind
    have hall : ∀ r' ∈ t.rows.filter sel, r' = r := by
      intro r' hr'
      rw [mem_filter] at hr'
      exact t.eq_of_key_eq hr'.1 hmem ((hsel r' hr'.2).trans hkey.symm)
    have hnodup : (t.rows.filter sel).Nodup := (List.Nodup.of_map key t.nodup).filter sel
    rw [hcount]
    have hmemf : r ∈ t.rows.filter sel := mem_filter.mpr ⟨hmem, hr⟩
    rw [eq_replicate_of_mem hall] at hnodup hmemf ⊢
    have hle := nodup_replicate.mp hnodup
    simp only [length_replicate] at *
    have hne : (t.rows.filter sel).length ≠ 0 := by
      intro hzero
      simp [hzero] at hmemf
    omega

theorem find?_updateWhere_of_key [DecidableEq κ] (t : KeyedTable ρ κ key) (set : ρ → ρ)
    (hset : ∀ r, key (set r) = key r) {k : κ} (hsel : ∀ r, sel r = true → key r = k)
    (hfind : t.find? k = some r) (hr : sel r = true) (j : κ) :
    (t.updateWhere sel set hset).find? j = if j = k then some (set r) else t.find? j := by
  rw [find?_updateWhere]
  by_cases hj : j = k
  · subst hj
    simp [hfind, hr]
  · rw [if_neg hj]
    cases hfindj : t.find? j with
    | none => rfl
    | some r' =>
      have hnot : sel r' = false := by
        by_contra hcon
        rw [Bool.not_eq_false] at hcon
        exact hj ((key_of_find? hfindj).symm.trans (hsel r' hcon))
      simp [hnot]

theorem countP_lt (t u : KeyedTable ρ κ key) {p : ρ → Bool}
    (hsub : ∀ r ∈ u.rows, p r = true → r ∈ t.rows) (hr : r ∈ t.rows) (hp : p r = true)
    (hgone : r ∉ u.rows) : u.rows.countP p < t.rows.countP p := by
  have hnodup : (r :: u.rows.filter p).Nodup := by
    rw [nodup_cons]
    refine ⟨?_, (List.Nodup.of_map key u.nodup).filter p⟩
    intro hmem
    exact hgone (mem_filter.mp hmem).1
  have hsubset : r :: u.rows.filter p ⊆ t.rows.filter p := by
    intro a ha
    rcases mem_cons.mp ha with rfl | ha
    · exact mem_filter.mpr ⟨hr, hp⟩
    · obtain ⟨hmem, hpa⟩ := mem_filter.mp ha
      exact mem_filter.mpr ⟨hsub a hmem hpa, hpa⟩
  have hlength := (subperm_of_subset hnodup hsubset).length_le
  rw [length_cons, ← countP_eq_length_filter, ← countP_eq_length_filter] at hlength
  omega

theorem countP_congr (t u : KeyedTable ρ κ key) (p : ρ → Bool)
    (h : ∀ r, r ∈ t.rows ↔ r ∈ u.rows) : t.rows.countP p = u.rows.countP p := by
  have hperm : t.rows.Perm u.rows :=
    (perm_ext_iff_of_nodup (List.Nodup.of_map _ t.nodup) (List.Nodup.of_map _ u.nodup)).mpr h
  exact hperm.countP_eq p

theorem countP_eq_succ (t u : KeyedTable ρ κ key) {p : ρ → Bool} (hp : p r = true)
    (hout : r ∉ u.rows) (h : ∀ a, p a = true → (a ∈ t.rows ↔ a = r ∨ a ∈ u.rows)) :
    t.rows.countP p = u.rows.countP p + 1 := by
  rw [countP_eq_length_filter, countP_eq_length_filter, ← length_cons]
  apply List.Perm.length_eq
  have ht : (t.rows.filter p).Nodup := (List.Nodup.of_map _ t.nodup).filter _
  have hu : (r :: u.rows.filter p).Nodup := by
    refine nodup_cons.mpr ⟨?_, (List.Nodup.of_map _ u.nodup).filter _⟩
    intro hr
    exact hout (mem_filter.mp hr).1
  rw [perm_ext_iff_of_nodup ht hu]
  intro a
  rw [mem_filter, mem_cons, mem_filter]
  constructor
  · rintro ⟨ha, hpa⟩
    exact ((h a hpa).mp ha).imp_right fun ha => ⟨ha, hpa⟩
  · rintro (rfl | ⟨ha, hpa⟩)
    · exact ⟨(h a hp).mpr (.inl rfl), hp⟩
    · exact ⟨(h a hpa).mpr (.inr ha), hpa⟩

theorem updateWhere_of_none (t : KeyedTable ρ κ key) {set : ρ → ρ} {hset : ∀ r, key (set r) = key r}
    (h : ∀ r ∈ t.rows, sel r = false) :
    t.updateWhere sel set hset = t := by
  apply ext
  conv_rhs => rw [← map_id t.rows]
  apply map_congr_left
  intro r hr
  simp [h r hr]

end Update

section Delete

/-- Drop every selected row. -/
def deleteWhere (t : KeyedTable ρ κ key) (sel : ρ → Bool) : KeyedTable ρ κ key where
  rows := t.rows.filter fun r => !sel r
  nodup := t.nodup.sublist (List.filter_sublist.map key)

theorem find?_deleteWhere [DecidableEq κ] (t : KeyedTable ρ κ key) (sel : ρ → Bool) (k : κ) :
    (t.deleteWhere sel).find? k = (t.find? k).filter fun r => !sel r := by
  cases hfind : t.find? k with
  | none =>
    rw [find?_eq_none_iff] at hfind
    rw [Option.filter_none, find?_eq_none_iff]
    intro r hr
    exact hfind r (mem_filter.mp hr).1
  | some r =>
    obtain ⟨hmem, hkey⟩ := find?_eq_some_iff.mp hfind
    by_cases hsel : sel r = true
    · rw [Option.filter_some, if_neg (by rw [hsel]; decide), find?_eq_none_iff]
      intro q hq hqkey
      obtain ⟨hqmem, hqsel⟩ := mem_filter.mp hq
      rw [t.eq_of_key_eq hqmem hmem (hqkey.trans hkey.symm), hsel] at hqsel
      cases hqsel
    · rw [Bool.not_eq_true] at hsel
      rw [Option.filter_some, if_pos (by rw [hsel]; rfl), find?_eq_some_iff]
      exact ⟨mem_filter.mpr ⟨hmem, by rw [hsel]; rfl⟩, hkey⟩

end Delete

section Insert

variable [DecidableEq κ]

/-- Append a row unless its key is taken. -/
def insert? (t : KeyedTable ρ κ key) (r : ρ) : Option (KeyedTable ρ κ key) :=
  if h : t.find? (key r) = none then
    some
      { rows := t.rows ++ [r]
        nodup := by
          rw [map_append, map_singleton, nodup_append]
          refine ⟨t.nodup, nodup_singleton _, ?_⟩
          intro a ha b hb
          rw [mem_singleton] at hb
          obtain ⟨r', hr', rfl⟩ := mem_map.mp ha
          rw [hb]
          exact find?_eq_none_iff.mp h r' hr' }
  else
    none

theorem insert?_eq_some (h : t.insert? r = some u) :
    t.find? (key r) = none ∧ u.rows = t.rows ++ [r] := by
  unfold insert? at h
  split at h
  · rename_i hnone
    cases h
    exact ⟨hnone, rfl⟩
  · cases h

theorem subset_of_insert? (h : t.insert? r = some u) : t.rows ⊆ u.rows := by
  rw [(insert?_eq_some h).2]
  exact subset_append_left _ _

theorem mem_of_insert? (h : t.insert? r = some u) : r ∈ u.rows := by
  rw [(insert?_eq_some h).2]
  exact mem_append_right _ (mem_singleton_self _)

theorem forall_of_insert? {p : ρ → Prop} (h : t.insert? r = some u) (hold : ∀ q ∈ t.rows, p q)
    (hnew : p r) : ∀ q ∈ u.rows, p q := by
  rw [(insert?_eq_some h).2, forall_mem_append, forall_mem_singleton]
  exact ⟨hold, hnew⟩

theorem insert?_of_free (h : t.find? (key r) = none) : ∃ u, t.insert? r = some u := by
  unfold insert?
  rw [dif_pos h]
  exact ⟨_, rfl⟩

theorem find?_of_insert? (h : t.insert? r = some u) (k : κ) :
    u.find? k = if k = key r then some r else t.find? k := by
  obtain ⟨hnone, hrows⟩ := insert?_eq_some h
  by_cases hk : k = key r
  · subst hk
    simp only [if_true]
    rw [find?_eq_some_iff, hrows]
    simp
  · rw [if_neg hk, find?, hrows, find?_append]
    have hlast : List.find? (fun r' => decide (key r' = k)) [r] = none := by
      simpa using fun heq => hk heq.symm
    rw [hlast, Option.or_none]
    rfl

/-- Replace the row with the key of `r`, or append `r` if there is none. -/
def upsert (t : KeyedTable ρ κ key) (r : ρ) : KeyedTable ρ κ key :=
  if h : t.find? (key r) = none then
    { rows := t.rows ++ [r]
      nodup := by
        obtain ⟨u, hu⟩ : ∃ u, t.insert? r = some u := by
          unfold insert?
          rw [dif_pos h]
          exact ⟨_, rfl⟩
        rw [← (insert?_eq_some hu).2]
        exact u.nodup }
  else
    { rows := t.rows.map fun q => if key q = key r then r else q
      nodup := by
        have hkeys : (t.rows.map fun q => if key q = key r then r else q).map key =
            t.rows.map key := by
          rw [map_map]
          apply map_congr_left
          intro q _
          by_cases hq : key q = key r <;> simp [hq]
        rw [hkeys]
        exact t.nodup }

variable (t r) in
theorem find?_upsert (k : κ) : (t.upsert r).find? k = if k = key r then some r else t.find? k := by
  unfold upsert
  split
  · rename_i h
    have hinsert : t.insert? r = some _ := dif_pos h
    exact find?_of_insert? hinsert k
  · rename_i h
    have hpred : (fun q => decide (key q = k)) ∘ (fun q => if key q = key r then r else q) =
        fun q => decide (key q = k) := by
      funext q
      by_cases hq : key q = key r <;> simp [hq]
    simp only [find?, find?_map, hpred]
    by_cases hk : k = key r
    · subst hk
      obtain ⟨q, hq⟩ := Option.ne_none_iff_exists'.mp h
      have hkey := key_of_find? hq
      rw [if_pos rfl]
      show (t.find? (key r)).map _ = some r
      rw [hq, Option.map_some, if_pos hkey]
    · rw [if_neg hk]
      show (t.find? k).map _ = t.find? k
      cases hq : t.find? k with
      | none => rfl
      | some q =>
        have hne : key q ≠ key r := by
          rw [key_of_find? hq]
          exact hk
        rw [Option.map_some, if_neg hne]

theorem rows_upsert_of_none (h : t.find? (key r) = none) : (t.upsert r).rows = t.rows ++ [r] := by
  unfold upsert
  rw [dif_pos h]

theorem rows_foldl_upsert {rows : List ρ} :
    ∀ {t : KeyedTable ρ κ key}, (rows.map key).Nodup → (∀ r ∈ rows, t.find? (key r) = none) →
      (rows.foldl upsert t).rows = t.rows ++ rows := by
  induction rows with
  | nil =>
    intro t _ _
    rw [foldl_nil, append_nil]
  | cons r rest ih =>
    intro t hnodup hfresh
    rw [map_cons, nodup_cons] at hnodup
    have hrest : ∀ q ∈ rest, (t.upsert r).find? (key q) = none := by
      intro q hq
      have hne : key q ≠ key r := fun heq =>
        hnodup.1 (mem_map.mpr ⟨q, hq, heq⟩)
      rw [find?_upsert, if_neg hne]
      exact hfresh q (mem_cons_of_mem _ hq)
    rw [foldl_cons, ih hnodup.2 hrest, rows_upsert_of_none (hfresh r mem_cons_self), append_assoc]
    rfl

theorem find?_foldl_insert? {α : Type} {f : α → ρ} {rows : List α} (k : κ) :
    ∀ {t : KeyedTable ρ κ key},
      (rows.foldl (fun t a => (t.insert? (f a)).getD t) t).find? k =
        (t.find? k).or ((rows.find? fun a => decide (key (f a) = k)).map f) := by
  induction rows with
  | nil =>
    intro t
    rw [foldl_nil, find?_nil, Option.map_none, Option.or_none]
  | cons a rest ih =>
    intro t
    rw [foldl_cons, ih]
    cases hinsert : t.insert? (f a) with
    | none =>
      rw [Option.getD_none]
      by_cases hk : key (f a) = k
      · -- the key is taken, so the row found under it stands
        have htaken : t.find? k ≠ none := by
          intro hfree
          rw [← hk] at hfree
          unfold insert? at hinsert
          rw [dif_pos hfree] at hinsert
          cases hinsert
        obtain ⟨r, hr⟩ := Option.ne_none_iff_exists'.mp htaken
        rw [hr, Option.some_or, Option.some_or]
      · simp [hk]
    | some u =>
      rw [Option.getD_some, find?_of_insert? hinsert]
      by_cases hk : k = key (f a)
      · subst hk
        rw [(insert?_eq_some hinsert).1]
        simp
      · have hk' : key (f a) ≠ k := fun heq => hk heq.symm
        simp [hk, hk']

end Insert

end KeyedTable
end Robata.Lib
