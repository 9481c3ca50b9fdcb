import Robata.Lib.KeyedTable

/-!
# Dictionaries

A dictionary in insertion order: a table of entries whose key is the first component.
Assigning to a present key keeps the place of the entry and replaces its value.
-/

namespace Robata.Lib

open List
open KeyedTable (key_of_find? mem_of_find? rows_upsert_of_none upsert)

/-- Entries in insertion order, at most one under a key. -/
abbrev Dict (κ ν : Type) := KeyedTable (κ × ν) κ Prod.fst

namespace Dict

variable {κ ν : Type} [DecidableEq κ]

def get? (d : Dict κ ν) (k : κ) : Option ν := (KeyedTable.find? d k).map Prod.snd

/-- `d[k] = v`. -/
def set (d : Dict κ ν) (k : κ) (v : ν) : Dict κ ν := upsert d (k, v)

/-- `d.pop(k, None)`, without the value. -/
def erase (d : Dict κ ν) (k : κ) : Dict κ ν := KeyedTable.deleteWhere d fun entry => entry.1 = k

def values (d : Dict κ ν) : List ν := d.rows.map Prod.snd

@[simp] theorem get?_empty (k : κ) : get? (KeyedTable.empty : Dict κ ν) k = none := rfl

theorem get?_set (d : Dict κ ν) (k : κ) (v : ν) (j : κ) :
    (d.set k v).get? j = if j = k then some v else d.get? j := by
  unfold get? set
  rw [KeyedTable.find?_upsert]
  by_cases h : j = k <;> simp [h]

@[simp] theorem get?_set_self (d : Dict κ ν) (k : κ) (v : ν) : (d.set k v).get? k = some v := by
  rw [get?_set, if_pos rfl]

variable {k : κ}

theorem get?_set_of_ne (d : Dict κ ν) {j : κ} (v : ν) (h : j ≠ k) :
    (d.set k v).get? j = d.get? j := by
  rw [get?_set, if_neg h]

theorem get?_erase (d : Dict κ ν) (k j : κ) :
    (d.erase k).get? j = if j = k then none else d.get? j := by
  unfold get? erase
  rw [KeyedTable.find?_deleteWhere]
  cases hfind : KeyedTable.find? d j with
  | none => simp
  | some entry =>
    have hkey : entry.1 = j := key_of_find? hfind
    by_cases h : j = k
    · simp [hkey, h]
    · have hne : entry.1 ≠ k := hkey ▸ h
      rw [if_neg h, Option.filter_some, if_pos (by simp [hne])]

variable {v : ν} {d : Dict κ ν}

theorem get?_eq_some_iff : d.get? k = some v ↔ (k, v) ∈ d.rows := by
  unfold get?
  constructor
  · intro h
    obtain ⟨⟨j, w⟩, hfind, rfl⟩ := Option.map_eq_some_iff.mp h
    have hkey : j = k := key_of_find? hfind
    exact hkey ▸ mem_of_find? hfind
  · intro h
    rw [KeyedTable.find?_eq_some_iff.mpr ⟨h, rfl⟩, Option.map_some]

theorem mem_values_iff : v ∈ d.values ↔ ∃ k, d.get? k = some v := by
  simp only [values, mem_map, get?_eq_some_iff, Prod.exists, exists_eq_right]

theorem values_perm {e : Dict κ ν} (h : ∀ k, d.get? k = e.get? k) : d.values.Perm e.values := by
  refine Perm.map _ ((perm_ext_iff_of_nodup d.nodup.of_map e.nodup.of_map).mpr ?_)
  rintro ⟨k, v⟩
  rw [← get?_eq_some_iff, h, get?_eq_some_iff]

theorem keys_set (d : Dict κ ν) (w : ν) (h : d.get? k = some v) :
    (d.set k w).rows.map Prod.fst = d.rows.map Prod.fst := by
  have hfind : KeyedTable.find? d k ≠ none := by
    intro hnone
    unfold get? at h
    rw [hnone] at h
    cases h
  unfold set upsert
  rw [dif_neg hfind, map_map]
  apply map_congr_left
  intro entry _
  by_cases hkey : entry.1 = k <;> simp [hkey]

/-- Two dictionaries with the same keys in the same order and the same values are the same. -/
theorem ext_keys {e : Dict κ ν} (hkeys : d.rows.map Prod.fst = e.rows.map Prod.fst)
    (hvalues : ∀ k, d.get? k = e.get? k) : d = e := by
  apply KeyedTable.ext
  apply ext_getElem
  · simpa using congrArg List.length hkeys
  · intro i hi hi'
    have hfst : (d.rows[i]).1 = (e.rows[i]).1 := by
      have h := getElem_of_eq hkeys (by simpa using hi)
      simpa using h
    have hleft : d.get? (d.rows[i]).1 = some (d.rows[i]).2 :=
      get?_eq_some_iff.mpr (getElem_mem hi)
    have hright : e.get? (e.rows[i]).1 = some (e.rows[i]).2 :=
      get?_eq_some_iff.mpr (getElem_mem hi')
    rw [hfst, hvalues, hright] at hleft
    exact Prod.ext hfst (Option.some.inj hleft).symm

theorem set_self (h : d.get? k = some v) : d.set k v = d := by
  refine ext_keys (keys_set d v h) fun j => ?_
  rw [get?_set]
  split
  · rename_i hj
    rw [hj, h]
  · rfl

/-! ## Dictionaries that only grow -/

/-- The entries of one dictionary are entries of the other. -/
def Le (d e : Dict κ ν) : Prop := ∀ ⦃k : κ⦄ ⦃v : ν⦄, d.get? k = some v → e.get? k = some v

theorem Le.refl (d : Dict κ ν) : d.Le d := fun _ _ h => h

/-! ## Comprehensions -/

/-- `{key(v): v for v in values}`. -/
def index {ν : Type} (key : ν → κ) (values : List ν) : Dict κ ν :=
  values.foldl (fun d v => d.set (key v) v) KeyedTable.empty

@[simp] theorem index_nil (key : ν → κ) : index key ([] : List ν) = KeyedTable.empty := rfl

@[simp] theorem index_append_singleton (key : ν → κ) (values : List ν) (v : ν) :
    index key (values ++ [v]) = (index key values).set (key v) v := by
  simp [index]

variable {key : ν → κ} {values : List ν}

theorem rows_index (h : (values.map key).Nodup) :
    (index key values).rows = values.map fun v => (key v, v) := by
  induction values using reverseRecOn with
  | nil => rfl
  | append_singleton values v ih =>
    rw [map_append, nodup_append] at h
    obtain ⟨hnodup, -, hdisjoint⟩ := h
    rw [index_append_singleton]
    -- the key of the last value is new, so that its entry is appended
    have hnone : KeyedTable.find? (index key values) (key v) = none := by
      rw [KeyedTable.find?_eq_none_iff, ih hnodup]
      intro entry hentry heq
      obtain ⟨u, hu, rfl⟩ := mem_map.mp hentry
      exact hdisjoint _ (mem_map_of_mem hu) _ (by simp) heq
    unfold set
    rw [rows_upsert_of_none hnone, ih hnodup, map_append]
    rfl

theorem values_index (h : (values.map key).Nodup) : (index key values).values = values := by
  unfold Dict.values
  rw [rows_index h, map_map]
  exact map_id _

theorem get?_index_mem (h : (index key values).get? k = some v) : v ∈ values ∧ key v = k := by
  induction values using reverseRecOn with
  | nil => cases h
  | append_singleton values u ih =>
    rw [index_append_singleton, get?_set] at h
    split at h
    · rename_i hk
      cases h
      exact ⟨by simp, hk.symm⟩
    · exact ⟨mem_append_left _ (ih h).1, (ih h).2⟩

theorem get?_index_of_mem (h : (values.map key).Nodup) (hv : v ∈ values) :
    (index key values).get? (key v) = some v := by
  rw [get?_eq_some_iff, rows_index h]
  exact mem_map_of_mem hv

theorem get?_index_perm {values' : List ν} (h : (values.map key).Nodup)
    (hperm : values.Perm values') (k : κ) :
    (index key values).get? k = (index key values').get? k := by
  have h' : (values'.map key).Nodup := (hperm.map key).nodup_iff.mp h
  refine Option.ext fun v => ⟨fun hv => ?_, fun hv => ?_⟩
  · obtain ⟨hmem, rfl⟩ := get?_index_mem hv
    exact get?_index_of_mem h' (hperm.mem_iff.mp hmem)
  · obtain ⟨hmem, rfl⟩ := get?_index_mem hv
    exact get?_index_of_mem h (hperm.mem_iff.mpr hmem)

theorem get?_index_eq_none_iff : (index key values).get? k = none ↔ ∀ v ∈ values, key v ≠ k := by
  induction values using reverseRecOn with
  | nil => simp
  | append_singleton values u ih =>
    rw [index_append_singleton, get?_set]
    by_cases hk : k = key u
    · simp [hk]
    · rw [if_neg hk, ih, forall_mem_append]
      simp [Ne.symm hk]

/-- `d[k] = d.get(k, 0) + n`. -/
def tally (d : Dict κ Nat) (k : κ) (n : Nat) : Dict κ Nat := d.set k ((d.get? k).getD 0 + n)

theorem sum_values_tally (d : Dict κ Nat) (k : κ) (n : Nat) :
    (d.tally k n).values.sum = d.values.sum + n := by
  unfold tally set values
  cases hfind : KeyedTable.find? d k with
  | none =>
    rw [rows_upsert_of_none hfind]
    simp [get?, hfind]
  | some entry =>
    have hkey : entry.1 = k := key_of_find? hfind
    obtain ⟨left, right, hrows⟩ := append_of_mem (mem_of_find? hfind)
    have hnodup := d.nodup
    rw [hrows, map_append, map_cons, nodup_middle, nodup_cons, mem_append, not_or] at hnodup
    -- the other entries are under other keys, so the assignment leaves them
    have hother : ∀ side : List (κ × Nat), entry.1 ∉ side.map Prod.fst →
        side.map (fun e => if e.1 = k then (k, (d.get? k).getD 0 + n) else e) = side := by
      intro side hside
      conv_rhs => rw [← map_id side]
      apply map_congr_left
      intro e he
      have hne : e.1 ≠ k := fun h => hside (hkey ▸ h ▸ mem_map_of_mem he)
      simp [hne]
    unfold upsert
    rw [dif_neg (by simp [hfind])]
    simp only [hrows, map_append, map_cons]
    rw [hother left hnodup.1.1, hother right hnodup.1.2]
    simp [get?, hfind, hkey]
    omega

end Dict

end Robata.Lib
