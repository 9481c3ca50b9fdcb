import Robata.Lib.Buckets
import Robata.Lib.Dictionary
import Robata.Lib.Transaction

/-!
# Loops that compare items by a key

A loop that fails when two items have one key, and a dictionary that collects the items of each
key in a list.  The first is a fold over items whose keys differ; what the second holds for a key
is the bucket of that key.
-/

namespace Robata.Lib

open List

variable {α κ σ ε : Type} [DecidableEq κ] {key : α → κ} {step : σ → α → σ} {error : ε}

/-- Take one step for each item, and fail at an item whose key has been seen. -/
def foldDistinct (key : α → κ) (step : σ → α → σ) (error : ε) : List α → List κ → σ → Except ε σ
  | [], _, s => .ok s
  | a :: rest, seen, s =>
    if key a ∈ seen then .error error
    else foldDistinct key step error rest (key a :: seen) (step s a)

/-- The loop completes when the keys differ among themselves and from those seen before. -/
theorem foldDistinct_eq_ok {items : List α} :
    ∀ {seen : List κ} {s t : σ}, foldDistinct key step error items seen s = .ok t ↔
      (items.map key).Nodup ∧ (∀ a ∈ items, key a ∉ seen) ∧ t = items.foldl step s := by
  induction items with
  | nil =>
    simp [foldDistinct, eq_comm]
  | cons a rest ih =>
    intro seen s t
    unfold foldDistinct
    by_cases hseen : key a ∈ seen
    · simp [hseen]
    · rw [if_neg hseen, ih]
      rw [map_cons, nodup_cons, forall_mem_cons]
      simp only [mem_cons, not_or, mem_map]
      constructor
      · rintro ⟨hnodup, hfree, rfl⟩
        exact ⟨⟨fun ⟨b, hb, hkey⟩ => (hfree b hb).1 hkey, hnodup⟩,
          ⟨hseen, fun b hb => (hfree b hb).2⟩, rfl⟩
      · rintro ⟨⟨hhead, hnodup⟩, ⟨_, hfree⟩, rfl⟩
        exact ⟨hnodup, fun b hb => ⟨fun hkey => hhead ⟨b, hb, hkey⟩, hfree b hb⟩, rfl⟩

theorem foldlM_foldDistinct_eq_ok {ρ : Type} {items : ρ → List α} {parts : List ρ} :
    ∀ {s t : σ}, parts.foldlM (fun s part => foldDistinct key step error (items part) [] s) s =
        .ok t ↔
      (∀ part ∈ parts, ((items part).map key).Nodup) ∧ t = (parts.flatMap items).foldl step s := by
  induction parts with
  | nil =>
    simp [pure, Except.pure, eq_comm]
  | cons part rest ih =>
    intro s t
    rw [foldlM_cons, bind_eq_ok, flatMap_cons, foldl_append, forall_mem_cons]
    constructor
    · rintro ⟨u, hpart, hrest⟩
      obtain ⟨hnodup, _, rfl⟩ := foldDistinct_eq_ok.mp hpart
      obtain ⟨hall, rfl⟩ := ih.mp hrest
      exact ⟨⟨hnodup, hall⟩, rfl⟩
    · rintro ⟨⟨hnodup, hall⟩, rfl⟩
      exact ⟨_, foldDistinct_eq_ok.mpr ⟨hnodup, fun _ _ => not_mem_nil, rfl⟩, ih.mpr ⟨hall, rfl⟩⟩

/-! ## Lists in a dictionary -/

/-- Writing an entry keeps the keys and their order, a new key coming last. -/
theorem Dict.keys_set_eq {ν : Type} (d : Dict κ ν) (k : κ) (v : ν) :
    (d.set k v).rows.map Prod.fst =
      if k ∈ d.rows.map Prod.fst then d.rows.map Prod.fst else d.rows.map Prod.fst ++ [k] := by
  cases hget : d.get? k with
  | none =>
    have hfind : KeyedTable.find? d k = none := Option.map_eq_none_iff.mp hget
    have hfree : k ∉ d.rows.map Prod.fst := by
      intro hmem
      obtain ⟨entry, hentry, hkey⟩ := mem_map.mp hmem
      exact KeyedTable.find?_eq_none_iff.mp hfind entry hentry hkey
    rw [if_neg hfree]
    show (KeyedTable.upsert d (k, v)).rows.map Prod.fst = _
    rw [KeyedTable.rows_upsert_of_none hfind, map_append]
    rfl
  | some w =>
    rw [Dict.keys_set d v hget, if_pos (mem_map_of_mem (Dict.get?_eq_some_iff.mp hget))]

def Dict.append (d : Dict κ (List α)) (k : κ) (a : α) : Dict κ (List α) :=
  d.set k ((d.get? k).getD [] ++ [a])

/-- The items under their keys, in their order. -/
def grouped (key : α → κ) (items : List α) : Dict κ (List α) :=
  items.foldl (fun d a => d.append (key a) a) KeyedTable.empty

theorem grouped_concat (items : List α) (a : α) :
    grouped key (items ++ [a]) = (grouped key items).append (key a) a := by
  simp [grouped]

theorem get?_grouped (key : α → κ) (items : List α) (k : κ) :
    (grouped key items).get? k =
      if inBucket key items k = [] then none else some (inBucket key items k) := by
  induction items using reverseRecOn with
  | nil => rfl
  | append_singleton items a ih =>
    rw [grouped_concat, Dict.append, Dict.get?_set]
    by_cases hk : k = key a
    · subst hk
      rw [if_pos rfl, inBucket_concat_self rfl, ih]
      split <;> simp_all
    · rw [if_neg hk, inBucket_concat_ne (Ne.symm hk), ih]

theorem mem_rows_grouped {items : List α} {entry : κ × List α} :
    entry ∈ (grouped key items).rows ↔ entry.2 = inBucket key items entry.1 ∧ entry.2 ≠ [] := by
  have hget := get?_grouped key items entry.1
  rw [← Dict.get?_eq_some_iff, hget]
  split
  · rename_i hempty
    constructor
    · intro h
      cases h
    · rintro ⟨hbucket, hne⟩
      exact absurd (hbucket.trans hempty) hne
  · rename_i hne
    constructor
    · intro h
      have hbucket := Option.some.inj h
      exact ⟨hbucket.symm, hbucket ▸ hne⟩
    · rintro ⟨hbucket, _⟩
      rw [← hbucket]

theorem exists_group (key : α → κ) {items : List α} {a : α} (ha : a ∈ items) :
    ∃ entry ∈ (grouped key items).rows, entry.1 = key a ∧ a ∈ entry.2 := by
  have hmem : a ∈ inBucket key items (key a) := mem_inBucket.mpr ⟨ha, rfl⟩
  exact ⟨(key a, inBucket key items (key a)),
    mem_rows_grouped.mpr ⟨rfl, ne_nil_of_mem hmem⟩, rfl, hmem⟩

end Robata.Lib
