import Robata.Lib.KeyedTable

/-!
# Rows inserted where they are missing

`INSERT … SELECT … WHERE NOT EXISTS`: every value whose key is free gets a row.  A
statement that selects none of the new rows may as well run before they are inserted.
-/

namespace Robata.Lib.KeyedTable

open List

variable {ρ κ α : Type} {key : ρ → κ} [DecidableEq κ]

/-- A row for every value whose key is free when it is reached. -/
def insertMissing (f : α → ρ) (values : List α) (t : KeyedTable ρ κ key) : KeyedTable ρ κ key :=
  values.foldl (fun t a => (t.insert? (f a)).getD t) t

variable {f : α → ρ} {values : List α} {t : KeyedTable ρ κ key} {r : ρ} {k : κ}

theorem insertMissing_append_singleton (a : α) :
    t.insertMissing f (values ++ [a]) =
      ((t.insertMissing f values).insert? (f a)).getD (t.insertMissing f values) := by
  unfold insertMissing
  rw [foldl_append]
  rfl

theorem find?_insertMissing (k : κ) :
    (t.insertMissing f values).find? k =
      (t.find? k).or ((values.find? fun a => decide (key (f a) = k)).map f) :=
  find?_foldl_insert? k

theorem find?_insertMissing_of_some (h : t.find? k = some r) :
    (t.insertMissing f values).find? k = some r := by
  rw [find?_insertMissing, h, Option.some_or]

theorem insert?_getD_of_taken (h : (t.find? (key r)).isSome) : (t.insert? r).getD t = t := by
  unfold insert?
  rw [dif_neg fun hfree => by simp [hfree] at h, Option.getD_none]

theorem isSome_find?_insert?_getD (r : ρ) (h : (t.find? k).isSome) :
    (((t.insert? r).getD t).find? k).isSome := by
  cases hinsert : t.insert? r with
  | none => exact h
  | some u =>
    rw [Option.getD_some, find?_of_insert? hinsert]
    split
    · rfl
    · exact h

theorem insertMissing_of_taken (h : ∀ a ∈ values, (t.find? (key (f a))).isSome) :
    t.insertMissing f values = t := by
  induction values with
  | nil => rfl
  | cons a rest ih =>
    obtain ⟨ha, hrest⟩ := forall_mem_cons.mp h
    show insertMissing f rest ((t.insert? (f a)).getD t) = t
    rw [insert?_getD_of_taken ha]
    exact ih hrest

/-- A value whose key is taken may be changed, as long as its key stays. -/
theorem insertMissing_map {g : α → α} (hkey : ∀ a, key (f (g a)) = key (f a))
    (h : ∀ a ∈ values, g a = a ∨ (t.find? (key (f a))).isSome) :
    t.insertMissing f (values.map g) = t.insertMissing f values := by
  induction values generalizing t with
  | nil => rfl
  | cons a rest ih =>
    obtain ⟨ha, hrest⟩ := forall_mem_cons.mp h
    have hhead : (t.insert? (f (g a))).getD t = (t.insert? (f a)).getD t := by
      rcases ha with hsame | htaken
      · rw [hsame]
      · rw [insert?_getD_of_taken htaken, insert?_getD_of_taken (hkey a ▸ htaken)]
    show insertMissing f (rest.map g) ((t.insert? (f (g a))).getD t) =
      insertMissing f rest ((t.insert? (f a)).getD t)
    rw [hhead]
    refine ih fun b hb => ?_
    exact (hrest b hb).imp_right (isSome_find?_insert?_getD (f a))

variable {sel : ρ → Bool} {set : ρ → ρ} {hset : ∀ r, key (set r) = key r}

theorem updateWhere_insert?_getD (hsel : sel r = false) :
    ((t.insert? r).getD t).updateWhere sel set hset =
      ((t.updateWhere sel set hset).insert? r).getD (t.updateWhere sel set hset) := by
  have hfind := find?_updateWhere t sel set hset (key r)
  unfold insert?
  by_cases hfree : t.find? (key r) = none
  · rw [hfree, Option.map_none] at hfind
    rw [dif_pos hfree, dif_pos hfind]
    apply ext
    simp [updateWhere, hsel]
  · have htaken : (t.updateWhere sel set hset).find? (key r) ≠ none := by
      rw [hfind, ne_eq, Option.map_eq_none_iff]
      exact hfree
    rw [dif_neg hfree, dif_neg htaken]
    rfl

theorem updateWhere_insertMissing (hsel : ∀ a ∈ values, sel (f a) = false) :
    (t.insertMissing f values).updateWhere sel set hset =
      (t.updateWhere sel set hset).insertMissing f values := by
  induction values generalizing t with
  | nil => rfl
  | cons a rest ih =>
    obtain ⟨ha, hrest⟩ := forall_mem_cons.mp hsel
    show (insertMissing f rest ((t.insert? (f a)).getD t)).updateWhere sel set hset = _
    rw [ih hrest, updateWhere_insert?_getD ha]
    rfl

theorem rowcount_insertMissing (hsel : ∀ a ∈ values, sel (f a) = false) :
    (t.insertMissing f values).rowcount sel = t.rowcount sel := by
  induction values generalizing t with
  | nil => rfl
  | cons a rest ih =>
    obtain ⟨ha, hrest⟩ := forall_mem_cons.mp hsel
    show (insertMissing f rest ((t.insert? (f a)).getD t)).rowcount sel = _
    rw [ih hrest]
    unfold insert?
    split
    · simp [rowcount, ha]
    · rfl

end Robata.Lib.KeyedTable
