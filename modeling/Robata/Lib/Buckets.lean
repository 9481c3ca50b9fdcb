import Mathlib.Tactic

/-!
# Items in buckets

A stream whose items fall into buckets, and whose buckets never go back, can be
processed one bucket at a time: once a later bucket has begun, an earlier one is
complete.  `inBucket` is the content of a bucket; the lemmas say how it changes
when an item is appended.  The buckets of a stream of instants are slots of one
length, counted from an origin; the last section is their arithmetic.
-/

namespace Robata.Lib

open List

variable {α κ : Type} [DecidableEq κ]

/-- The items of one bucket, in their order. -/
def inBucket (bucket : α → κ) (items : List α) (k : κ) : List α :=
  items.filter fun a => decide (bucket a = k)

variable {bucket : α → κ} {items later : List α} {a : α} {k : κ}

theorem mem_inBucket : a ∈ inBucket bucket items k ↔ a ∈ items ∧ bucket a = k := by
  simp [inBucket]

theorem inBucket_append :
    inBucket bucket (items ++ later) k = inBucket bucket items k ++ inBucket bucket later k :=
  filter_append _ _

theorem inBucket_eq_nil (h : ∀ a ∈ items, bucket a ≠ k) : inBucket bucket items k = [] := by
  rw [inBucket, filter_eq_nil_iff]
  intro a ha
  simpa using h a ha

theorem inBucket_append_later (h : ∀ a ∈ later, bucket a ≠ k) :
    inBucket bucket (items ++ later) k = inBucket bucket items k := by
  rw [inBucket_append, inBucket_eq_nil h, append_nil]

theorem inBucket_concat_self (h : bucket a = k) :
    inBucket bucket (items ++ [a]) k = inBucket bucket items k ++ [a] := by
  simp [inBucket, h]

theorem inBucket_concat_ne (h : bucket a ≠ k) :
    inBucket bucket (items ++ [a]) k = inBucket bucket items k := by
  apply inBucket_append_later
  intro b hb
  rw [mem_singleton.mp hb]
  exact h

theorem inBucket_map {β : Type} (f : β → α) (items : List β) (k : κ) :
    inBucket bucket (items.map f) k = (inBucket (fun b => bucket (f b)) items k).map f := by
  unfold inBucket
  rw [filter_map]
  rfl

/-! ## Grouping -/

/-- The keys of the buckets that hold something, once each. -/
def bucketKeys (bucket : α → κ) (items : List α) : List κ :=
  (items.map bucket).dedup

theorem mem_bucketKeys : k ∈ bucketKeys bucket items ↔ ∃ a ∈ items, bucket a = k := by
  simp [bucketKeys]

theorem length_inBucket : (inBucket bucket items k).length = (items.map bucket).count k := by
  rw [count_eq_length_filter, filter_map, length_map]
  rfl

theorem sum_length_inBucket (select : κ → Bool) :
    (((bucketKeys bucket items).filter select).map fun k => (inBucket bucket items k).length).sum =
      items.countP fun a => select (bucket a) := by
  have hcount := sum_map_count_dedup_filter_eq_countP select (items.map bucket)
  rw [countP_map] at hcount
  simpa only [length_inBucket, bucketKeys, Function.comp_def] using hcount

/-! ## The least item

A minimum over many buckets is taken from the minima of the buckets. -/

section Least

variable {β : Type} [LinearOrder β] {f : α → β} {o c : Option α}

/-- The value is an item with the least key, and absent when there is no item. -/
def LeastBy (f : α → β) (items : List α) : Option α → Prop
  | none => items = []
  | some a => a ∈ items ∧ ∀ b ∈ items, f a ≤ f b

/-- The first item with the least key. -/
def leastItem (f : α → β) (items : List α) : Option α := items.argmin f

theorem leastBy_leastItem : LeastBy f items (leastItem f items) := by
  unfold leastItem
  cases h : items.argmin f with
  | none => exact argmin_eq_none.mp h
  | some a => exact ⟨argmin_mem h, fun b hb => le_of_mem_argmin hb h⟩

theorem LeastBy.congr (h : LeastBy f items o) (hmem : ∀ a, a ∈ items ↔ a ∈ later) :
    LeastBy f later o := by
  cases o with
  | none =>
    subst h
    exact eq_nil_iff_forall_not_mem.mpr fun a ha => not_mem_nil ((hmem a).mpr ha)
  | some a => exact ⟨(hmem a).mp h.1, fun b hb => h.2 b ((hmem b).mpr hb)⟩

/-- Keys that tell the items apart leave one least item. -/
theorem LeastBy.unique {o' : Option α} (h : LeastBy f items o) (h' : LeastBy f items o')
    (hinj : ∀ a ∈ items, ∀ b ∈ items, f a = f b → a = b) : o = o' := by
  cases o with
  | none =>
    subst h
    cases o' with
    | none => rfl
    | some b => exact absurd h'.1 not_mem_nil
  | some a =>
    cases o' with
    | none =>
      subst h'
      exact absurd h.1 not_mem_nil
    | some b => exact congrArg some (hinj a h.1 b h'.1 (le_antisymm (h.2 b h'.1) (h'.2 a h.1)))

theorem leastItem_eq_of_perm (hperm : items.Perm later)
    (hinj : ∀ a ∈ items, ∀ b ∈ items, f a = f b → a = b) :
    leastItem f items = leastItem f later :=
  leastBy_leastItem.unique (leastBy_leastItem.congr fun _ => hperm.symm.mem_iff) hinj

/-- Keep the candidate when it comes before the least one so far. -/
def leastOf (f : α → β) (o c : Option α) : Option α :=
  match o, c with
  | o, none => o
  | none, some a => some a
  | some b, some a => if f a < f b then some a else some b

theorem LeastBy.leastOf (h : LeastBy f items o) (hc : LeastBy f later c) :
    LeastBy f (items ++ later) (leastOf f o c) := by
  cases c with
  | none =>
    subst hc
    simpa [Lib.leastOf] using h
  | some a =>
    cases o with
    | none =>
      subst h
      exact hc
    | some b =>
      simp only [Lib.leastOf]
      split
      · rename_i hlt
        exact ⟨mem_append_right _ hc.1,
          forall_mem_append.mpr ⟨fun x hx => hlt.le.trans (h.2 x hx), hc.2⟩⟩
      · rename_i hnot
        exact ⟨mem_append_left _ h.1,
          forall_mem_append.mpr ⟨h.2, fun x hx => (not_lt.mp hnot).trans (hc.2 x hx)⟩⟩

/-- The loop over the minima of some buckets ends with the least item of all of them. -/
theorem LeastBy.foldl {buckets : List (List α)} :
    ∀ {items : List α} {o : Option α}, LeastBy f items o →
      LeastBy f (items ++ buckets.flatten)
        ((buckets.map (leastItem f)).foldl (Lib.leastOf f) o) := by
  induction buckets with
  | nil =>
    simpa using h
  | cons bucket rest ih =>
    intro items o h
    rw [flatten_cons, ← append_assoc]
    exact ih (h.leastOf leastBy_leastItem)

end Least

/-! ## Slots of equal length -/

section Slots

variable {origin length t o : Int}

theorem le_slot_iff (hlength : 0 < length) : o ≤ (t - origin) / length ↔ origin + o * length ≤ t := by
  rw [Int.le_ediv_iff_mul_le hlength]
  omega

theorem slot_le_iff (hlength : 0 < length) :
    (t - origin) / length ≤ o ↔ t < origin + (o + 1) * length := by
  rw [← Int.lt_add_one_iff, Int.ediv_lt_iff_lt_mul hlength]
  omega

/-- An instant is in a slot when it lies between the starts of the slot and of
the next one. -/
theorem slot_eq_iff (hlength : 0 < length) :
    (t - origin) / length = o ↔ origin + o * length ≤ t ∧ t < origin + (o + 1) * length := by
  rw [← le_slot_iff hlength, ← slot_le_iff hlength]
  omega

theorem slot_ends_by (hlength : 0 < length) (hboundary : length ∣ t) (h : o * length < t) :
    (o + 1) * length ≤ t := by
  obtain ⟨k, rfl⟩ := hboundary
  rw [mul_comm length k] at h ⊢
  have hlt : o < k := lt_of_mul_lt_mul_right h hlength.le
  exact mul_le_mul_of_nonneg_right hlt hlength.le

end Slots

end Robata.Lib
