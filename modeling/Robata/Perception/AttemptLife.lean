import Robata.Perception.WorkScheduler

/-!
# Items and their attempts

An item and its attempts tell one story: the attempts are numbered, one is open exactly
while the item is leased or running, and its epoch and token are those of the item.  Each
statement of the scheduler keeps this; each but the acceptance of a result also leaves every
item with the successes it had.
-/

namespace Robata.Perception

open Lib

/-- The attempt of an item with a number. -/
def PerceptionDb.attemptsOf (db : PerceptionDb) (workItemId : String) (n : Nat) :
    Option WorkAttempt :=
  db.attempts.find? (workItemId, n)

/-- A state in which an item has an attempt left. -/
def DurablePerceptionWorkState.isOpen : DurablePerceptionWorkState → Bool
  | .planned | .ready | .retryWait => true
  | _ => false

/-- An item agrees with its attempts. -/
structure ItemLife (att : Nat → Option WorkAttempt) (i : DurablePerceptionWorkItem) : Prop where
  epoch : i.leaseEpoch = i.attempt
  numbered : ∀ n, (att n).isSome = true ↔ 1 ≤ n ∧ n ≤ i.attempt
  epochs : ∀ {n a}, att n = some a → a.leaseEpoch = n
  outcome : ∀ {n a}, att n = some a →
    (a.outcome = .active ↔ i.state.isActive = true ∧ n = i.attempt)
  token : ∀ {a}, att i.attempt = some a → i.state.isActive = true →
    i.fencingToken = some a.fencingToken
  held : i.state.isActive = true → 1 ≤ i.attempt
  bounded : i.attempt ≤ i.maxAttempts
  unexhausted : i.state.isOpen = true → i.attempt < i.maxAttempts

namespace ItemLife

variable {att att' : Nat → Option WorkAttempt} {i j : DurablePerceptionWorkItem}

section

variable (h : ItemLife att i)
include h

theorem exists_active (hactive : i.state.isActive = true) :
    ∃ a, att i.attempt = some a ∧ a.outcome = .active ∧ a.leaseEpoch = i.leaseEpoch ∧
      i.fencingToken = some a.fencingToken := by
  obtain ⟨a, ha⟩ := Option.isSome_iff_exists.mp
    ((h.numbered i.attempt).mpr ⟨h.held hactive, le_refl _⟩)
  exact ⟨a, ha, (h.outcome ha).mpr ⟨hactive, rfl⟩, (h.epochs ha).trans h.epoch.symm,
    h.token ha hactive⟩

theorem lease {a : WorkAttempt} (hready : i.state = .ready)
    (hplan : j.toWorkPlan = i.toWorkPlan) (hstate : j.state = .leased)
    (hepoch : j.leaseEpoch = i.leaseEpoch + 1) (hattempt : j.attempt = i.attempt + 1)
    (htoken : j.fencingToken = some a.fencingToken) (haepoch : a.leaseEpoch = i.leaseEpoch + 1)
    (houtcome : a.outcome = .active)
    (hatt : ∀ n, att' n = if n = i.attempt + 1 then some a else att n) : ItemLife att' j := by
  have hmax : j.maxAttempts = i.maxAttempts := congrArg WorkPlan.maxAttempts hplan
  have hidle : i.state.isActive = false := by rw [hready]; rfl
  have hactive : j.state.isActive = true := by rw [hstate]; rfl
  have hleft : i.attempt < i.maxAttempts := h.unexhausted (by rw [hready]; rfl)
  constructor
  · rw [hepoch, hattempt, h.epoch]
  · intro n
    rw [hatt, hattempt]
    by_cases hn : n = i.attempt + 1
    · simp [hn]
    · rw [if_neg hn, h.numbered]
      omega
  · intro n b hb
    rw [hatt] at hb
    by_cases hn : n = i.attempt + 1
    · rw [if_pos hn] at hb
      cases hb
      rw [haepoch, h.epoch, hn]
    · rw [if_neg hn] at hb
      exact h.epochs hb
  · intro n b hb
    rw [hatt] at hb
    rw [hactive, hattempt]
    by_cases hn : n = i.attempt + 1
    · rw [if_pos hn] at hb
      cases hb
      simp [hn, houtcome]
    · rw [if_neg hn] at hb
      rw [h.outcome hb, hidle]
      simp [hn]
  · intro b hb _
    rw [hatt, hattempt, if_pos rfl] at hb
    cases hb
    exact htoken
  · omega
  · omega
  · intro hopen
    rw [hstate] at hopen
    cases hopen

theorem run {g : WorkAttempt → WorkAttempt}
    (hplan : j.toWorkPlan = i.toWorkPlan) (hactive : j.state.isActive = i.state.isActive)
    (hopen : j.state.isOpen = true → i.state.isOpen = true)
    (hepoch : j.leaseEpoch = i.leaseEpoch) (hattempt : j.attempt = i.attempt)
    (htoken : j.fencingToken = i.fencingToken)
    (hg : ∀ a, (g a).leaseEpoch = a.leaseEpoch ∧ (g a).outcome = a.outcome ∧
      (g a).fencingToken = a.fencingToken)
    (hatt : ∀ n, att' n = (att n).map g) : ItemLife att' j := by
  have hmax : j.maxAttempts = i.maxAttempts := congrArg WorkPlan.maxAttempts hplan
  have hback : ∀ {n a}, att' n = some a → ∃ b, att n = some b ∧ g b = a := by
    intro n a ha
    rwa [hatt, Option.map_eq_some_iff] at ha
  constructor
  · rw [hepoch, hattempt]
    exact h.epoch
  · intro n
    rw [hatt, Option.isSome_map, hattempt]
    exact h.numbered n
  · intro n a ha
    obtain ⟨b, hb, rfl⟩ := hback ha
    rw [(hg b).1]
    exact h.epochs hb
  · intro n a ha
    obtain ⟨b, hb, rfl⟩ := hback ha
    rw [(hg b).2.1, h.outcome hb, hattempt, hactive]
  · rw [hactive]
    intro a ha
    rw [hattempt] at ha
    obtain ⟨b, hb, rfl⟩ := hback ha
    rw [htoken, (hg b).2.2]
    exact h.token hb
  · rw [hactive, hattempt]
    exact h.held
  · rw [hattempt, hmax]
    exact h.bounded
  · intro hj
    rw [hattempt, hmax]
    exact h.unexhausted (hopen hj)

theorem of_same (hplan : j.toWorkPlan = i.toWorkPlan)
    (hstate : j.state = i.state) (hepoch : j.leaseEpoch = i.leaseEpoch)
    (hattempt : j.attempt = i.attempt) (htoken : j.fencingToken = i.fencingToken) :
    ItemLife att j := by
  refine h.run (g := id) hplan ?_ ?_ hepoch hattempt htoken (fun _ => ⟨rfl, rfl, rfl⟩)
    fun _ => Option.map_id'.symm
  · rw [hstate]
  · rw [hstate]
    exact id

theorem finish {g : WorkAttempt → WorkAttempt}
    (hplan : j.toWorkPlan = i.toWorkPlan) (hj : j.state.isActive = false)
    (hepoch : j.leaseEpoch = i.leaseEpoch) (hattempt : j.attempt = i.attempt)
    (hopen : j.state.isOpen = true → i.attempt < i.maxAttempts)
    (hg : ∀ a, (g a).leaseEpoch = a.leaseEpoch ∧ ((g a).outcome = .active → a.outcome = .active))
    (hended : ∀ a, att i.attempt = some a → (g a).outcome ≠ .active)
    (hatt : ∀ n, att' n = (att n).map g) : ItemLife att' j := by
  have hmax : j.maxAttempts = i.maxAttempts := congrArg WorkPlan.maxAttempts hplan
  have hback : ∀ {n a}, att' n = some a → ∃ b, att n = some b ∧ g b = a := by
    intro n a ha
    rwa [hatt, Option.map_eq_some_iff] at ha
  constructor
  · rw [hepoch, hattempt]
    exact h.epoch
  · intro n
    rw [hatt, Option.isSome_map, hattempt]
    exact h.numbered n
  · intro n a ha
    obtain ⟨b, hb, rfl⟩ := hback ha
    rw [(hg b).1]
    exact h.epochs hb
  · intro n a ha
    obtain ⟨b, hb, rfl⟩ := hback ha
    rw [hj]
    -- only the open attempt was active, and it has ended
    have hnot : (g b).outcome ≠ .active := by
      intro hactive
      have hn := ((h.outcome hb).mp ((hg b).2 hactive)).2
      exact hended b (hn ▸ hb) hactive
    simp [hnot]
  · intro a _ hactive
    rw [hj] at hactive
    cases hactive
  · intro hactive
    rw [hj] at hactive
    cases hactive
  · rw [hattempt, hmax]
    exact h.bounded
  · rw [hattempt, hmax]
    exact hopen

theorem idle (hplan : j.toWorkPlan = i.toWorkPlan)
    (hepoch : j.leaseEpoch = i.leaseEpoch) (hattempt : j.attempt = i.attempt)
    (hi : i.state.isActive = false) (hj : j.state.isActive = false)
    (hopen : i.state.isOpen = true) : ItemLife att j := by
  refine h.finish (g := id) hplan hj hepoch hattempt (fun _ => h.unexhausted hopen)
    (fun _ => ⟨rfl, id⟩) (fun a ha hactive => ?_) fun _ => Option.map_id'.symm
  cases hi.symm.trans ((h.outcome ha).mp hactive).1

end

theorem fresh (hnone : ∀ n, att n = none) (hstate : i.state = .planned) (hattempt : i.attempt = 0)
    (hepoch : i.leaseEpoch = 0) (hmax : 0 < i.maxAttempts) : ItemLife att i := by
  have hidle : i.state.isActive = false := by rw [hstate]; rfl
  constructor
  · rw [hepoch, hattempt]
  · intro n
    rw [hnone]
    simp
    omega
  · intro n a ha
    rw [hnone] at ha
    cases ha
  · intro n a ha
    rw [hnone] at ha
    cases ha
  · intro a ha
    rw [hnone] at ha
    cases ha
  · intro hactive
    rw [hidle] at hactive
    cases hactive
  · omega
  · omega

end ItemLife

/-! ## All items -/

/-- Every item agrees with its attempts, and every attempt has its item. -/
structure LifeInv (db : PerceptionDb) : Prop where
  items : ∀ {id i}, db.items.find? id = some i → ItemLife (db.attemptsOf id) i
  attempts : ∀ {id n}, (db.attemptsOf id n).isSome = true → (db.items.find? id).isSome = true

theorem lifeInv_empty : LifeInv .empty := by
  constructor
  · intro id i h
    cases h
  · intro id n h
    cases h

namespace LifeInv

variable {db db' : PerceptionDb}

theorem of_items (h : LifeInv db) (hattempts : db'.attempts = db.attempts)
    (hitems : ∀ {id j}, db'.items.find? id = some j →
      ∃ i, db.items.find? id = some i ∧ (ItemLife (db.attemptsOf id) i → ItemLife (db.attemptsOf id) j))
    (hkeep : ∀ id, (db.items.find? id).isSome = true → (db'.items.find? id).isSome = true) :
    LifeInv db' := by
  have hatt : db'.attemptsOf = db.attemptsOf := by
    unfold PerceptionDb.attemptsOf
    rw [hattempts]
  constructor
  · intro id j hj
    obtain ⟨i, hi, hlife⟩ := hitems hj
    rw [hatt]
    exact hlife (h.items hi)
  · intro id n hsome
    rw [hatt] at hsome
    exact hkeep id (h.attempts hsome)

theorem of_target (h : LifeInv db) {target : String} {i j : DurablePerceptionWorkItem}
    (hi : db.items.find? target = some i)
    (hitems : ∀ id, db'.items.find? id = if id = target then some j else db.items.find? id)
    (hothers : ∀ id, id ≠ target → db'.attemptsOf id = db.attemptsOf id)
    (hlife : ItemLife (db.attemptsOf target) i → ItemLife (db'.attemptsOf target) j) :
    LifeInv db' := by
  constructor
  · intro id k hk
    rw [hitems] at hk
    by_cases hid : id = target
    · rw [if_pos hid] at hk
      cases hk
      rw [hid]
      exact hlife (h.items hi)
    · rw [if_neg hid] at hk
      rw [hothers id hid]
      exact h.items hk
  · intro id n hsome
    rw [hitems]
    by_cases hid : id = target
    · rw [if_pos hid]
      rfl
    · rw [if_neg hid]
      rw [hothers id hid] at hsome
      exact h.attempts hsome

end LifeInv

end Robata.Perception
