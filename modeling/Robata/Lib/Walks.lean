import Mathlib.Data.List.Basic
import Mathlib.Data.List.Induction
import Mathlib.Order.WellFounded

/-!
# Walks of a directed multigraph

A walk is the list of its edges.  Two questions about walks are answered by the edges alone:
whether one returns to its start, and whether two different walks from a vertex end at one vertex.
-/

namespace Robata.Lib

open List

structure Multigraph (ν ε : Type) where
  edges : List ε
  (source target : ε → ν)

namespace Multigraph

variable {ν ε : Type} (G : Multigraph ν ε)

def IsWalk : ν → ν → List ε → Prop
  | a, b, [] => a = b
  | a, b, e :: rest => e ∈ G.edges ∧ G.source e = a ∧ IsWalk (G.target e) b rest

def Reaches (a b : ν) : Prop := ∃ walk, G.IsWalk a b walk

/-- A walk with an edge returns to its start. -/
def Cyclic : Prop := ∃ a walk, walk ≠ [] ∧ G.IsWalk a a walk

/-- Two different walks from a vertex end at one vertex. -/
def Forks (a : ν) : Prop := ∃ b p q, p ≠ q ∧ G.IsWalk a b p ∧ G.IsWalk a b q

/-- A vertex comes after another one by an edge. -/
def Follows (b a : ν) : Prop := ∃ e ∈ G.edges, G.source e = a ∧ G.target e = b

variable {G} {a b c : ν} {p q : List ε} {e : ε}

theorem isWalk_append : G.IsWalk a c (p ++ q) ↔ ∃ b, G.IsWalk a b p ∧ G.IsWalk b c q := by
  induction p generalizing a with
  | nil =>
    refine ⟨fun h => ⟨a, rfl, h⟩, ?_⟩
    rintro ⟨b, rfl, h⟩
    exact h
  | cons e p ih =>
    simp only [cons_append, IsWalk, ih]
    exact ⟨fun ⟨he, hs, b, hp, hq⟩ => ⟨b, ⟨he, hs, hp⟩, hq⟩,
      fun ⟨b, ⟨he, hs, hp⟩, hq⟩ => ⟨he, hs, b, hp, hq⟩⟩

theorem IsWalk.append (hp : G.IsWalk a b p) (hq : G.IsWalk b c q) : G.IsWalk a c (p ++ q) :=
  isWalk_append.mpr ⟨b, hp, hq⟩

theorem isWalk_concat :
    G.IsWalk a b (p ++ [e]) ↔ G.IsWalk a (G.source e) p ∧ e ∈ G.edges ∧ G.target e = b := by
  rw [isWalk_append]
  constructor
  · rintro ⟨_, hp, he, rfl, hb⟩
    exact ⟨hp, he, hb⟩
  · rintro ⟨hp, he, hb⟩
    exact ⟨_, hp, he, rfl, hb⟩

theorem Reaches.refl (a : ν) : G.Reaches a a := ⟨[], rfl⟩

theorem Reaches.step (h : G.Reaches a (G.source e)) (he : e ∈ G.edges) :
    G.Reaches a (G.target e) := by
  obtain ⟨p, hp⟩ := h
  exact ⟨p ++ [e], isWalk_concat.mpr ⟨hp, he, rfl⟩⟩

/-- What the edges keep holds of every vertex that is reached. -/
theorem Reaches.induction {P : ν → Prop} (h : G.Reaches a b) (ha : P a)
    (hstep : ∀ e ∈ G.edges, P (G.source e) → P (G.target e)) : P b := by
  obtain ⟨p, hp⟩ := h
  induction p generalizing a with
  | nil => exact hp ▸ ha
  | cons e p ih =>
    obtain ⟨he, rfl, hp⟩ := hp
    exact ih (hstep e he ha) hp

/-- No walk returns to a vertex from which every walk ends. -/
theorem not_isWalk_of_acc (h : Acc G.Follows a) : ∀ p, p ≠ [] → ¬ G.IsWalk a a p := by
  induction h with
  | intro a _ ih =>
    rintro (_ | ⟨e, p⟩) hne hwalk
    · exact hne rfl
    · obtain ⟨he, rfl, hwalk⟩ := hwalk
      -- the walk may as well start after its first edge
      exact ih (G.target e) ⟨e, he, rfl, rfl⟩ (p ++ [e]) (append_ne_nil_of_right_ne_nil _
        (cons_ne_nil _ _)) (isWalk_concat.mpr ⟨hwalk, he, rfl⟩)

theorem not_cyclic_of_acc (h : ∀ e ∈ G.edges, Acc G.Follows (G.source e)) : ¬ G.Cyclic := by
  rintro ⟨a, (_ | ⟨e, p⟩), hne, hwalk⟩
  · exact hne rfl
  · exact not_isWalk_of_acc (hwalk.2.1 ▸ h e hwalk.1) _ hne hwalk

/-- Walks fork where an edge returns to the start, or two edges enter one vertex. -/
theorem forks_iff : G.Forks a ↔ ∃ e ∈ G.edges, G.Reaches a (G.source e) ∧ (G.target e = a ∨
    ∃ e' ∈ G.edges, G.Reaches a (G.source e') ∧ e' ≠ e ∧ G.target e' = G.target e) := by
  constructor
  · rintro ⟨b, p, q, hne, hp, hq⟩
    induction p using reverseRecOn generalizing b q with
    | nil =>
      rcases eq_nil_or_concat' q with rfl | ⟨q, e, rfl⟩
      · exact absurd rfl hne
      · obtain ⟨hq, he, htarget⟩ := isWalk_concat.mp hq
        exact ⟨e, he, ⟨q, hq⟩, .inl (htarget.trans hp.symm)⟩
    | append_singleton p e ih =>
      obtain ⟨hp, he, htarget⟩ := isWalk_concat.mp hp
      rcases eq_nil_or_concat' q with rfl | ⟨q, e', rfl⟩
      · exact ⟨e, he, ⟨p, hp⟩, .inl (htarget.trans hq.symm)⟩
      · obtain ⟨hq, he', htarget'⟩ := isWalk_concat.mp hq
        by_cases hsame : e' = e
        · subst hsame
          exact ih _ q (fun heq => hne (heq ▸ rfl)) hp hq
        · exact ⟨e, he, ⟨p, hp⟩, .inr ⟨e', he', ⟨q, hq⟩, hsame, htarget'.trans htarget.symm⟩⟩
  · rintro ⟨e, he, ⟨p, hp⟩, htarget | ⟨e', he', ⟨q, hq⟩, hne, htarget⟩⟩
    · exact ⟨a, p ++ [e], [], append_ne_nil_of_right_ne_nil _ (cons_ne_nil _ _),
        isWalk_concat.mpr ⟨hp, he, htarget⟩, rfl⟩
    · refine ⟨G.target e, p ++ [e], q ++ [e'], fun heq => hne ?_, isWalk_concat.mpr ⟨hp, he, rfl⟩,
        isWalk_concat.mpr ⟨hq, he', htarget⟩⟩
      exact (cons.inj (append_inj_right' heq rfl)).1.symm

theorem Forks.exists_edge (h : G.Forks a) : ∃ e ∈ G.edges, G.source e = a := by
  obtain ⟨b, p, q, hne, hp, hq⟩ := h
  cases p with
  | cons e p => exact ⟨e, hp.1, hp.2.1⟩
  | nil =>
    cases q with
    | cons e q => exact ⟨e, hq.1, hq.2.1⟩
    | nil => exact absurd rfl hne

/-- Walks from a vertex that do not fork are determined by their ends. -/
theorem IsWalk.unique (hforks : ¬ G.Forks a) (hp : G.IsWalk a b p) (hq : G.IsWalk a b q) :
    p = q := by
  by_contra hne
  exact hforks ⟨b, p, q, hne, hp, hq⟩

end Multigraph

end Robata.Lib
