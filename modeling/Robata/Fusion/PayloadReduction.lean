import Robata.Fusion.Reduction

/-!
# What the payload reducer returns

The reducer keeps the first of the claims that have one digest, numbers the claims it keeps, and
completes when no part has two claims of one digest and the parts agree on abstaining.
-/

namespace Robata.Fusion

open Contracts Lib List

variable {H : Hashing} {items : List ProviderTaskClaim} {reduced : ReducedClaims}
  {payloads : List ProviderClaimPayload} {payload : ProviderClaimPayload}

/-- Equal but for the ordinals. -/
def SameApartFromOrdinals (claim claim' : ProviderTaskClaim) : Prop :=
  claim.toProviderClaimContent = claim'.toProviderClaimContent

theorem SameApartFromOrdinals.digest_eq {claim claim' : ProviderTaskClaim}
    (h : SameApartFromOrdinals claim claim') :
    providerClaimDigest H claim = providerClaimDigest H claim' := by
  unfold providerClaimDigest
  rw [show claim.toProviderClaimContent = claim'.toProviderClaimContent from h]

variable (H items reduced) in
/-- The claims that have been reduced: one for each digest, in the order of first occurrence. -/
structure Reduces : Prop where
  seen : ∀ d, d ∈ reduced.seenAcrossParts ↔ d ∈ reduced.claims.map (providerClaimDigest H)
  kept : ∀ d, d ∈ reduced.claims.map (providerClaimDigest H) ↔ d ∈ items.map (providerClaimDigest H)
  origin : ∀ claim ∈ reduced.claims, ∃ item ∈ items, SameApartFromOrdinals item claim
  distinct : (reduced.claims.map (providerClaimDigest H)).Nodup
  ordinals : reduced.claims.map (·.claimOrdinal) = List.range reduced.claims.length

theorem reduces_nil : Reduces H [] { seenAcrossParts := [], claims := [] } where
  seen _ := Iff.rfl
  kept _ := Iff.rfl
  origin _ h := absurd h not_mem_nil
  distinct := nodup_nil
  ordinals := rfl

theorem Reduces.push (h : Reduces H items reduced) (claim : ProviderTaskClaim) :
    Reduces H (items ++ [claim]) (reduced.push H claim) := by
  unfold ReducedClaims.push
  by_cases hseen : providerClaimDigest H claim ∈ reduced.seenAcrossParts
  · rw [if_pos hseen]
    refine ⟨h.seen, ?_, ?_, h.distinct, h.ordinals⟩
    · intro d
      rw [map_append, mem_append, ← h.kept d]
      constructor
      · exact .inl
      · rintro (hd | hd)
        · exact hd
        · rw [map_singleton, mem_singleton] at hd
          rw [hd, ← h.seen]
          exact hseen
    · intro kept hkept
      obtain ⟨item, hitem, hsame⟩ := h.origin kept hkept
      exact ⟨item, mem_append_left _ hitem, hsame⟩
  · rw [if_neg hseen]
    -- the ordinal of the claim that is kept does not show in its digest
    have hmap : (reduced.claims ++ [{ claim with claimOrdinal := reduced.claims.length }]).map
          (providerClaimDigest H) =
        reduced.claims.map (providerClaimDigest H) ++ [providerClaimDigest H claim] := by
      rw [map_append]
      rfl
    refine ⟨?_, ?_, ?_, ?_, ?_⟩
    · intro d
      rw [hmap, mem_cons, mem_append, mem_singleton, h.seen d, or_comm]
    · intro d
      rw [hmap, map_append, mem_append, mem_append, h.kept d]
      rfl
    · intro kept hkept
      rcases mem_append.mp hkept with hold | hnew
      · obtain ⟨item, hitem, hsame⟩ := h.origin kept hold
        exact ⟨item, mem_append_left _ hitem, hsame⟩
      · rw [mem_singleton.mp hnew]
        exact ⟨claim, mem_append_right _ mem_cons_self, rfl⟩
    · rw [hmap, nodup_append]
      refine ⟨h.distinct, nodup_singleton _, ?_⟩
      intro d hd d' hd' heq
      rw [mem_singleton.mp hd'] at heq
      exact hseen ((h.seen _).mpr (heq ▸ hd))
    · rw [map_append, h.ordinals, length_append, length_singleton, range_succ]
      rfl

/-- The loop over all claims. -/
def reducedClaims (H : Hashing) (items : List ProviderTaskClaim) : ReducedClaims :=
  items.foldl (fun reduced claim => reduced.push H claim) { seenAcrossParts := [], claims := [] }

variable (H items) in
theorem reduces_reducedClaims : Reduces H items (reducedClaims H items) := by
  induction items using reverseRecOn with
  | nil => exact reduces_nil
  | append_singleton items claim ih =>
    unfold reducedClaims at ih ⊢
    rw [foldl_append]
    exact ih.push claim

theorem reducedPayload_eq_ok {claims : List ProviderTaskClaim} {abstained : Bool}
    (hordinals : claims.map (·.claimOrdinal) = List.range claims.length)
    (habstained : abstained = true → claims = []) :
    reducedPayload claims abstained = .ok payload ↔ payload = { claims, abstained } := by
  unfold reducedPayload ProviderClaimPayload.validateOrdinals
  rw [bind_eq_ok]
  simp only [require_bind_eq_ok, require_eq_ok]
  constructor
  · rintro ⟨_, _, h⟩
    cases h
    rfl
  · rintro rfl
    exact ⟨(), ⟨hordinals, habstained⟩, rfl⟩

theorem reduceProviderClaimPayloads_eq_ok :
    reduceProviderClaimPayloads H payloads = .ok payload ↔
      payloads ≠ [] ∧
        (payloads.all (·.abstained) = true ∧ payload = { claims := [], abstained := true } ∨
          payloads.any (·.abstained) = false ∧
            (∀ part ∈ payloads, (part.claims.map (providerClaimDigest H)).Nodup) ∧
            payload =
              { claims := (reducedClaims H (payloads.flatMap (·.claims))).claims
                abstained := false }) := by
  unfold reduceProviderClaimPayloads
  rw [require_bind_eq_ok]
  apply and_congr_right
  intro hne
  by_cases hall : payloads.all (·.abstained) = true
  · rw [if_pos hall, reducedPayload_eq_ok rfl fun _ => rfl]
    -- with a part there is, not all and none abstain
    have hany : ¬payloads.any (·.abstained) = false := by
      cases payloads with
      | nil => exact absurd rfl hne
      | cons part rest =>
        rw [all_cons, Bool.and_eq_true] at hall
        simp [hall.1]
    simp [hall, hany]
  · rw [if_neg hall, require_bind_eq_ok, bind_eq_ok]
    have hordinals := (reduces_reducedClaims H (payloads.flatMap (·.claims))).ordinals
    unfold reducePart
    simp only [foldlM_foldDistinct_eq_ok]
    constructor
    · rintro ⟨hany, _, ⟨hdistinct, rfl⟩, hpayload⟩
      exact .inr ⟨hany, hdistinct, (reducedPayload_eq_ok hordinals (by simp)).mp hpayload⟩
    · rintro (⟨h, _⟩ | ⟨hany, hdistinct, hpayload⟩)
      · exact absurd h hall
      · exact ⟨hany, _, ⟨hdistinct, rfl⟩, (reducedPayload_eq_ok hordinals (by simp)).mpr hpayload⟩

end Robata.Fusion
