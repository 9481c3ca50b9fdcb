import Mathlib.Tactic

/-!
# Half-even rounding of an arithmetic progression

The multiples of a positive rational period `num / den` are rounded to the
nearest integer, ties to even.  The indices whose rounded value lies in a
half-open interval of integers form an interval of indices again; this file
computes its two ends and bounds its length.

A half-open interval of `d` integers has as preimage an interval of length `d`
on the real line, and which of its two ends belong to it is decided by the
parity of the integers there.  It is closed on both sides exactly when the
first integer is even and `d` is odd, and only such an interval can hold one
multiple more than a half-open interval of its length.
-/

namespace Robata.Lib

/-- Round `numerator / denominator` to the nearest integer, ties to even. -/
def roundHalfEven (numerator denominator : Int) : Int :=
  let quotient := numerator / denominator
  let doubledRemainder := numerator % denominator * 2
  if doubledRemainder < denominator then quotient
  else if denominator < doubledRemainder then quotient + 1
  else if quotient % 2 = 0 then quotient
  else quotient + 1

/-- A rounded value is at least `m` exactly when the value is past the middle
between `m - 1` and `m`, or in the middle and `m` is even. -/
theorem le_roundHalfEven_iff {n d m : Int} (hd : 0 < d) :
    m ≤ roundHalfEven n d ↔ (2 * m - 1) * d < 2 * n ∨ ((2 * m - 1) * d = 2 * n ∧ m % 2 = 0) := by
  have hdiv : d * (n / d) + n % d = n := Int.mul_ediv_add_emod n d
  have hnonneg : 0 ≤ n % d := Int.emod_nonneg n hd.ne'
  have hlt : n % d < d := Int.emod_lt_of_pos n hd
  unfold roundHalfEven
  simp only
  generalize hq : n / d = q at hdiv ⊢
  generalize hr : n % d = r at hdiv hnonneg hlt ⊢
  -- in units of `d / 2` the value is `2 q` plus a remainder below `2`
  have hscaled : 2 * n = 2 * q * d + r * 2 := by
    rw [← hdiv]
    ring
  have hbelow : ∀ j : Int, j ≤ 2 * q - 1 → j * d < 2 * n := by
    intro j hj
    have : j * d ≤ (2 * q - 1) * d := Int.mul_le_mul_of_nonneg_right hj hd.le
    nlinarith
  have habove : ∀ j : Int, 2 * q + 2 ≤ j → 2 * n < j * d := by
    intro j hj
    have : (2 * q + 2) * d ≤ j * d := Int.mul_le_mul_of_nonneg_right hj hd.le
    nlinarith
  rcases lt_trichotomy m (q + 1) with hm | hm | hm
  · -- `m ≤ q`: every branch rounds to at least `q`
    have hleft := hbelow (2 * m - 1) (by omega)
    constructor
    · exact fun _ => .inl hleft
    · intro _
      split_ifs <;> omega
  · -- `m = q + 1`: the comparison of the doubled remainder decides
    subst hm
    have hmid : (2 * (q + 1) - 1) * d = 2 * q * d + d := by ring
    rw [hmid, hscaled]
    split_ifs with h1 h2 h3
    · constructor
      · intro h
        omega
      · rintro (h | ⟨h, -⟩) <;> omega
    · constructor
      · intro _
        left
        omega
      · intro _
        omega
    · constructor
      · intro h
        omega
      · rintro (h | ⟨-, h⟩) <;> omega
    · constructor
      · intro _
        right
        constructor <;> omega
      · intro _
        omega
  · -- `q + 2 ≤ m`: no branch rounds that far
    have hright := habove (2 * m - 1) (by omega)
    constructor
    · intro h
      split_ifs at h <;> omega
    · rintro (h | ⟨h, -⟩) <;> omega

/-- The rounded multiples of a period of at least one are strictly increasing. -/
theorem roundHalfEven_lt_succ {p q : Int} (hq : 0 < q) (hpq : q ≤ p) (k : Int) :
    roundHalfEven (k * p) q < roundHalfEven ((k + 1) * p) q := by
  have hself : roundHalfEven (k * p) q ≤ roundHalfEven (k * p) q := le_rfl
  rw [le_roundHalfEven_iff hq] at hself
  generalize roundHalfEven (k * p) q = t at hself ⊢
  rw [← Int.add_one_le_iff, le_roundHalfEven_iff hq]
  left
  have hstep : (2 * (t + 1) - 1) * q = (2 * t - 1) * q + 2 * q := by ring
  have hnext : 2 * ((k + 1) * p) = 2 * (k * p) + 2 * p := by ring
  rw [hstep, hnext]
  rcases hself with hlt | ⟨heq, -⟩
  · omega
  · rcases hpq.lt_or_eq with hlt | rfl
    · omega
    · -- an odd multiple of the period is not an even one
      exfalso
      have hodd : (2 * t - 1) * q = 2 * k * q := by rw [heq]; ring
      have := Int.eq_of_mul_eq_mul_right hq.ne' hodd
      omega

/-! ## Indices of an interval of rounded values -/

/-- The first index of the progression that rounds to `m` or more. -/
def firstIndex (p q m : Int) : Int :=
  let boundary := (2 * m - 1) * q
  let scale := 2 * p
  if boundary % scale = 0 ∧ m % 2 = 0 then boundary / scale else boundary / scale + 1

/-- The middle between `m - 1` and `m` is a multiple of the period, and it
rounds to `m`. -/
def TiesTo (p q m : Int) : Prop := 2 * p ∣ (2 * m - 1) * q ∧ m % 2 = 0

instance (p q m : Int) : Decidable (TiesTo p q m) := inferInstanceAs (Decidable (_ ∧ _))

theorem firstIndex_eq (p q m : Int) :
    firstIndex p q m = (2 * m - 1) * q / (2 * p) + (if TiesTo p q m then 0 else 1) := by
  unfold firstIndex TiesTo
  simp only [Int.dvd_iff_emod_eq_zero]
  split_ifs <;> omega

theorem firstIndex_le_iff {p q m k : Int} (hp : 0 < p) (hq : 0 < q) :
    firstIndex p q m ≤ k ↔ m ≤ roundHalfEven (k * p) q := by
  have hscale : 0 < 2 * p := by omega
  have hdiv : 2 * p * ((2 * m - 1) * q / (2 * p)) + (2 * m - 1) * q % (2 * p) = (2 * m - 1) * q :=
    Int.mul_ediv_add_emod _ _
  have hnonneg := Int.emod_nonneg ((2 * m - 1) * q) hscale.ne'
  have hlt := Int.emod_lt_of_pos ((2 * m - 1) * q) hscale
  have hvalue : 2 * (k * p) = 2 * p * k := by ring
  rw [le_roundHalfEven_iff hq, hvalue]
  unfold firstIndex
  simp only
  generalize (2 * m - 1) * q = boundary at *
  generalize boundary / (2 * p) = quotient at *
  generalize boundary % (2 * p) = remainder at *
  -- the multiples of the scale are ordered as their factors are
  have hle : quotient ≤ k → 2 * p * quotient ≤ 2 * p * k :=
    fun h => Int.mul_le_mul_of_nonneg_left h hscale.le
  have hge : k ≤ quotient → 2 * p * k ≤ 2 * p * quotient :=
    fun h => Int.mul_le_mul_of_nonneg_left h hscale.le
  have hsucc : quotient + 1 ≤ k → 2 * p * quotient + 2 * p ≤ 2 * p * k := by
    intro h
    have := Int.mul_le_mul_of_nonneg_left h hscale.le
    rw [mul_add, mul_one] at this
    exact this
  have hpred : k + 1 ≤ quotient → 2 * p * k + 2 * p ≤ 2 * p * quotient := by
    intro h
    have := Int.mul_le_mul_of_nonneg_left h hscale.le
    rw [mul_add, mul_one] at this
    exact this
  split_ifs with htie
  · constructor
    · intro h
      have := hle h
      rcases this.lt_or_eq with h' | h'
      · exact .inl (by omega)
      · exact .inr ⟨by omega, htie.2⟩
    · intro h
      by_contra hlt'
      have := hpred (by omega)
      rcases h with h | ⟨h, -⟩ <;> omega
  · constructor
    · intro h
      have := hsucc h
      exact .inl (by omega)
    · intro h
      by_contra hlt'
      have := hge (by omega)
      rcases h with h | ⟨h, heven⟩
      · omega
      · -- equality forces a vanishing remainder, so this is the tie excluded here
        apply htie
        exact ⟨by omega, heven⟩

/-- Between two indices that bound an interval of `d` integers lie at most
`⌈d / period⌉` multiples, unless both ends of the preimage are ties: then there
is exactly one more. -/
theorem firstIndex_sub_le_iff {p q m d : Int} (hp : 0 < p) :
    firstIndex p q (m + d) - firstIndex p q m ≤ -(-(d * q) / p) ↔
      ¬ (TiesTo p q m ∧ p ∣ d * q ∧ d % 2 = 1) := by
  have hscale : 0 < 2 * p := by omega
  have hshift : (2 * (m + d) - 1) * q = (2 * m - 1) * q + 2 * (d * q) := by ring
  rw [firstIndex_eq, firstIndex_eq, hshift]
  have hties' : TiesTo p q (m + d) ↔ 2 * p ∣ (2 * m - 1) * q + 2 * (d * q) ∧ (m + d) % 2 = 0 := by
    unfold TiesTo
    rw [hshift]
  have hties : TiesTo p q m ↔ 2 * p ∣ (2 * m - 1) * q ∧ m % 2 = 0 := Iff.rfl
  generalize (2 * m - 1) * q = a at *
  generalize hx : d * q = x at *
  -- both quotients by the common scale, with their remainders
  have ha := Int.mul_ediv_add_emod a (2 * p)
  have ha0 := Int.emod_nonneg a hscale.ne'
  have ha1 := Int.emod_lt_of_pos a hscale
  have hb := Int.mul_ediv_add_emod (a + 2 * x) (2 * p)
  have hb0 := Int.emod_nonneg (a + 2 * x) hscale.ne'
  have hb1 := Int.emod_lt_of_pos (a + 2 * x) hscale
  have hc := Int.mul_ediv_add_emod (-x) p
  have hc0 := Int.emod_nonneg (-x) hp.ne'
  have hc1 := Int.emod_lt_of_pos (-x) hp
  have hdvda : 2 * p ∣ a ↔ a % (2 * p) = 0 := Int.dvd_iff_emod_eq_zero
  have hdvdb : 2 * p ∣ a + 2 * x ↔ (a + 2 * x) % (2 * p) = 0 := Int.dvd_iff_emod_eq_zero
  have hdvdx : p ∣ x ↔ (-x) % p = 0 := by
    rw [← Int.dvd_iff_emod_eq_zero, dvd_neg]
  generalize a / (2 * p) = qa at *
  generalize (a + 2 * x) / (2 * p) = qb at *
  generalize (-x) / p = qc at *
  generalize a % (2 * p) = ra at *
  generalize (a + 2 * x) % (2 * p) = rb at *
  generalize (-x) % p = rc at *
  -- comparing the quotients is comparing `2 p (qb - qa + qc)` with zero
  have hsum : 2 * p * (qb - qa + qc) = ra - rb - 2 * rc := by
    have h2 : 2 * p * qc = 2 * (p * qc) := by ring
    rw [mul_add, mul_sub, h2]
    omega
  have hfactor : ∀ j : Int, 1 ≤ j → 2 * p ≤ 2 * p * j := by
    intro j hj
    have := Int.mul_le_mul_of_nonneg_left hj hscale.le
    omega
  have hfactor' : ∀ j : Int, j ≤ -1 → 2 * p * j ≤ -(2 * p) := by
    intro j hj
    have := Int.mul_le_mul_of_nonneg_left hj hscale.le
    omega
  have hle : qb - qa + qc ≤ 0 := by
    by_contra h
    have := hfactor (qb - qa + qc) (by omega)
    omega
  by_cases hta : TiesTo p q m
  · rw [if_pos hta]
    have hra : ra = 0 := hdvda.mp (hties.mp hta).1
    have heven := (hties.mp hta).2
    by_cases hrc : rc = 0
    · -- the interval is a whole number of periods long
      have hzero : qb - qa + qc = 0 := by
        by_contra h
        have := hfactor' (qb - qa + qc) (by omega)
        omega
      have hrb : rb = 0 := by
        rw [hzero] at hsum
        omega
      by_cases htb : TiesTo p q (m + d)
      · rw [if_pos htb]
        have hb' := (hties'.mp htb).2
        constructor
        · rintro _ ⟨-, -, hodd⟩
          omega
        · intro _
          omega
      · rw [if_neg htb]
        have hodd : d % 2 = 1 := by
          by_contra hne
          exact htb (hties'.mpr ⟨hdvdb.mpr hrb, by omega⟩)
        constructor
        · intro h
          omega
        · intro h
          exact absurd ⟨hta, hdvdx.mpr hrc, hodd⟩ h
    · have hneg : qb - qa + qc ≤ -1 := by
        by_contra h
        have hzero : qb - qa + qc = 0 := by omega
        rw [hzero] at hsum
        omega
      constructor
      · rintro _ ⟨-, hdvd, -⟩
        exact hrc (hdvdx.mp hdvd)
      · intro _
        split_ifs <;> omega
  · rw [if_neg hta]
    constructor
    · rintro _ ⟨hcon, -⟩
      exact hta hcon
    · intro _
      split_ifs <;> omega

end Robata.Lib
