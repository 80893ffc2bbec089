import DocFilter.Proofs.Number.Quotient

/-!
The rank that is nearest to a quotient.

It depends on the value of the quotient and not on its terms (`nearestRank_congr`), so a magnitude
has the same rank however it is written. The magnitude of a rank is nearest to that rank
(`nearestRank_unitsOfRank`), which makes ranks and magnitudes the same thing.
-/

namespace DocFilter.Binary64

/-! ### Terms of a quotient -/

theorem roundHalfEven_mul_left {c : Nat} (hc : 0 < c) (num den : Nat) :
    roundHalfEven (c * num) (c * den) = roundHalfEven num den := by
  unfold roundHalfEven
  simp only [Nat.mul_div_mul_left _ _ hc, Nat.mul_mod_mul_left, Nat.mul_left_comm 2 c,
    Nat.mul_lt_mul_left hc]

theorem nearestRank_mul_left {c : Nat} (hc : 0 < c) (num den : Nat) :
    nearestRank (c * num) (c * den) = nearestRank num den := by
  unfold nearestRank
  simp only [Nat.mul_div_mul_left _ _ hc, Nat.mul_assoc, roundHalfEven_mul_left hc]

theorem nearestRank_congr {num den num' den' : Nat} (hden : 0 < den) (hden' : 0 < den')
    (h : num * den' = num' * den) : nearestRank num den = nearestRank num' den' := by
  calc nearestRank num den = nearestRank (den' * num) (den' * den) :=
        (nearestRank_mul_left hden' num den).symm
    _ = nearestRank (den * num') (den * den') := by
        rw [Nat.mul_comm den' num, h, Nat.mul_comm num' den, Nat.mul_comm den' den]
    _ = nearestRank num' den' := nearestRank_mul_left hden num' den'

/-! ### Magnitudes of ranks -/

theorem roundHalfEven_mul_self {den : Nat} (hden : 0 < den) (q : Nat) :
    roundHalfEven (q * den) den = q := by
  unfold roundHalfEven
  simp only [Nat.mul_div_cancel _ hden, Nat.mul_mod_left]
  exact if_pos hden

/-- No number of 53 bits is rounded, however far it is shifted. -/
theorem nearestRank_shift {significand : Nat} (hlow : 2 ^ 52 ≤ significand)
    (hhigh : significand < 2 ^ 53) (shift : Nat) :
    nearestRank (significand * 2 ^ shift) 1 = shift * 2 ^ 52 + significand := by
  have hne : significand * 2 ^ shift ≠ 0 :=
    Nat.mul_ne_zero (by omega) (Nat.pos_iff_ne_zero.mp (Nat.two_pow_pos _))
  have hlog : Nat.log2 (significand * 2 ^ shift) = shift + 52 := by
    refine (Nat.log2_eq_iff hne).mpr ⟨?_, ?_⟩
    · rw [Nat.add_comm, Nat.pow_add]
      exact Nat.mul_le_mul_right _ hlow
    · rw [show shift + 52 + 1 = 53 + shift by omega, Nat.pow_add]
      exact Nat.mul_lt_mul_of_pos_right hhigh (Nat.two_pow_pos _)
  unfold nearestRank
  dsimp only
  rw [Nat.div_one, hlog, Nat.add_sub_cancel, Nat.one_mul,
    roundHalfEven_mul_self (Nat.two_pow_pos _)]

theorem nearestRank_of_lt {n : Nat} (h : n < 2 ^ 52) : nearestRank n 1 = n := by
  have hlog : Nat.log2 n - 52 = 0 := by
    by_cases hzero : n = 0
    · simp [hzero]
    · have hlt := (Nat.log2_lt hzero).mpr h
      omega
  have hround := roundHalfEven_mul_self Nat.one_pos n
  rw [Nat.mul_one] at hround
  unfold nearestRank
  simp [hlog, hround]

/-- The magnitude of a rank is nearest to that rank. -/
theorem nearestRank_unitsOfRank (rank : Nat) : nearestRank (unitsOfRank rank) 1 = rank := by
  unfold unitsOfRank
  split_ifs with hsmall
  · rw [show rank / 2 ^ 52 - 1 = 0 by omega, Nat.pow_zero, Nat.mul_one, nearestRank_of_lt hsmall]
  · rw [nearestRank_shift (by omega) (by omega)]
    omega

/-! ### Bounds -/

/-- A quotient that has many bits has a high rank. -/
theorem le_nearestRank {num den bits : Nat} (hden : 0 < den) (h : den * 2 ^ (bits + 52) ≤ num) :
    (bits + 1) * 2 ^ 52 ≤ nearestRank num den := by
  have hpower : 2 ^ (bits + 52) ≤ num / den := (Nat.le_div_iff_mul_le hden).mpr (by rwa [mul_comm])
  have hne : num / den ≠ 0 := Nat.pos_iff_ne_zero.mp ((Nat.two_pow_pos _).trans_le hpower)
  have hlog : bits + 52 ≤ Nat.log2 (num / den) := (Nat.le_log2 hne).mpr hpower
  have hreach : den * 2 ^ 52 ≤ num :=
    (Nat.mul_le_mul_left den (Nat.pow_le_pow_right (by decide) (by omega))).trans h
  have hshift : bits ≤ Nat.log2 (num / den) - 52 := by omega
  rw [Nat.succ_mul]
  exact Nat.add_le_add (Nat.mul_le_mul_right _ hshift) (le_significand hden hreach)

/-- A quotient that is less than half of the least magnitude vanishes. -/
theorem nearestRank_eq_zero {num den : Nat} (h : 2 * num < den) : nearestRank num den = 0 := by
  have hlt : num < den := by omega
  unfold nearestRank roundHalfEven
  simp [Nat.div_eq_of_lt hlt, Nat.mod_eq_of_lt hlt, h]

end DocFilter.Binary64
