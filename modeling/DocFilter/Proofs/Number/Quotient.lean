import DocFilter.Number.Binary64
import Mathlib.Algebra.Order.Ring.Nat
import Mathlib.Data.Nat.Prime.Basic
import Mathlib.Data.Nat.Log
import Mathlib.Tactic.Ring
import Mathlib.Tactic.Linarith

/-!
Quotients of whole numbers, rounded to binary64 and then up.

A quotient is rounded to the nearest significand of 53 bits, which may be above or below it, and
rounding the result up can then miss the least whole number that is not below the quotient. For
numerators up to `2 ^ 53` it does not: a whole number is a significand itself at every shift that
occurs, so the rounding cannot cross it (`units_le`), and a quotient that is not whole lies too far
above the whole number below it to be rounded down to it (`below_half_step`).
-/

namespace DocFilter.Binary64

/-! ### Rounding -/

/-- What is at most a whole number is not rounded above it. -/
theorem roundHalfEven_le {num den q : Nat} (hden : 0 < den) (h : num ≤ q * den) :
    roundHalfEven num den ≤ q := by
  have hdiv : num / den ≤ q := Nat.div_le_of_le_mul (by rwa [mul_comm])
  have hsplit := Nat.div_add_mod num den
  unfold roundHalfEven
  dsimp only
  split
  · exact hdiv
  · rename_i hhalf
    have hrest : 0 < num % den := by omega
    -- The quotient is not whole, so there is room for one more below `q`.
    have hlt : num / den < q := by
      by_contra hge
      have hq : q * den ≤ num / den * den := Nat.mul_le_mul_right den (Nat.le_of_not_lt hge)
      have hcomm : den * (num / den) = num / den * den := Nat.mul_comm ..
      omega
    split <;> omega

theorem lt_roundHalfEven {num den k : Nat} (hden : 0 < den) (h : (2 * k + 1) * den < 2 * num) :
    k < roundHalfEven num den := by
  have hsplit := Nat.div_add_mod num den
  have hmod := Nat.mod_lt num hden
  have hcomm : den * (num / den) = num / den * den := Nat.mul_comm ..
  rw [Nat.add_mul, Nat.mul_assoc] at h
  have hk : k ≤ num / den := by
    by_contra hlt
    have hmul : (num / den + 1) * den ≤ k * den :=
      Nat.mul_le_mul_right den (Nat.lt_of_not_le hlt)
    rw [Nat.add_mul] at hmul
    omega
  unfold roundHalfEven
  dsimp only
  obtain hlt | rfl := Nat.lt_or_eq_of_le hk
  · split
    · exact hlt
    · split <;> omega
  · rw [if_neg (by omega), if_pos (by omega)]
    exact Nat.lt_succ_self _

/-! ### Ranks -/

/-- The shift of a significand of 53 bits, the last of which may have come by rounding. -/
theorem unitsOfRank_shift {shift significand : Nat} (hlow : 2 ^ 52 ≤ significand)
    (hhigh : significand ≤ 2 ^ 53) :
    unitsOfRank (shift * 2 ^ 52 + significand) = significand * 2 ^ shift := by
  have hrank : ¬shift * 2 ^ 52 + significand < 2 ^ 52 := by omega
  unfold unitsOfRank
  rw [if_neg hrank]
  obtain hlt | rfl := Nat.lt_or_eq_of_le hhigh
  · rw [show (shift * 2 ^ 52 + significand) % 2 ^ 52 = significand - 2 ^ 52 by omega,
      show (shift * 2 ^ 52 + significand) / 2 ^ 52 - 1 = shift by omega,
      Nat.add_sub_cancel' hlow]
  · rw [show (shift * 2 ^ 52 + 2 ^ 53) % 2 ^ 52 = 0 by omega,
      show (shift * 2 ^ 52 + 2 ^ 53) / 2 ^ 52 - 1 = shift + 1 by omega, Nat.pow_succ 2 shift]
    ring

/-- The significand of a quotient has at most 53 bits, or is the least one of 54. -/
theorem significand_le {num den : Nat} (hden : 0 < den) :
    roundHalfEven num (den * 2 ^ (Nat.log2 (num / den) - 52)) ≤ 2 ^ 53 := by
  set shift := Nat.log2 (num / den) - 52 with hshift
  have hquotient : num / den < 2 ^ (shift + 53) := by
    calc num / den < 2 ^ (Nat.log2 (num / den) + 1) := Nat.lt_log2_self
      _ ≤ 2 ^ (shift + 53) := Nat.pow_le_pow_right (by decide) (by omega)
  have hnum : num < 2 ^ (shift + 53) * den := (Nat.div_lt_iff_lt_mul hden).mp hquotient
  refine roundHalfEven_le (Nat.mul_pos hden (Nat.two_pow_pos _)) ?_
  calc num ≤ 2 ^ (shift + 53) * den := hnum.le
    _ = 2 ^ 53 * (den * 2 ^ shift) := by rw [Nat.pow_add]; ring

/-- The greatest power of two in a quotient that has at least 53 bits. -/
theorem two_pow_le_of_quotient {num den : Nat} (hden : 0 < den) (h : den * 2 ^ 52 ≤ num) :
    den * 2 ^ (Nat.log2 (num / den) - 52 + 52) ≤ num := by
  have hquotient : 2 ^ 52 ≤ num / den := (Nat.le_div_iff_mul_le hden).mpr (by rwa [mul_comm])
  have hne : num / den ≠ 0 := by omega
  have hlog : 52 ≤ Nat.log2 (num / den) := (Nat.le_log2 hne).mpr hquotient
  rw [Nat.sub_add_cancel hlog, mul_comm]
  exact (Nat.le_div_iff_mul_le hden).mp (Nat.log2_self_le hne)

/-- The significand of such a quotient has no fewer than 53 bits. -/
theorem le_significand {num den : Nat} (hden : 0 < den) (h : den * 2 ^ 52 ≤ num) :
    2 ^ 52 ≤ roundHalfEven num (den * 2 ^ (Nat.log2 (num / den) - 52)) := by
  set shift := Nat.log2 (num / den) - 52 with hshift
  have hstep : 0 < den * 2 ^ shift := Nat.mul_pos hden (Nat.two_pow_pos _)
  have hexact : 2 ^ 52 * (den * 2 ^ shift) ≤ num := by
    calc 2 ^ 52 * (den * 2 ^ shift) = den * 2 ^ (shift + 52) := by rw [Nat.pow_add]; ring
      _ ≤ num := two_pow_le_of_quotient hden h
  have hround : 2 ^ 52 - 1 < roundHalfEven num (den * 2 ^ shift) :=
    lt_roundHalfEven hstep (by omega)
  omega

/-- The shift and the significand of a quotient that has at least 53 bits. -/
theorem nearestRank_eq {num den : Nat} (hden : 0 < den) (h : den * 2 ^ 52 ≤ num) :
    ∃ shift significand,
      nearestRank num den = shift * 2 ^ 52 + significand ∧
      significand = roundHalfEven num (den * 2 ^ shift) ∧
      den * 2 ^ (shift + 52) ≤ num ∧ 2 ^ 52 ≤ significand ∧ significand ≤ 2 ^ 53 :=
  ⟨_, _, rfl, rfl, two_pow_le_of_quotient hden h, le_significand hden h, significand_le hden⟩

/-- A quotient that is far enough below the greatest magnitude has a finite rank. -/
theorem nearestRank_lt {num den bits : Nat} (hden : 0 < den) (hbits : bits ≤ 2097)
    (h : num < 2 ^ bits * den) : nearestRank num den < rankCount := by
  have hquotient : num / den < 2 ^ bits := (Nat.div_lt_iff_lt_mul hden).mpr h
  have hlog : Nat.log2 (num / den) ≤ 2096 := by
    by_cases hzero : num / den = 0
    · simp [hzero]
    · have hlt := (Nat.log2_lt hzero).mpr hquotient
      omega
  have hsignificand := @significand_le num den hden
  unfold nearestRank rankCount
  dsimp only
  omega

/-! ### Rounding up -/

theorem two_pow_mul_one (n : Nat) : 2 ^ n * one = 2 ^ (n + 1074) := by
  unfold one
  exact (Nat.pow_add 2 n 1074).symm

theorem one_pos : 0 < one := by
  apply Nat.pos_of_ne_zero
  intro h
  have hpower := two_pow_mul_one 0
  rw [h, Nat.mul_zero] at hpower
  exact absurd hpower.symm (NeZero.ne _)

theorem one_eq {shift : Nat} (h : shift ≤ 1074) : one = 2 ^ (1074 - shift) * 2 ^ shift := by
  rw [one, ← Nat.pow_add, Nat.sub_add_cancel h]

theorem two_pow_le_one {n : Nat} (h : n ≤ 1074) : 2 ^ n ≤ one := by
  rw [one_eq h]
  exact Nat.le_mul_of_pos_left _ (Nat.two_pow_pos _)

/-- A quotient of a numerator that is not too large can be rounded up. -/
theorem exists_ceiling?_ofRatio {num den bits : Nat} (hden : 0 < den) (hbits : bits ≤ 1023)
    (hnum : num < 2 ^ bits) : ∃ n, (ofRatio false num den).ceiling? = some n := by
  have hrank : nearestRank (num * one) den < rankCount := by
    refine nearestRank_lt hden (show bits + 1074 ≤ 2097 by omega) ?_
    calc num * one < 2 ^ bits * one := Nat.mul_lt_mul_of_pos_right hnum one_pos
      _ = 2 ^ (bits + 1074) := two_pow_mul_one bits
      _ ≤ 2 ^ (bits + 1074) * den := Nat.le_mul_of_pos_right _ hden
  rw [ofRatio, ofRank, dif_pos hrank]
  exact ⟨_, rfl⟩

/-- The significand of a quotient is not above that of a whole number that is not below the
quotient. -/
theorem units_le {num den q shift : Nat} (hden : 0 < den) (hshift : shift ≤ 1074)
    (h : num ≤ q * den) :
    roundHalfEven (num * one) (den * 2 ^ shift) * 2 ^ shift ≤ q * one := by
  rw [one_eq hshift, ← Nat.mul_assoc q]
  refine Nat.mul_le_mul_right _ (roundHalfEven_le (Nat.mul_pos hden (Nat.two_pow_pos _)) ?_)
  calc num * (2 ^ (1074 - shift) * 2 ^ shift)
      ≤ q * den * (2 ^ (1074 - shift) * 2 ^ shift) := Nat.mul_le_mul_right _ h
    _ = q * 2 ^ (1074 - shift) * (den * 2 ^ shift) := by ring

/-- The significand of a quotient is above that of a whole number that is further below the quotient
than half a step. -/
theorem lt_units {num den k shift : Nat} (hden : 0 < den) (hshift : shift ≤ 1074)
    (h : 2 * (k * den) * one + den * 2 ^ shift < 2 * num * one) :
    k * one < roundHalfEven (num * one) (den * 2 ^ shift) * 2 ^ shift := by
  have hlt : k * 2 ^ (1074 - shift) < roundHalfEven (num * one) (den * 2 ^ shift) := by
    refine lt_roundHalfEven (Nat.mul_pos hden (Nat.two_pow_pos _)) ?_
    calc (2 * (k * 2 ^ (1074 - shift)) + 1) * (den * 2 ^ shift)
        = 2 * (k * den) * (2 ^ (1074 - shift) * 2 ^ shift) + den * 2 ^ shift := by ring
      _ = 2 * (k * den) * one + den * 2 ^ shift := by rw [← one_eq hshift]
      _ < 2 * num * one := h
      _ = 2 * (num * one) := Nat.mul_assoc ..
  calc k * one = k * 2 ^ (1074 - shift) * 2 ^ shift := by rw [one_eq hshift, Nat.mul_assoc]
    _ < _ := Nat.mul_lt_mul_of_pos_right hlt (Nat.two_pow_pos _)

/-- A whole number below a quotient is further below it than half a step, if the numerator has at
most 53 bits or is a power of two. -/
theorem below_half_step {num den k shift : Nat} (hnum : num ≤ 2 ^ 53) (hk : k * den < num)
    (hpositive : 0 < k) (hshift : shift ≤ 1074) (hreach : den * 2 ^ (shift + 52) ≤ num * one) :
    2 * (k * den) * one + den * 2 ^ shift < 2 * num * one := by
  have hstep : den * 2 ^ shift ≤ 2 * one := by
    have h : den * 2 ^ shift * 2 ^ 52 ≤ 2 * one * 2 ^ 52 := by
      calc den * 2 ^ shift * 2 ^ 52 = den * 2 ^ (shift + 52) := by rw [Nat.pow_add, Nat.mul_assoc]
        _ ≤ num * one := hreach
        _ ≤ 2 ^ 53 * one := Nat.mul_le_mul_right _ hnum
        _ = 2 * one * 2 ^ 52 := by ring
    exact Nat.le_of_mul_le_mul_right h (Nat.two_pow_pos _)
  obtain hlt | heq := Nat.lt_or_eq_of_le hstep
  · calc 2 * (k * den) * one + den * 2 ^ shift < 2 * (k * den) * one + 2 * one := by omega
      _ = 2 * (k * den + 1) * one := by ring
      _ ≤ 2 * num * one := Nat.mul_le_mul_right _ (by omega)
  · -- A step of two units can only be reached by `2 ^ 53`, which the denominator then divides.
    have hnum' : num = 2 ^ 53 := by
      have h : 2 ^ 53 * one ≤ num * one := by
        calc 2 ^ 53 * one = 2 * one * 2 ^ 52 := by ring
          _ = den * 2 ^ (shift + 52) := by rw [← heq, Nat.pow_add, Nat.mul_assoc]
          _ ≤ num * one := hreach
      exact Nat.le_antisymm hnum (Nat.le_of_mul_le_mul_right h one_pos)
    have hdivides : den ∣ 2 ^ (1 + 1074) := by
      refine ⟨2 ^ shift, ?_⟩
      rw [heq, ← two_pow_mul_one, Nat.pow_one]
    obtain ⟨j, _, rfl⟩ := (Nat.dvd_prime_pow Nat.prime_two).mp hdivides
    have hj : j ≤ 53 := by
      refine (Nat.pow_le_pow_iff_right (by decide : 1 < 2)).mp ?_
      calc 2 ^ j ≤ k * 2 ^ j := Nat.le_mul_of_pos_left _ hpositive
        _ ≤ 2 ^ 53 := by omega
    have hwhole : k + 1 ≤ 2 ^ (53 - j) := by
      have hpow : 2 ^ 53 = 2 ^ (53 - j) * 2 ^ j := by rw [← Nat.pow_add, Nat.sub_add_cancel hj]
      rw [hnum', hpow] at hk
      exact Nat.lt_of_mul_lt_mul_right hk
    have hhalf : 2 ^ shift < 2 * one := by
      calc 2 ^ shift ≤ one := two_pow_le_one hshift
        _ < 2 * one := by
          have hone := one_pos
          omega
    calc 2 * (k * 2 ^ j) * one + 2 ^ j * 2 ^ shift
        < 2 * (k * 2 ^ j) * one + 2 ^ j * (2 * one) :=
          Nat.add_lt_add_left (Nat.mul_lt_mul_of_pos_left hhalf (Nat.two_pow_pos _)) _
      _ = 2 * ((k + 1) * 2 ^ j) * one := by ring
      _ ≤ 2 * (2 ^ (53 - j) * 2 ^ j) * one := by gcongr
      _ = 2 * num * one := by rw [hnum', ← Nat.pow_add, Nat.sub_add_cancel hj]

/-- The number of units of a positive quotient, between those of the whole numbers next to it. -/
theorem units?_ofRatio {num den q : Nat} (hden : 0 < den) (hfits : den * 2 ^ 52 ≤ one)
    (hnum : num ≤ 2 ^ 53) (hpositive : 0 < num) (hbelow : q * den < num)
    (habove : num ≤ (q + 1) * den) :
    ∃ units : Nat, (ofRatio false num den).units? = some (units : Int) ∧ q * one < units ∧
      units ≤ (q + 1) * one := by
  obtain ⟨shift, significand, hrank, hsignificand, hreach, hlow, hhigh⟩ :=
    nearestRank_eq hden (hfits.trans (Nat.le_mul_of_pos_left one hpositive))
  have hshift : shift ≤ 1075 := by
    have h : 2 ^ (shift + 52) ≤ 2 ^ (53 + 1074) := by
      calc 2 ^ (shift + 52) ≤ den * 2 ^ (shift + 52) := Nat.le_mul_of_pos_left _ hden
        _ ≤ num * one := hreach
        _ ≤ 2 ^ 53 * one := Nat.mul_le_mul_right _ hnum
        _ = 2 ^ (53 + 1074) := two_pow_mul_one 53
    have := (Nat.pow_le_pow_iff_right (by decide : 1 < 2)).mp h
    omega
  have hfinite : nearestRank (num * one) den < rankCount := by
    rw [hrank, rankCount]
    omega
  refine ⟨significand * 2 ^ shift, ?_, ?_⟩
  · rw [ofRatio, ofRank, dif_pos hfinite, units?]
    simp only [hrank, unitsOfRank_shift hlow hhigh]
    rfl
  · obtain hshift | rfl := Nat.lt_or_eq_of_le hshift
    · have hshift : shift ≤ 1074 := by omega
      subst hsignificand
      refine ⟨?_, units_le hden hshift habove⟩
      obtain rfl | hq := Nat.eq_zero_or_pos q
      · rw [Nat.zero_mul]
        exact Nat.mul_pos (by omega) (Nat.two_pow_pos _)
      · exact lt_units hden hshift (below_half_step hnum hbelow hq hshift hreach)
    · -- Such a shift is only reached by `2 ^ 53` itself.
      have hstep : den * 2 ^ 53 ≤ num := by
        have h : den * 2 ^ 53 * one ≤ num * one := by
          calc den * 2 ^ 53 * one = den * 2 ^ (1075 + 52) := by
                rw [Nat.mul_assoc, two_pow_mul_one]
            _ ≤ num * one := hreach
        exact Nat.le_of_mul_le_mul_right h one_pos
      obtain rfl : den = 1 := by omega
      obtain rfl : num = 2 ^ 53 := by omega
      obtain rfl : q = 2 ^ 53 - 1 := by omega
      rw [hsignificand]
      decide +kernel

/-- A quotient of at most 53 bits, rounded up after it was rounded to binary64, is the quotient
rounded up. -/
theorem ceiling?_ofRatio {num den : Nat} (hden : 0 < den) (hfits : den * 2 ^ 52 ≤ one)
    (hnum : num ≤ 2 ^ 53) :
    (ofRatio false num den).ceiling? = some (((num + den - 1) / den : Nat) : Int) := by
  obtain rfl | hpositive := Nat.eq_zero_or_pos num
  · have hzero : nearestRank (0 * one) den = 0 := by
      simp [nearestRank, roundHalfEven, hden]
    rw [ofRatio, hzero, Nat.zero_add, Nat.div_eq_of_lt (Nat.sub_one_lt_of_lt hden)]
    decide +kernel
  · obtain ⟨q, hq⟩ : ∃ q, (num + den - 1) / den = q + 1 :=
      Nat.exists_eq_succ_of_ne_zero
        (Nat.ne_of_gt (Nat.div_pos (by omega) hden))
    have hbelow : q * den < num := by
      have h := (Nat.le_div_iff_mul_le hden).mp hq.ge
      rw [Nat.add_mul] at h
      omega
    have habove : num ≤ (q + 1) * den := by
      have h := (Nat.div_lt_iff_lt_mul hden).mp (Nat.lt_succ_of_le hq.le)
      rw [Nat.succ_eq_add_one, Nat.add_mul (q + 1)] at h
      omega
    obtain ⟨units, hunits, hlow, hhigh⟩ :=
      units?_ofRatio hden hfits hnum hpositive hbelow habove
    have hone : (0 : Int) < one := by exact_mod_cast one_pos
    rw [ceiling?, hunits, hq, Option.map_some, Option.some.injEq]
    have hfloor : -(units : Int) / (one : Int) = -((q + 1 : Nat) : Int) := by
      apply le_antisymm
      · refine Int.le_of_lt_add_one (Int.ediv_lt_of_lt_mul hone ?_)
        have h : (q * one : Int) < units := by exact_mod_cast hlow
        push_cast
        linarith
      · refine Int.le_ediv_of_mul_le hone ?_
        have h : (units : Int) ≤ (q + 1) * one := by exact_mod_cast hhigh
        push_cast
        linarith
    rw [hfloor, neg_neg]

end DocFilter.Binary64
