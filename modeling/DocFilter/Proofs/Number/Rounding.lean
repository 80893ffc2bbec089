import DocFilter.Number.Extended
import DocFilter.Proofs.Number.Quotient
import Mathlib.Algebra.Order.Field.Basic
import Mathlib.Algebra.Order.Field.Power
import Mathlib.Data.Rat.Floor
import Mathlib.Tactic.FieldSimp
import Mathlib.Tactic.NormNum
import Mathlib.Tactic.Positivity

/-!
Rounding to 64 significant bits.

Every number of 64 bits has an exact value, and every operation yields the exact one up to a part of
`2 ^ -64` (`rounds_ofRatio` and what follows). Comparison, whole part and fractional part are exact.
What a number has behind the point is less than one by at least such a part, because its last bit is
not lower than that (`value_fraction_le`).
-/

namespace DocFilter

namespace Binary64

theorem unitsOfRank_pos {rank : Nat} (h : rank ≠ 0) : 0 < unitsOfRank rank := by
  unfold unitsOfRank
  refine Nat.mul_pos ?_ (Nat.two_pow_pos _)
  split_ifs <;> omega

theorem unitsOfRank_lt {rank exponents : Nat} (h : rank < (exponents + 2) * 2 ^ 52) :
    unitsOfRank rank < 2 ^ (53 + exponents) := by
  have hexponent : rank / 2 ^ 52 - 1 ≤ exponents := by omega
  unfold unitsOfRank
  calc _ < 2 ^ 53 * 2 ^ (rank / 2 ^ 52 - 1) := by
        refine Nat.mul_lt_mul_of_pos_right ?_ (Nat.two_pow_pos _)
        split_ifs <;> omega
    _ ≤ 2 ^ 53 * 2 ^ exponents := Nat.mul_le_mul_left _ (pow_le_pow_right₀ (by decide) hexponent)
    _ = 2 ^ (53 + exponents) := (pow_add 2 53 exponents).symm

theorem abs_roundHalfEven_sub_le (num : Nat) {den : Nat} (hden : 0 < den) :
    |(roundHalfEven num den : ℚ) - num / den| ≤ 1 / 2 := by
  have hden' : (0 : ℚ) < den := by exact_mod_cast hden
  have hsplit : (num : ℚ) / den = (num / den : ℕ) + ((num % den : ℕ) : ℚ) / den := by
    have hnum : (num : ℚ) = den * (num / den : ℕ) + (num % den : ℕ) := by
      exact_mod_cast (Nat.div_add_mod num den).symm
    rw [hnum, add_div, mul_div_cancel_left₀ _ hden'.ne']
  have hrest : ((num % den : ℕ) : ℚ) / den ≤ 1 := by
    rw [div_le_one hden']
    exact_mod_cast (Nat.mod_lt num hden).le
  have hrest' : 0 ≤ ((num % den : ℕ) : ℚ) / den := by positivity
  unfold roundHalfEven
  dsimp only
  rw [hsplit, abs_le]
  split_ifs with hless hgreater
  · have hhalf : ((num % den : ℕ) : ℚ) / den ≤ 1 / 2 := by
      rw [div_le_iff₀ hden']
      have : (2 * (num % den : ℕ) : ℚ) < den := by exact_mod_cast hless
      linarith
    constructor <;> linarith
  · have hhalf : 1 / 2 ≤ ((num % den : ℕ) : ℚ) / den := by
      rw [le_div_iff₀ hden']
      have : (den : ℚ) < 2 * (num % den : ℕ) := by exact_mod_cast hgreater
      linarith
    push_cast
    constructor <;> linarith
  · -- A tie: the last bit of the quotient is added, so half a unit is lost either way.
    have hhalf : ((num % den : ℕ) : ℚ) / den = 1 / 2 := by
      rw [div_eq_iff hden'.ne']
      have : (2 * (num % den : ℕ) : ℚ) = den := by exact_mod_cast (by omega : 2 * (num % den) = den)
      linarith
    have heven : ((num / den % 2 : ℕ) : ℚ) ≤ 1 := by
      exact_mod_cast (by omega : num / den % 2 ≤ 1)
    have heven' : (0 : ℚ) ≤ (num / den % 2 : ℕ) := by positivity
    rw [hhalf]
    rw [Nat.cast_add]
    constructor <;> linarith

end Binary64

namespace Extended

def value (x : Extended) : ℚ := x.significand * 2 ^ x.exponent

theorem value_whole (n : Nat) : (⟨n, 0⟩ : Extended).value = n := by
  rw [value, zpow_zero, mul_one]

theorem value_nonneg (x : Extended) : 0 ≤ x.value := by
  unfold value
  positivity

theorem value_pos_iff {x : Extended} : 0 < x.value ↔ 0 < x.significand := by
  have hpower : (0 : ℚ) < 2 ^ x.exponent := by positivity
  rw [value, mul_pos_iff_of_pos_right hpower, Nat.cast_pos]

/-- Shifting a significand up or down is exact. -/
theorem value_eq_div (x : Extended) :
    x.value = (x.significand * 2 ^ x.exponent.toNat : ℕ) / (2 ^ (-x.exponent).toNat : ℕ) := by
  have hexponent : x.exponent = (x.exponent.toNat : ℤ) - (-x.exponent).toNat := by omega
  rw [value]
  conv_lhs => rw [hexponent]
  rw [zpow_sub₀ (by norm_num), zpow_natCast, zpow_natCast]
  push_cast
  ring

theorem value_significandAt (x : Extended) {exponent : Int} (h : exponent ≤ x.exponent) :
    (x.significandAt exponent : ℚ) * 2 ^ exponent = x.value := by
  have hexponent : x.exponent = ((x.exponent - exponent).toNat : ℤ) + exponent := by omega
  rw [value, significandAt]
  conv_rhs => rw [hexponent]
  rw [zpow_add₀ (by norm_num), zpow_natCast]
  push_cast
  ring

theorem le_iff {x y : Extended} : x.le y = true ↔ x.value ≤ y.value := by
  have hpower : (0 : ℚ) < 2 ^ min x.exponent y.exponent := by positivity
  rw [← x.value_significandAt (min_le_left _ y.exponent),
    ← y.value_significandAt (min_le_right x.exponent _), mul_le_mul_iff_of_pos_right hpower,
    Nat.cast_le]
  exact decide_eq_true_iff

theorem between {x below above : Extended} (hbelow : below.le x = true)
    (habove : x.le above = true) : below.value ≤ x.value ∧ x.value ≤ above.value :=
  ⟨le_iff.mp hbelow, le_iff.mp habove⟩

theorem value_eq_whole {x : Extended} {n : Nat} (hbelow : Extended.le ⟨n, 0⟩ x = true)
    (habove : x.le ⟨n, 0⟩ = true) : x.value = n := by
  obtain ⟨hge, hle⟩ := between hbelow habove
  rw [value_whole] at hge hle
  exact le_antisymm hle hge

theorem floor_lt_iff {x : Extended} {n : Nat} : x.floor < n ↔ x.value < n := by
  have hpower : (0 : ℚ) < (2 ^ (-x.exponent).toNat : ℕ) := by positivity
  rw [value_eq_div, div_lt_iff₀ hpower, ← Nat.cast_mul, Nat.cast_lt]
  exact Nat.div_lt_iff_lt_mul (by positivity)

/-! ### Rounding -/

/-- The number is an exact value rounded to 64 bits. -/
structure Rounds (x : Extended) (v : ℚ) : Prop where
  near : |x.value - v| ≤ v / 2 ^ 64
  significand_le : x.significand ≤ 2 ^ 64

/-- The numerator is shifted up so far that the quotient has more than 64 bits. -/
theorem le_shifted_quotient {num den : Nat} (hden : 0 < den) (hnum : 0 < num) :
    2 ^ 64 ≤ num * 2 ^ (65 + Nat.log2 den) / den := by
  rw [Nat.le_div_iff_mul_le hden]
  calc 2 ^ 64 * den ≤ 2 ^ 64 * 2 ^ (Nat.log2 den + 1) := Nat.mul_le_mul_left _ Nat.lt_log2_self.le
    _ = 2 ^ (65 + Nat.log2 den) := by rw [← Nat.pow_add]; congr 1; omega
    _ ≤ num * 2 ^ (65 + Nat.log2 den) := Nat.le_mul_of_pos_left _ hnum

theorem rounds_ofRatio {num den : Nat} (hden : 0 < den) (exponent : Int) :
    (ofRatio num den exponent).Rounds (num / den * 2 ^ exponent) := by
  obtain rfl | hnum := Nat.eq_zero_or_pos num
  · have hzero : (ofRatio 0 den exponent).significand = 0 := by
      simp [ofRatio, Binary64.roundHalfEven]
    exact ⟨by simp [value, hzero], by simp [hzero]⟩
  set up := 65 + Nat.log2 den with hup
  set quotient := num * 2 ^ up / den with hquotient
  set shift := Nat.log2 quotient - 63 with hshift
  have hlow : 2 ^ 64 ≤ quotient := le_shifted_quotient hden hnum
  have hne : quotient ≠ 0 := by omega
  have hlog : 64 ≤ Nat.log2 quotient := (Nat.le_log2 hne).mpr hlow
  have hstep : 0 < den * 2 ^ shift := Nat.mul_pos hden (Nat.two_pow_pos _)
  -- The shift leaves 64 bits of the quotient in front of the point.
  have hbelow : 2 ^ 63 * (den * 2 ^ shift) ≤ num * 2 ^ up := by
    calc 2 ^ 63 * (den * 2 ^ shift) = den * 2 ^ (shift + 63) := by rw [Nat.pow_add]; ring
      _ = den * 2 ^ Nat.log2 quotient := by congr 2; omega
      _ ≤ den * quotient := Nat.mul_le_mul_left _ (Nat.log2_self_le hne)
      _ ≤ num * 2 ^ up := Nat.mul_div_le _ _
  have habove : num * 2 ^ up ≤ 2 ^ 64 * (den * 2 ^ shift) := by
    have hlt : quotient < 2 ^ (shift + 64) := by
      calc quotient < 2 ^ (Nat.log2 quotient + 1) := Nat.lt_log2_self
        _ = 2 ^ (shift + 64) := by congr 1; omega
    calc num * 2 ^ up ≤ 2 ^ (shift + 64) * den := ((Nat.div_lt_iff_lt_mul hden).mp hlt).le
      _ = 2 ^ 64 * (den * 2 ^ shift) := by rw [Nat.pow_add]; ring
  have hsignificand : (ofRatio num den exponent).significand =
      Binary64.roundHalfEven (num * 2 ^ up) (den * 2 ^ shift) := rfl
  have hexponent : (ofRatio num den exponent).exponent = exponent - up + shift := rfl
  refine ⟨?_, hsignificand ▸ Binary64.roundHalfEven_le hstep habove⟩
  have hnear := Binary64.abs_roundHalfEven_sub_le (num * 2 ^ up) hstep
  -- Half a unit is a small part of a number that is scaled up to `2 ^ 63`.
  set scaled : ℚ := ((num * 2 ^ up : ℕ) : ℚ) / (den * 2 ^ shift : ℕ) with hscaled
  have hpower : (0 : ℚ) < 2 ^ (exponent - up + shift) := by positivity
  have hexact : (num / den * 2 ^ exponent : ℚ) = scaled * 2 ^ (exponent - up + shift) := by
    rw [hscaled, zpow_add₀ (by norm_num), zpow_sub₀ (by norm_num), zpow_natCast, zpow_natCast]
    push_cast
    field_simp
  have hlarge : 2 ^ 63 ≤ scaled := by
    rw [hscaled, le_div_iff₀ (by exact_mod_cast hstep)]
    exact_mod_cast hbelow
  rw [value, hsignificand, hexponent, hexact, ← sub_mul, abs_mul, abs_of_pos hpower,
    mul_div_right_comm]
  refine mul_le_mul_of_nonneg_right (hnear.trans ?_) hpower.le
  rw [le_div_iff₀ (by positivity)]
  linarith

/-- How much a rounded value may differ from the exact one, in proportion. -/
def slack : ℚ := 1 / 2 ^ 64

theorem slack_bounds : 0 < slack ∧ slack ≤ 1 / 100 := by norm_num [slack]

theorem one_sub_slack_pos : 0 < 1 - slack := by
  have hslack := slack_bounds
  linarith

theorem one_add_slack_pos : 0 < 1 + slack := by
  have hslack := slack_bounds
  linarith

theorem Rounds.le {x : Extended} {v : ℚ} (h : x.Rounds v) : x.value ≤ v * (1 + slack) := by
  have hnear := (abs_le.mp h.near).2
  rw [slack]
  linarith

theorem Rounds.ge {x : Extended} {v : ℚ} (h : x.Rounds v) : v * (1 - slack) ≤ x.value := by
  have hnear := (abs_le.mp h.near).1
  rw [slack]
  linarith

theorem Rounds.le_of_le {x : Extended} {v most : ℚ} (h : x.Rounds v) (hv : v ≤ most) :
    x.value ≤ most * (1 + slack) :=
  h.le.trans (mul_le_mul_of_nonneg_right hv one_add_slack_pos.le)

theorem Rounds.ge_of_le {x : Extended} {v least : ℚ} (h : x.Rounds v) (hv : least ≤ v) :
    least * (1 - slack) ≤ x.value :=
  (mul_le_mul_of_nonneg_right hv one_sub_slack_pos.le).trans h.ge

theorem rounds_mul (x y : Extended) : (x.mul y).Rounds (x.value * y.value) := by
  have hexact : x.value * y.value =
      (x.significand * y.significand : ℕ) / (1 : ℕ) * 2 ^ (x.exponent + y.exponent) := by
    rw [value, value, zpow_add₀ (by norm_num)]
    push_cast
    ring
  rw [hexact]
  exact rounds_ofRatio one_pos _

theorem rounds_div (x : Extended) {y : Extended} (hy : 0 < y.value) :
    (x.div y).Rounds (x.value / y.value) := by
  have hexact : x.value / y.value =
      x.significand / y.significand * 2 ^ (x.exponent - y.exponent) := by
    rw [value, value, zpow_sub₀ (by norm_num), mul_div_mul_comm]
  rw [hexact]
  exact rounds_ofRatio (value_pos_iff.mp hy) _

theorem rounds_add (x y : Extended) : (x.add y).Rounds (x.value + y.value) := by
  have hexact : x.value + y.value =
      (x.significandAt (min x.exponent y.exponent) + y.significandAt (min x.exponent y.exponent) : ℕ)
        / (1 : ℕ) * 2 ^ min x.exponent y.exponent := by
    rw [← x.value_significandAt (min_le_left _ y.exponent),
      ← y.value_significandAt (min_le_right x.exponent _)]
    push_cast
    ring
  rw [hexact]
  exact rounds_ofRatio one_pos _

/-- What a number of 64 bits has behind the point is clearly less than one. -/
theorem value_fraction_le {x : Extended} (h : x.significand ≤ 2 ^ 64) :
    x.fraction.value ≤ 1 - slack := by
  have hslack := slack_bounds.2
  obtain hexponent | hexponent := le_or_gt 0 x.exponent
  · have hone : (-x.exponent).toNat = 0 := by omega
    have hvalue : x.fraction.value = 0 := by
      rw [value, fraction, hone, pow_zero, Nat.mod_one, Nat.cast_zero, zero_mul]
    linarith
  · obtain ⟨n, hn⟩ := Int.eq_ofNat_of_zero_le (show 0 ≤ -x.exponent by omega)
    have hfraction : x.fraction.value = (x.significand % 2 ^ n : ℕ) / 2 ^ n := by
      have hzero : x.exponent.toNat = 0 := by omega
      have hdown : (-x.exponent).toNat = n := by omega
      have hmin : min x.exponent 0 = -n := by omega
      rw [value, fraction, hzero, hdown, hmin, pow_zero, mul_one, zpow_neg, zpow_natCast]
      rfl
    have hpower : (0 : ℚ) < 2 ^ n := by positivity
    rw [hfraction, div_le_iff₀ hpower]
    obtain hn | hn := Nat.lt_or_ge 64 n
    · have hrest : ((x.significand % 2 ^ n : ℕ) : ℚ) ≤ 2 ^ 64 := by
        exact_mod_cast (Nat.mod_le _ _).trans h
      have hlarge : (2 : ℚ) ^ 65 ≤ 2 ^ n := pow_le_pow_right₀ (by norm_num) hn
      nlinarith
    · have hrest : ((x.significand % 2 ^ n : ℕ) : ℚ) + 1 ≤ 2 ^ n := by
        exact_mod_cast Nat.mod_lt _ (Nat.two_pow_pos n)
      have hsmall : (2 : ℚ) ^ n ≤ 2 ^ 64 := pow_le_pow_right₀ (by norm_num) hn
      have hpart : slack * 2 ^ n ≤ 1 := by
        rw [slack, div_mul_eq_mul_div, one_mul, div_le_one (by positivity)]
        exact hsmall
      linarith

/-! ### Scaling -/

/-- A number by which positive values grow at least `low` and at most `high` times, with
rounding. -/
structure Scales (x : Extended) (low high : ℚ) : Prop where
  low_pos : 0 < low
  low_le : low ≤ x.value * (1 - slack)
  le_high : x.value * (1 + slack) ≤ high

section Scales

variable {x y : Extended} {low high : ℚ}

theorem Scales.high_pos (h : x.Scales low high) : 0 < high := by
  have hpos : 0 < x.value * (1 - slack) := h.low_pos.trans_le h.low_le
  have hvalue : 0 < x.value := (mul_pos_iff_of_pos_right one_sub_slack_pos).mp hpos
  exact (mul_pos hvalue one_add_slack_pos).trans_le h.le_high

theorem Scales.mul (h : x.Scales low high) (hy : 0 < y.value) :
    low * y.value ≤ (x.mul y).value ∧ (x.mul y).value ≤ high * y.value := by
  have hround := rounds_mul x y
  constructor
  · calc low * y.value ≤ x.value * (1 - slack) * y.value :=
          mul_le_mul_of_nonneg_right h.low_le hy.le
      _ = x.value * y.value * (1 - slack) := by ring
      _ ≤ (x.mul y).value := hround.ge
  · calc (x.mul y).value ≤ x.value * y.value * (1 + slack) := hround.le
      _ = x.value * (1 + slack) * y.value := by ring
      _ ≤ high * y.value := mul_le_mul_of_nonneg_right h.le_high hy.le

theorem mul_comm (x y : Extended) : x.mul y = y.mul x := by
  rw [mul, mul, Nat.mul_comm, Int.add_comm]

end Scales

end Extended

end DocFilter
