import DocFilter.Number.StoreReal
import DocFilter.Proofs.Json.Literals
import DocFilter.Proofs.Number.Rounding

/-!
The texts of real numbers in the store are number literals.

A number is scaled by rounded powers of ten until it lies between one and about ten, and then its
digits are cut off one after the other. No rounding on the way leads out of the digits: a scale
stays within a tenth of the exact power (`scales_near`), so the steps that are made are enough
(`normalize_bounds`), and the part behind the point is so much less than one that ten times this
part is not rounded up to ten (`isDigit_leadingDigits`). The first digit is not zero, so the text
reads as a number (`isLiteral_text`).
-/

namespace DocFilter

namespace StoreReal

open Extended Json

theorem value_ten : ten.value = 10 := value_eq_whole (by decide +kernel) (by decide +kernel)

theorem value_one : (Extended.ofNat 1).value = 1 := by
  rw [@value_eq_whole (Extended.ofNat 1) 1 (by decide +kernel) (by decide +kernel), Nat.cast_one]

theorem isDigit_leadingDigits (count : Nat) {x : Extended} (hx : x.value < 10)
    (hbits : x.significand ≤ 2 ^ 64) : ∀ c ∈ leadingDigits count x, c.isDigit = true := by
  induction count generalizing x with
  | zero => simp [leadingDigits]
  | succ count ih =>
      refine List.forall_mem_cons.mpr ⟨?_, ?_⟩
      · have hfloor : x.floor < 10 := floor_lt_iff.mpr hx
        have hall : ∀ n < 10, (Nat.digitChar n).isDigit = true := by decide
        exact hall _ hfloor
      · have hnext := rounds_mul x.fraction ten
        refine ih ?_ hnext.significand_le
        have hproduct : x.fraction.value * ten.value ≤ (1 - slack) * 10 := by
          rw [value_ten]
          exact mul_le_mul_of_nonneg_right (value_fraction_le hbits) (by norm_num)
        calc (x.fraction.mul ten).value ≤ (1 - slack) * 10 * (1 + slack) :=
              hnext.le_of_le hproduct
          _ < 10 := by norm_num [slack]

theorem leadsOff_leadingDigits (count : Nat) {x : Extended} (hlow : 1 ≤ x.value)
    (hhigh : x.value < 10) (hbits : x.significand ≤ 2 ^ 64) :
    Decimal.LeadsOff (leadingDigits (count + 1) x) := by
  refine ⟨⟨List.cons_ne_nil _ _, isDigit_leadingDigits _ hhigh hbits⟩, ?_⟩
  have hfloor : x.floor < 10 := floor_lt_iff.mpr hhigh
  have hone : ¬x.floor < 1 := fun h => not_lt.mpr hlow (by simpa using floor_lt_iff.mp h)
  have hall : ∀ n < 10, ¬n < 1 → Nat.digitChar n ≠ '0' := by decide
  simpa [leadingDigits] using hall _ hfloor hone

/-! ### Normal forms -/

section Steps

variable {x : Extended} {step : Nat} {low high : ℚ}

/-- A scale does not climb above the number, and either the next step would, or all steps are
made. -/
theorem climb_bounds (h : (near step).Scales low high) (fuel : Nat) {state : Extended × Int}
    (hstate : 0 < state.1.value) :
    0 < (climb x step fuel state).1.value ∧
      (climb x step fuel state).1.value ≤ max state.1.value x.value ∧
      (x.value ≤ high * (climb x step fuel state).1.value ∨
        low ^ fuel * state.1.value ≤ (climb x step fuel state).1.value) := by
  induction fuel generalizing state with
  | zero => exact ⟨hstate, le_max_left _ _, .inr (by simp [climb])⟩
  | succ fuel ih =>
      obtain ⟨scale, exponent⟩ := state
      obtain ⟨hlow, hhigh⟩ := h.mul hstate
      simp only [climb]
      split_ifs with hle
      · have hnext : 0 < ((near step).mul scale).value :=
          lt_of_lt_of_le (mul_pos h.low_pos hstate) hlow
        obtain ⟨hpos, hmax, hcase⟩ := @ih ((near step).mul scale, exponent + step) hnext
        refine ⟨hpos, hmax.trans (max_le (le_max_of_le_right (le_iff.mp hle)) (le_max_right _ _)),
          hcase.imp_right fun hgrown => le_trans ?_ hgrown⟩
        calc low ^ (fuel + 1) * scale.value = low ^ fuel * (low * scale.value) := by ring
          _ ≤ low ^ fuel * ((near step).mul scale).value :=
            mul_le_mul_of_nonneg_left hlow (pow_nonneg h.low_pos.le fuel)
      · have hlt : x.value < ((near step).mul scale).value := not_le.mp (mt le_iff.mpr hle)
        exact ⟨hstate, le_max_left _ _, .inl (hlt.le.trans hhigh)⟩

/-- A number is not lifted far above the bound, and either it gets there, or all steps are made. -/
theorem lift_bounds (bound : Extended) (h : (near step).Scales low high) (fuel : Nat)
    {state : Extended × Int} (hstate : 0 < state.1.value) :
    (lift bound step fuel state).1.value ≤ max state.1.value (high * bound.value) ∧
      (bound.value ≤ (lift bound step fuel state).1.value ∨
        low ^ fuel * state.1.value ≤ (lift bound step fuel state).1.value) := by
  induction fuel generalizing state with
  | zero => exact ⟨le_max_left _ _, .inr (by simp [lift])⟩
  | succ fuel ih =>
      obtain ⟨x, exponent⟩ := state
      simp only [lift]
      split_ifs with hle
      · exact ⟨le_max_left _ _, .inl (le_iff.mp hle)⟩
      · have hlt : x.value < bound.value := not_le.mp (mt le_iff.mpr hle)
        obtain ⟨hlow, hhigh⟩ := h.mul hstate
        rw [Extended.mul_comm] at hlow hhigh
        have hnext : 0 < (x.mul (near step)).value :=
          lt_of_lt_of_le (mul_pos h.low_pos hstate) hlow
        obtain ⟨hmax, hcase⟩ := @ih (x.mul (near step), exponent - step) hnext
        refine ⟨hmax.trans (max_le (le_max_of_le_right (hhigh.trans ?_)) (le_max_right _ _)),
          hcase.imp_right fun hgrown => le_trans ?_ hgrown⟩
        · exact mul_le_mul_of_nonneg_left hlt.le h.high_pos.le
        · calc low ^ (fuel + 1) * x.value = low ^ fuel * (low * x.value) := by ring
            _ ≤ low ^ fuel * (x.mul (near step)).value :=
              mul_le_mul_of_nonneg_left hlow (pow_nonneg h.low_pos.le fuel)

end Steps

/-- The powers of ten by which numbers are scaled are near enough to the exact ones. -/
theorem scales_near {step : Nat} (h : step = 1 ∨ step = 8 ∨ step = 10 ∨ step = 100) :
    (near step).Scales (9 / 10 * 10 ^ step) (11 / 10 * 10 ^ step) := by
  have hbounds : Extended.le ⟨10 ^ step - 10 ^ step / 20, 0⟩ (near step) = true ∧
      (near step).le ⟨10 ^ step + 10 ^ step / 20, 0⟩ = true := by
    obtain rfl | rfl | rfl | rfl := h <;> decide +kernel
  have hpower : (0 : ℚ) < 10 ^ step := by positivity
  have hpart : ((10 ^ step / 20 : ℕ) : ℚ) ≤ 10 ^ step / 20 := by
    have hmul : ((10 ^ step / 20 : ℕ) : ℚ) * 20 ≤ 10 ^ step := by
      exact_mod_cast Nat.div_mul_le_self (10 ^ step) 20
    linarith
  obtain ⟨hbelow, habove⟩ := between hbounds.1 hbounds.2
  rw [value_whole, Nat.cast_sub (Nat.div_le_self _ _)] at hbelow
  rw [value_whole] at habove
  push_cast at hbelow habove
  obtain ⟨hslack, hslack'⟩ := slack_bounds
  refine ⟨by positivity, ?_, ?_⟩
  · calc 9 / 10 * 10 ^ step ≤ (19 / 20 * 10 ^ step) * (99 / 100) := by linarith
      _ ≤ (near step).value * (1 - slack) := by
        gcongr <;> linarith
  · calc (near step).value * (1 + slack) ≤ (21 / 20 * 10 ^ step) * (101 / 100) := by
          gcongr <;> linarith
      _ ≤ 11 / 10 * 10 ^ step := by linarith

section Steps

variable {x : Extended} {step : Nat} {low high : ℚ}

/-- If there are enough steps, the number is not above what one step more would come to. -/
theorem le_climb (h : (near step).Scales low high) (fuel : Nat) {state : Extended × Int}
    (hstate : 0 < state.1.value) {most : ℚ} (hx : x.value ≤ most * state.1.value)
    (hmost : most ≤ high * low ^ fuel) :
    x.value ≤ high * (climb x step fuel state).1.value := by
  obtain ⟨hpos, -, hle | hgrown⟩ := climb_bounds (x := x) h fuel hstate
  · exact hle
  · have hhigh := h.high_pos
    calc x.value ≤ most * state.1.value := hx
      _ ≤ high * low ^ fuel * state.1.value := mul_le_mul_of_nonneg_right hmost hstate.le
      _ = high * (low ^ fuel * state.1.value) := by ring
      _ ≤ high * (climb x step fuel state).1.value := mul_le_mul_of_nonneg_left hgrown hhigh.le

/-- The scale of a number is positive, at most the number or one, and a tenth of the number at
least. -/
theorem scaleOf_bounds (hbig : x.value ≤ (10 ^ 100) ^ 4) :
    0 < (scaleOf x).1.value ∧ (scaleOf x).1.value ≤ max 1 x.value ∧
      x.value ≤ 11 * (scaleOf x).1.value := by
  have hstart : (Extended.ofNat 1, (0 : Int)).1.value = 1 := value_one
  have hpos : 0 < (Extended.ofNat 1, (0 : Int)).1.value := by
    rw [hstart]
    exact one_pos
  have hbig' : x.value ≤ (10 ^ 100) ^ 4 * (Extended.ofNat 1, (0 : Int)).1.value := by
    rwa [hstart, mul_one]
  have hhundred := scales_near (.inr (.inr (.inr rfl)))
  have hten := scales_near (.inr (.inr (.inl rfl)))
  have hone := scales_near (.inl rfl)
  obtain ⟨hpos₁, hmax₁, -⟩ := climb_bounds (x := x) hhundred 4 hpos
  have hle₁ := le_climb hhundred 4 hpos hbig' (by norm_num)
  obtain ⟨hpos₂, hmax₂, -⟩ := climb_bounds (x := x) hten 10 hpos₁
  have hle₂ := le_climb hten 10 hpos₁ hle₁ (by norm_num)
  obtain ⟨hpos₃, hmax₃, -⟩ := climb_bounds (x := x) hone 10 hpos₂
  have hle₃ := le_climb hone 10 hpos₂ hle₂ (by norm_num)
  rw [hstart] at hmax₁
  rw [scaleOf]
  refine ⟨hpos₃, ?_, by linarith⟩
  calc _ ≤ max _ x.value := hmax₃
    _ ≤ max (max (max 1 x.value) x.value) x.value :=
      max_le_max_right _ (hmax₂.trans (max_le_max_right _ hmax₁))
    _ = max 1 x.value := by simp

/-- If there are enough steps, the number gets to the bound. -/
theorem le_lift {bound : Extended} (h : (near step).Scales low high) (fuel : Nat)
    {state : Extended × Int} (hstate : 0 < state.1.value)
    (henough : bound.value ≤ low ^ fuel * state.1.value) :
    bound.value ≤ (lift bound step fuel state).1.value := by
  obtain ⟨-, hle | hgrown⟩ := lift_bounds bound h fuel hstate
  · exact hle
  · exact henough.trans hgrown

theorem value_near_neg_eight : 1 / 10 ^ 9 ≤ (near (-8)).value ∧ (near (-8)).value ≤ 1 / 10 ^ 7 := by
  have hbounds := between (by decide +kernel : Extended.le ⟨1, -29⟩ (near (-8)) = true)
    (by decide +kernel : (near (-8)).le ⟨1, -24⟩ = true)
  constructor
  · exact le_trans (by norm_num [value]) hbounds.1
  · exact hbounds.2.trans (by norm_num [value])

theorem lift_all {state : Extended × Int} (hlow : 1 / (2 * (10 ^ 100) ^ 4) ≤ state.1.value)
    (hhigh : state.1.value ≤ 12) :
    1 ≤ (lift (Extended.ofNat 1) 1 10 (lift (near (-8)) 8 50 state)).1.value ∧
      (lift (Extended.ofNat 1) 1 10 (lift (near (-8)) 8 50 state)).1.value ≤ 12 := by
  have hone := scales_near (.inl rfl)
  have height := scales_near (.inr (.inl rfl))
  have hbound := value_near_neg_eight
  have hpos : 0 < state.1.value := lt_of_lt_of_le (by norm_num) hlow
  have hkept := (lift_bounds (near (-8)) height 50 hpos).1
  have henough : (near (-8)).value ≤ (9 / 10 * 10 ^ 8) ^ 50 * state.1.value := by
    calc (near (-8)).value ≤ 1 / 10 ^ 7 := hbound.2
      _ ≤ (9 / 10 * 10 ^ 8) ^ 50 * (1 / (2 * (10 ^ 100) ^ 4)) := by norm_num
      _ ≤ (9 / 10 * 10 ^ 8) ^ 50 * state.1.value := mul_le_mul_of_nonneg_left hlow (by norm_num)
  have hlifted := le_lift height 50 hpos henough
  -- From here on only the bounds of the number lifted so far matter.
  generalize lift (near (-8)) 8 50 state = lifted at hkept hlifted ⊢
  have hpos : 0 < lifted.1.value := lt_of_lt_of_le (by norm_num) (hbound.1.trans hlifted)
  have hkept' := (lift_bounds (Extended.ofNat 1) hone 10 hpos).1
  have henough : (Extended.ofNat 1).value ≤ (9 / 10 * 10 ^ 1) ^ 10 * lifted.1.value := by
    calc (Extended.ofNat 1).value ≤ (9 / 10 * 10 ^ 1) ^ 10 * (1 / 10 ^ 9) := by
          norm_num [value_one]
      _ ≤ (9 / 10 * 10 ^ 1) ^ 10 * lifted.1.value :=
        mul_le_mul_of_nonneg_left (hbound.1.trans hlifted) (by norm_num)
  have hlifted' := le_lift hone 10 hpos henough
  rw [value_one] at hkept' hlifted'
  refine ⟨hlifted', hkept'.trans (max_le (hkept.trans (max_le hhigh ?_)) (by norm_num))⟩
  calc 11 / 10 * 10 ^ 8 * (near (-8)).value ≤ 11 / 10 * 10 ^ 8 * (1 / 10 ^ 7) :=
        mul_le_mul_of_nonneg_left hbound.2 (by norm_num)
    _ ≤ 12 := by norm_num

/-- A positive number is brought between one and twelve. -/
theorem normalize_bounds (hsmall : 1 / (10 ^ 100) ^ 4 ≤ x.value) (hbig : x.value ≤ (10 ^ 100) ^ 4) :
    1 ≤ (normalize x).1.value ∧ (normalize x).1.value ≤ 12 := by
  obtain ⟨hscale, hmax, hle⟩ := scaleOf_bounds hbig
  have hdiv := rounds_div x hscale
  have hhigh : (x.div (scaleOf x).1).value ≤ 12 := by
    calc (x.div (scaleOf x).1).value ≤ 11 * (1 + slack) :=
          hdiv.le_of_le ((div_le_iff₀ hscale).mpr hle)
      _ ≤ 12 := by norm_num [slack]
  have hratio : 1 / (10 ^ 100) ^ 4 ≤ x.value / (scaleOf x).1.value := by
    rw [le_div_iff₀ hscale]
    obtain hone | hself := le_max_iff.mp hmax
    · calc 1 / (10 ^ 100) ^ 4 * (scaleOf x).1.value ≤ 1 / (10 ^ 100) ^ 4 * 1 :=
            mul_le_mul_of_nonneg_left hone (by norm_num)
        _ ≤ x.value := by rwa [mul_one]
    · calc 1 / (10 ^ 100) ^ 4 * (scaleOf x).1.value ≤ 1 * (scaleOf x).1.value :=
            mul_le_mul_of_nonneg_right (by norm_num) hscale.le
        _ ≤ x.value := by rwa [one_mul]
  have hlow : 1 / (2 * (10 ^ 100) ^ 4) ≤ (x.div (scaleOf x).1).value := by
    calc 1 / (2 * (10 ^ 100) ^ 4) ≤ 1 / (10 ^ 100) ^ 4 * (1 - slack) := by norm_num [slack]
      _ ≤ (x.div (scaleOf x).1).value := hdiv.ge_of_le hratio
  rw [normalize]
  exact @lift_all (x.div (scaleOf x).1, (scaleOf x).2) hlow hhigh

end Steps

/-! ### Literals -/

theorem value_halfUnit : 1 / 2 ^ 48 ≤ halfUnit.value ∧ halfUnit.value ≤ 1 / 2 := by
  have hbounds := between (by decide +kernel : Extended.le ⟨1, -48⟩ halfUnit = true)
    (by decide +kernel : halfUnit.le ⟨1, -1⟩ = true)
  constructor
  · exact le_trans (by norm_num [value]) hbounds.1
  · exact hbounds.2.trans (by norm_num [value])

/-- The binary64 number nearest to a tenth is above it, by more than a rounding takes away. -/
theorem value_tenth : 1 ≤ 10 * (near (-1)).value * (1 - slack) ∧ (near (-1)).value ≤ 1 / 2 := by
  have hbounds := between
    (by decide +kernel : Extended.le ⟨2 ^ 58 / 10 + 1, -58⟩ (near (-1)) = true)
    (by decide +kernel : (near (-1)).le ⟨1, -1⟩ = true)
  constructor
  · calc 1 ≤ 10 * (⟨2 ^ 58 / 10 + 1, -58⟩ : Extended).value * (1 - slack) := by
          norm_num [value, slack]
      _ ≤ 10 * (near (-1)).value * (1 - slack) :=
        mul_le_mul_of_nonneg_right (mul_le_mul_of_nonneg_left hbounds.1 (by norm_num))
          one_sub_slack_pos.le
  · exact hbounds.2.trans (by norm_num [value])

theorem leadsOff_decimal {x : Extended} (hsmall : 1 / (10 ^ 100) ^ 4 ≤ x.value)
    (hbig : x.value ≤ (10 ^ 100) ^ 4) : Decimal.LeadsOff (decimal x).digits := by
  obtain ⟨hlow, hhigh⟩ := normalize_bounds hsmall hbig
  have hhalf := value_halfUnit
  have hround := rounds_add (normalize x).1 halfUnit
  have hone : 1 ≤ ((normalize x).1.add halfUnit).value := by
    calc 1 ≤ (1 + 1 / 2 ^ 48) * (1 - slack) := by norm_num [slack]
      _ ≤ ((normalize x).1.add halfUnit).value := hround.ge_of_le (add_le_add hlow hhalf.1)
  have hmost : ((normalize x).1.add halfUnit).value ≤ 14 := by
    calc ((normalize x).1.add halfUnit).value ≤ (12 + 1 / 2) * (1 + slack) :=
          hround.le_of_le (add_le_add hhigh hhalf.2)
      _ ≤ 14 := by norm_num [slack]
  unfold decimal
  dsimp only
  split_ifs with hten
  · -- The rounding has carried into a new digit, so the point is moved once more.
    have hten : 10 ≤ ((normalize x).1.add halfUnit).value := value_ten ▸ le_iff.mp hten
    obtain ⟨htenth, htenth'⟩ := value_tenth
    have hscaled := rounds_mul ((normalize x).1.add halfUnit) (near (-1))
    generalize (normalize x).1.add halfUnit = rounded at hten hmost hscaled ⊢
    have hpos := (near (-1)).value_nonneg
    refine (leadsOff_leadingDigits 14 ?_ ?_ hscaled.significand_le).dropZeros
    · calc 1 ≤ 10 * (near (-1)).value * (1 - slack) := htenth
        _ ≤ (rounded.mul (near (-1))).value :=
          hscaled.ge_of_le (mul_le_mul_of_nonneg_right hten hpos)
    · calc (rounded.mul (near (-1))).value ≤ 14 * (1 / 2) * (1 + slack) :=
            hscaled.le_of_le (mul_le_mul hmost htenth' hpos (by norm_num))
        _ < 10 := by norm_num [slack]
  · have hten : ((normalize x).1.add halfUnit).value < 10 :=
      value_ten ▸ not_le.mp (mt le_iff.mpr hten)
    exact (leadsOff_leadingDigits 14 hone hten hround.significand_le).dropZeros

/-- Binary64 numbers that are not zero are neither too small nor too large to be scaled. -/
theorem value_ofBinary64 {negative : Bool} {rank : Fin Binary64.rankCount} (h : rank.val ≠ 0) :
    1 / (10 ^ 100) ^ 4 ≤ (ofBinary64 (.finite negative rank)).value ∧
      (ofBinary64 (.finite negative rank)).value ≤ (10 ^ 100) ^ 4 := by
  have hround := @rounds_ofRatio (Binary64.unitsOfRank rank) 1 one_pos (-1074)
  rw [Nat.cast_one, div_one] at hround
  have hlow : (1 : ℚ) ≤ Binary64.unitsOfRank rank := by
    exact_mod_cast Binary64.unitsOfRank_pos h
  have hhigh : (Binary64.unitsOfRank rank : ℚ) ≤ 2 ^ (53 + 2045) := by
    exact_mod_cast (Binary64.unitsOfRank_lt rank.isLt).le
  -- Powers of exponents this large are not computed, so they are given as powers of powers.
  have hunit : (2 : ℚ) ^ (-1074 : Int) = 1 / (2 ^ 179) ^ 6 := by
    rw [zpow_neg, ← pow_mul, one_div, ← zpow_natCast]
    rfl
  have hunits : (2 : ℚ) ^ (53 + 2045) * 2 ^ (-1074 : Int) = (2 ^ 256) ^ 4 := by
    rw [← pow_mul, ← zpow_natCast, ← zpow_natCast, ← zpow_add₀ (by norm_num)]
    rfl
  have hpower : (0 : ℚ) ≤ 2 ^ (-1074 : Int) := zpow_nonneg (by norm_num) _
  constructor
  · calc 1 / (10 ^ 100) ^ 4 ≤ 1 / (2 ^ 179) ^ 6 * (1 - slack) := by norm_num [slack]
      _ = 1 * 2 ^ (-1074 : Int) * (1 - slack) := by rw [hunit, one_mul]
      _ ≤ _ := hround.ge_of_le (mul_le_mul_of_nonneg_right hlow hpower)
  · calc _ ≤ 2 ^ (53 + 2045) * 2 ^ (-1074 : Int) * (1 + slack) :=
          hround.le_of_le (mul_le_mul_of_nonneg_right hhigh hpower)
      _ = (2 ^ 256) ^ 4 * (1 + slack) := by rw [hunits]
      _ ≤ (10 ^ 100) ^ 4 := by norm_num [slack]

theorem isLiteral_signed {negative : Bool} {digits : List Char} (h : IsUnsigned digits) :
    IsLiteral (if negative then '-' :: digits else digits) :=
  ⟨negative, digits, h, by cases negative <;> rfl⟩

theorem isUnsigned_decimal {x : Extended} (hsmall : 1 / (10 ^ 100) ^ 4 ≤ x.value)
    (hbig : x.value ≤ (10 ^ 100) ^ 4) : IsUnsigned ((decimal x).write layout) := by
  have hdecimal := leadsOff_decimal hsmall hbig
  generalize decimal x = d at hdecimal ⊢
  exact Decimal.isUnsigned_write layout (.inl hdecimal)

theorem isLiteral_text {x : Binary64} (h : x.isFinite = true) : IsLiteral (text x).toList := by
  cases x with
  | nan => cases h
  | infinite negative => cases h
  | finite negative rank =>
      rw [text]
      by_cases hzero : rank.val = 0
      · rw [if_pos hzero]
        exact ⟨false, _, ⟨_, ['.', '0'], [], isWhole_toDigits 0, .inr ⟨_, areDigits_toDigits 0, rfl⟩,
          .inl rfl, rfl⟩, rfl⟩
      · obtain ⟨hsmall, hbig⟩ := @value_ofBinary64 false rank hzero
        have hunsigned := isUnsigned_decimal hsmall hbig
        rw [if_neg hzero]
        dsimp only
        rw [String.toList_ofList]
        exact isLiteral_signed hunsigned

end StoreReal
end DocFilter
