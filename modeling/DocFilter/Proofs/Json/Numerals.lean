import DocFilter.Json.Reader
import DocFilter.Proofs.Json.Reading

/-!
Literals taken apart.

The digits of a whole number are read as that number. The text of a decimal is read as its digits,
with zeros in front of them or behind them, and a power of ten that makes up for the zeros
(`exists_names_write`); so no layout changes what a decimal stands for.
-/

namespace DocFilter

open Json

/-! ### Values of digits -/

theorem digitsValue_eq_ofDigitChars (digits : List Char) :
    digitsValue digits = Nat.ofDigitChars 10 digits 0 := by
  rw [digitsValue, Nat.ofDigitChars_eq_foldl]
  simp only [Nat.mul_comm]
  rfl

theorem digitsValue_toDigits (n : Nat) : digitsValue (Nat.toDigits 10 n) = n := by
  rw [digitsValue_eq_ofDigitChars, Nat.ofDigitChars_ten_toDigits]

theorem digitsValue_zeros_append (n : Nat) (digits : List Char) :
    digitsValue (List.replicate n '0' ++ digits) = digitsValue digits := by
  rw [digitsValue_eq_ofDigitChars, Nat.ofDigitChars_append, Nat.ofDigitChars_replicate_zero,
    Nat.mul_zero, digitsValue_eq_ofDigitChars]

theorem digitsValue_append_zeros (digits : List Char) (n : Nat) :
    digitsValue (digits ++ List.replicate n '0') = digitsValue digits * 10 ^ n := by
  rw [digitsValue_eq_ofDigitChars, Nat.ofDigitChars_append, Nat.ofDigitChars_replicate_zero,
    digitsValue_eq_ofDigitChars, Nat.mul_comm]

/-! ### Parts of a literal -/

namespace Numeral

variable {whole fraction tail : List Char}

theorem takeSign_signChars (negative : Bool) (hwhole : AreDigits whole) (rest : List Char) :
    takeSign (signChars negative ++ (whole ++ rest)) = (negative, whole ++ rest) := by
  obtain ⟨c, cs, rfl, hdigit⟩ := hwhole.exists_cons
  cases negative with
  | true => rfl
  | false =>
      rw [signChars, if_neg Bool.false_ne_true, List.nil_append, List.cons_append, takeSign]
      · intro rest hcons
        obtain ⟨rfl, _⟩ := List.cons.inj hcons
        cases hdigit
      · intro rest hcons
        obtain ⟨rfl, _⟩ := List.cons.inj hcons
        cases hdigit

theorem take_whole (negative : Bool) (hwhole : AreDigits whole) (htail : EndsDigits tail)
    (hpoint : tail.head? ≠ some '.') :
    take (signChars negative ++ (whole ++ tail)) =
      match takeExponent? tail with
      | some (exponent, rest) => (⟨negative, whole, [], exponent, false⟩, rest)
      | none => (⟨negative, whole, [], 0, true⟩, tail) := by
  obtain ⟨htake, hdrop⟩ := takeWhile_digits hwhole.2 htail
  have hnone (rest : List Char) : tail ≠ '.' :: rest := fun h => hpoint (by rw [h]; rfl)
  unfold take
  -- Where there is no point (`hnone`), what follows the digits is left to the exponent.
  simp only [takeSign_signChars negative hwhole, htake, hdrop]
  rfl

theorem take_point (negative : Bool) (hwhole : AreDigits whole)
    (hfraction : ∀ c ∈ fraction, c.isDigit = true) (htail : EndsDigits tail) :
    take (signChars negative ++ (whole ++ '.' :: (fraction ++ tail))) =
      match takeExponent? tail with
      | some (exponent, rest) => (⟨negative, whole, fraction, exponent, false⟩, rest)
      | none => (⟨negative, whole, fraction, 0, false⟩, tail) := by
  have hends : EndsDigits ('.' :: (fraction ++ tail)) := by simp [EndsDigits]
  obtain ⟨htake, hdrop⟩ := takeWhile_digits hwhole.2 hends
  obtain ⟨htake', hdrop'⟩ := takeWhile_digits hfraction htail
  unfold take
  simp only [takeSign_signChars negative hwhole, htake, hdrop, htake', hdrop']
  rfl

theorem takeExponent?_exponentText (exponent : Int) :
    takeExponent? ('e' :: Decimal.exponentText exponent) = some (exponent, []) := by
  have hread {digits : List Char} (hdigits : AreDigits digits)
      (hvalue : digitsValue digits = exponent.natAbs) :
      takeExponent? ('e' :: (if exponent < 0 then '-' else '+') :: digits) =
        some (exponent, []) := by
    obtain ⟨htake, hdrop⟩ := takeWhile_digits hdigits.2 endsDigits_nil
    rw [List.append_nil] at htake hdrop
    by_cases hneg : exponent < 0
    · simp only [takeExponent?, if_pos hneg, takeSign, htake, hdrop, if_neg hdigits.1, hvalue,
        true_or, if_true, show -(exponent.natAbs : Int) = exponent by omega]
    · simp only [takeExponent?, if_neg hneg, takeSign, htake, hdrop, if_neg hdigits.1, hvalue,
        true_or, if_true, Bool.false_eq_true, if_false,
        show (exponent.natAbs : Int) = exponent by omega]
  have hwritten := areDigits_toDigits exponent.natAbs
  unfold Decimal.exponentText
  dsimp only
  by_cases hshort : (Nat.toDigits 10 exponent.natAbs).length < 2
  · have hzero : ∀ c ∈ ['0'], c = '0' := by simp
    rw [if_pos hshort]
    refine hread (Decimal.areDigits_append hzero hwritten) ?_
    exact (digitsValue_zeros_append 1 _).trans (digitsValue_toDigits _)
  · rw [if_neg hshort]
    exact hread hwritten (digitsValue_toDigits _)

end Numeral

/-! ### Integers -/

theorem take_toString (n : Int) :
    Numeral.take (toString n).toList =
      (⟨n < 0, Nat.toDigits 10 n.natAbs, [], 0, true⟩, []) := by
  have htake := Numeral.take_whole (n < 0) (areDigits_toDigits n.natAbs) endsDigits_nil (by simp)
  rwa [List.append_nil, ← toList_toString] at htake

/-- The text of an integer is read as the integer. -/
theorem numberOf_toString (n : Int) : Json.numberOf (toString n).toList = .int n := by
  rw [Json.numberOf, take_toString]
  simp only [Numeral.toNumber, digitsValue_toDigits, if_true, decide_eq_true_eq]
  split_ifs
  · rw [show -(n.natAbs : Int) = n by omega]
  · rw [show (n.natAbs : Int) = n by omega]

/-! ### Decimals -/

/-- The numeral is the decimal with a sign: it has the same digits with zeros around them, and the
power of ten that makes up for the zeros. -/
structure Numeral.Names (n : Numeral) (negative : Bool) (d : Decimal) : Prop where
  sign : n.negative = negative
  isWhole : n.isWhole = false
  digits : ∃ zeros : Nat,
    digitsValue (n.whole ++ n.fraction) = digitsValue d.digits * 10 ^ zeros ∧
      n.exponent - n.fraction.length = d.exponent + 1 - d.digits.length - zeros

namespace Decimal

variable {digits : List Char}

theorem exists_names_positional (negative : Bool) (hdigits : AreDigits digits) (exponent : Int) :
    ∃ n : Numeral, Numeral.take (signChars negative ++ positional digits exponent) = (n, []) ∧
      n.Names negative ⟨digits, exponent⟩ := by
  have hzeros {n : Nat} : ∀ c ∈ List.replicate n '0', c = '0' :=
    fun c hc => List.eq_of_mem_replicate hc
  unfold positional
  dsimp only
  split_ifs with hneg hshort
  · -- The digits stand behind zeros in the fraction.
    have htake := Numeral.take_point negative (areDigits_toDigits 0)
      (areDigits_append (@hzeros ((-exponent).toNat - 1)) hdigits).2 endsDigits_nil
    rw [List.append_nil] at htake
    refine ⟨_, htake, rfl, rfl, 0, ?_, ?_⟩
    · have hvalue := digitsValue_zeros_append (1 + ((-exponent).toNat - 1)) digits
      rw [List.replicate_add, List.append_assoc] at hvalue
      rw [pow_zero, Nat.mul_one]
      exact hvalue
    · simp only [List.length_append, List.length_replicate]
      omega
  · -- The digits stand in front of zeros, and the fraction is one more zero.
    have hlength : digits.length ≤ exponent.toNat + 1 := List.drop_eq_nil_iff.mp hshort
    rw [List.take_of_length_le hlength]
    set zeros := exponent.toNat + 1 - digits.length with hcount
    have hwhole : AreDigits (digits ++ List.replicate zeros '0') := by
      refine ⟨List.append_ne_nil_of_left_ne_nil hdigits.1 _,
        List.forall_mem_append.mpr ⟨hdigits.2, fun c hc => ?_⟩⟩
      rw [hzeros c hc]
      rfl
    have htake := Numeral.take_point negative hwhole (areDigits_toDigits 0).2 endsDigits_nil
    refine ⟨_, htake, rfl, rfl, zeros + 1, ?_, ?_⟩
    · have hvalue := digitsValue_append_zeros digits (zeros + 1)
      rw [List.replicate_add, ← List.append_assoc] at hvalue
      exact hvalue
    · show (0 : Int) - (1 : Nat) = exponent + 1 - digits.length - (zeros + 1 : Nat)
      omega
  · -- The point stands between digits.
    have hlength : exponent.toNat + 1 < digits.length := by
      simpa using hshort
    have hwhole : AreDigits (digits.take (exponent.toNat + 1)) := by
      refine ⟨by simpa using hdigits.1, fun c hc => hdigits.2 c (List.mem_of_mem_take hc)⟩
    rw [Nat.sub_eq_zero_of_le hlength.le, List.replicate_zero, List.append_nil]
    have hfraction : ∀ c ∈ digits.drop (exponent.toNat + 1), c.isDigit = true :=
      fun c hc => hdigits.2 c (List.mem_of_mem_drop hc)
    have htake := Numeral.take_point negative hwhole hfraction endsDigits_nil
    rw [List.append_nil] at htake
    refine ⟨_, htake, rfl, rfl, 0, ?_, ?_⟩
    · rw [List.take_append_drop, pow_zero, Nat.mul_one]
    · simp only [List.length_drop]
      omega

/-- Under every layout, the text of a decimal is read as the decimal. -/
theorem exists_names_write (negative : Bool) {d : Decimal} (hdigits : AreDigits d.digits)
    (layout : Layout) :
    ∃ n : Numeral, Numeral.take (signChars negative ++ d.write layout) = (n, []) ∧
      n.Names negative d := by
  unfold Decimal.write
  split
  · exact exists_names_positional negative hdigits d.exponent
  · obtain ⟨c, cs, hcs, hdigit⟩ := hdigits.exists_cons
    have hwhole : AreDigits [c] := ⟨by simp, by simpa using hdigit⟩
    have hrest : ∀ e ∈ cs, e.isDigit = true := fun e he => hdigits.2 e (by simp [hcs, he])
    have hends : EndsDigits ('e' :: exponentText d.exponent) := by simp [EndsDigits]
    have hlength : d.digits.length = cs.length + 1 := by rw [hcs, List.length_cons]
    simp only [hcs, List.take_succ_cons, List.take_zero, List.drop_succ_cons, List.drop_zero]
    split_ifs with hsingle hkept
    · have htake := Numeral.take_point negative hwhole (areDigits_toDigits 0).2 hends
      rw [Numeral.takeExponent?_exponentText] at htake
      refine ⟨_, htake, rfl, rfl, 1, ?_, ?_⟩
      · rw [hcs, hsingle]
        exact digitsValue_append_zeros [c] 1
      · show d.exponent - (1 : Nat) = _
        rw [hlength, hsingle, List.length_nil]
        omega
    · have htake := Numeral.take_whole negative hwhole hends (by simp)
      rw [Numeral.takeExponent?_exponentText] at htake
      refine ⟨_, htake, rfl, rfl, 0, ?_, ?_⟩
      · rw [hcs, hsingle, List.append_nil, pow_zero, Nat.mul_one]
      · rw [hlength, hsingle]
        simp
    · have htake := Numeral.take_point negative hwhole hrest hends
      rw [Numeral.takeExponent?_exponentText] at htake
      refine ⟨_, by simpa using htake, rfl, rfl, 0, ?_, ?_⟩
      · rw [hcs, List.singleton_append, pow_zero, Nat.mul_one]
      · rw [hlength]
        dsimp only
        omega

end Decimal

end DocFilter
