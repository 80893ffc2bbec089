import DocFilter.Proofs.Json.Numerals
import DocFilter.Proofs.Number.Nearest

/-!
The text of a finite number names that number.

A multiple is found on a grid only if it reads back as the rank, and the grid of step 1 holds the
exact magnitude, which does; so what the search ends with reads back, whatever grid that is
(`readsAs_coarsest`). Reading a text cuts off magnitudes from `10 ^ 310` and below `10 ^ -330`.
Between these bounds lies every magnitude that reads back as the rank of a finite number other than
zero (`magnitude_bounds`), and there only the value counts that digits and exponent have together
(`ofDecimal_eq`).
-/

namespace DocFilter

open Json

namespace Decimal

open Binary64

/-! ### Multiples that read back -/

theorem ten_pow_scale : 10 ^ scale = 5 ^ scale * one := by decide +kernel

theorem readsAs_exact (rank : Nat) : readsAs (exact rank) = rank := by
  have hvalue : exact rank * one * 1 = unitsOfRank rank * 10 ^ scale := by
    rw [exact, ten_pow_scale, Nat.mul_one, Nat.mul_assoc]
  rw [readsAs, nearestRank_congr (Nat.pow_pos (by decide)) Nat.one_pos hvalue,
    nearestRank_unitsOfRank]

theorem readsAs_candidate {rank value step found : Nat}
    (h : candidate? rank value step = some found) : readsAs (found * step) = rank := by
  unfold candidate? at h
  dsimp only at h
  split_ifs at h with hboth hless hgreater hlow hhigh
  · cases h
    exact beq_iff_eq.mp (Bool.and_eq_true_iff.mp hboth).1
  · cases h
    exact beq_iff_eq.mp (Bool.and_eq_true_iff.mp hboth).2
  · -- The even one of the two is one of the two.
    obtain ⟨hlow, hhigh⟩ := Bool.and_eq_true_iff.mp hboth
    cases h
    obtain heven | hodd := Nat.mod_two_eq_zero_or_one (value / step)
    · rw [heven]
      exact beq_iff_eq.mp hlow
    · rw [hodd]
      exact beq_iff_eq.mp hhigh
  · cases h
    exact beq_iff_eq.mp hlow
  · cases h
    exact beq_iff_eq.mp hhigh

theorem readsAs_coarsest (rank : Nat) :
    readsAs ((coarsest rank (exact rank)).1 * 10 ^ (coarsest rank (exact rank)).2) = rank := by
  obtain hvalue | ⟨kept, found, hfound, hsearch⟩ :=
    search_cases (candidate? rank (exact rank)) (exact rank)
      ((Nat.toDigits 10 (exact rank)).length - 1)
  · rw [coarsest, hvalue, pow_zero, Nat.mul_one]
    exact readsAs_exact rank
  · rw [coarsest, hsearch]
    exact readsAs_candidate hfound

/-! ### Digits of multiples -/

theorem digitCount_bounds {n : Nat} (hn : n ≠ 0) :
    10 ^ (digitCount n - 1) ≤ n ∧ n < 10 ^ digitCount n := by
  rw [digitCount, if_neg hn]
  have hpositive : 0 < (Nat.toDigits 10 n).length := Nat.length_toDigits_pos
  refine ⟨?_, (Nat.length_toDigits_le_iff (by decide) hpositive).mp le_rfl⟩
  by_contra hlt
  obtain hone | hmore := Nat.eq_or_lt_of_le hpositive
  · rw [← hone, Nat.sub_self, pow_zero] at hlt
    omega
  · have hshort := (Nat.length_toDigits_le_iff (by decide) (Nat.sub_pos_of_lt hmore)).mpr
      (Nat.lt_of_not_le hlt)
    omega

theorem toDigits_mul_pow {n : Nat} (hn : n ≠ 0) (zeros : Nat) :
    Nat.toDigits 10 (n * 10 ^ zeros) = Nat.toDigits 10 n ++ List.replicate zeros '0' := by
  induction zeros with
  | zero => simp
  | succ zeros ih =>
      have hpositive : 0 < n * 10 ^ zeros :=
        Nat.mul_pos (Nat.pos_of_ne_zero hn) (Nat.pow_pos (by decide))
      have hlast := Nat.toDigits_append_toDigits (by decide : 1 < 10) hpositive (by decide : 0 < 10)
      rw [show n * 10 ^ (zeros + 1) = 10 * (n * 10 ^ zeros) + 0 by ring, ← hlast, ih,
        List.append_assoc, List.replicate_succ']
      rfl

theorem digitCount_mul_pow {n : Nat} (hn : n ≠ 0) (zeros : Nat) :
    digitCount (n * 10 ^ zeros) = digitCount n + zeros := by
  have hne : n * 10 ^ zeros ≠ 0 :=
    Nat.mul_ne_zero hn (Nat.pos_iff_ne_zero.mp (Nat.pow_pos (by decide)))
  rw [digitCount, digitCount, if_neg hne, if_neg hn, toDigits_mul_pow hn, List.length_append,
    List.length_replicate]

/-- The digits of a number are its significant ones and the zeros behind them. -/
theorem exists_zeros_significant {n : Nat} (hn : n ≠ 0) :
    ∃ zeros, Nat.toDigits 10 n = significant n ++ List.replicate zeros '0' := by
  set digits := Nat.toDigits 10 n with hdigits
  have hsplit : dropZeros digits ++ (digits.reverse.takeWhile (· = '0')).reverse = digits := by
    rw [dropZeros, ← List.reverse_append, List.takeWhile_append_dropWhile, List.reverse_reverse]
  have hzeros : ∀ c ∈ (digits.reverse.takeWhile (· = '0')).reverse, c = '0' := by
    intro c hc
    simpa using List.mem_takeWhile_imp (List.mem_reverse.mp hc)
  have hsame : significant n = dropZeros digits := by
    have hleads := significant_leadsOff hn
    unfold significant at hleads ⊢
    split
    · rename_i hnil
      rw [hnil] at hleads
      exact absurd rfl hleads.2
    · rfl
  refine ⟨(digits.reverse.takeWhile (· = '0')).reverse.length, ?_⟩
  rw [hsame, ← List.eq_replicate_of_mem hzeros, hsplit]

/-! ### Magnitudes of finite numbers -/

theorem rankCount_le_readsAs {scaled : Nat} (h : 10 ^ (310 + scale) ≤ scaled) :
    rankCount ≤ readsAs scaled := by
  have hpower : 2 ^ 1024 ≤ 10 ^ 310 := by decide +kernel
  have hreach : 10 ^ scale * 2 ^ (2046 + 52) ≤ scaled * one := by
    calc 10 ^ scale * 2 ^ (2046 + 52) = 10 ^ scale * (2 ^ 1024 * one) := by rw [two_pow_mul_one]
      _ ≤ 10 ^ scale * (10 ^ 310 * one) :=
          Nat.mul_le_mul_left _ (Nat.mul_le_mul_right _ hpower)
      _ = 10 ^ (310 + scale) * one := by
          rw [← Nat.mul_assoc, ← Nat.pow_add, Nat.add_comm scale]
      _ ≤ scaled * one := Nat.mul_le_mul_right _ h
  have hbound : (2046 + 1) * 2 ^ 52 ≤ nearestRank (scaled * one) (10 ^ scale) :=
    le_nearestRank (Nat.pow_pos (by decide)) hreach
  exact hbound

theorem readsAs_eq_zero {scaled : Nat} (h : scaled < 10 ^ (scale - 331)) : readsAs scaled = 0 := by
  have hpower : 2 * one ≤ 10 ^ 331 := by decide +kernel
  have htwice : 0 < 2 * one := by
    have hone := one_pos
    omega
  have hvanishes : 2 * (scaled * one) < 10 ^ scale := by
    calc 2 * (scaled * one) = scaled * (2 * one) := Nat.mul_left_comm ..
      _ < 10 ^ (scale - 331) * (2 * one) := Nat.mul_lt_mul_of_pos_right h htwice
      _ ≤ 10 ^ (scale - 331) * 10 ^ 331 := Nat.mul_le_mul_left _ hpower
      _ = 10 ^ scale := by rw [← Nat.pow_add, Nat.sub_add_cancel (by decide)]
  exact nearestRank_eq_zero hvanishes

/-- A multiple that reads back as the rank of a finite number other than zero is not cut off. -/
theorem magnitude_bounds {multiple dropped : Nat} (hne : readsAs (multiple * 10 ^ dropped) ≠ 0)
    (hlt : readsAs (multiple * 10 ^ dropped) < rankCount) (hmultiple : multiple ≠ 0) :
    scale ≤ digitCount multiple + dropped + 330 ∧
      digitCount multiple + dropped ≤ 310 + scale := by
  obtain ⟨hlow, hhigh⟩ := digitCount_bounds hmultiple
  constructor
  · by_contra hsmall
    refine hne (readsAs_eq_zero ?_)
    calc multiple * 10 ^ dropped < 10 ^ digitCount multiple * 10 ^ dropped :=
          Nat.mul_lt_mul_of_pos_right hhigh (Nat.pow_pos (by decide))
      _ = 10 ^ (digitCount multiple + dropped) := (Nat.pow_add ..).symm
      _ ≤ 10 ^ (scale - 331) := Nat.pow_le_pow_right (by decide) (by omega)
  · by_contra hlarge
    refine Nat.not_le.mpr hlt (rankCount_le_readsAs ?_)
    calc 10 ^ (310 + scale) ≤ 10 ^ (digitCount multiple - 1 + dropped) :=
          Nat.pow_le_pow_right (by decide) (by omega)
      _ = 10 ^ (digitCount multiple - 1) * 10 ^ dropped := Nat.pow_add ..
      _ ≤ multiple * 10 ^ dropped := Nat.mul_le_mul_right _ hlow

/-! ### Reading -/

/-- Where nothing is cut off, digits and an exponent are read as the rank of their value. -/
theorem ofDecimal_eq {digits up down scaled : Nat} (negative : Bool) (hdigits : digits ≠ 0)
    (hlow : scale + down ≤ digitCount digits + up + 330)
    (hhigh : digitCount digits + up ≤ 310 + scale + down)
    (hvalue : digits * 10 ^ up = scaled * 10 ^ down) :
    ofDecimal negative digits (up - down - scale) = ofRank negative (readsAs scaled) := by
  have hten (n : Nat) : 0 < 10 ^ n := Nat.pow_pos (by decide)
  have hkept : ¬(digits = 0 ∨ (up - down - scale : Int) + digitCount digits < -330) := by
    have hscale : scale = 1074 := rfl
    omega
  have hfits : ¬310 < (up - down - scale : Int) + digitCount digits := by omega
  unfold ofDecimal
  dsimp only
  rw [if_neg hkept, if_neg hfits]
  split_ifs with hwhole
  · have hup : up = (up - down - scale : Int).toNat + scale + down := by omega
    set power := (up - down - scale : Int).toNat
    have hscaled : digits * 10 ^ power * 10 ^ scale = scaled := by
      refine Nat.mul_right_cancel (hten down) ?_
      rw [← hvalue, hup, Nat.mul_assoc, Nat.mul_assoc, ← Nat.pow_add, ← Nat.pow_add, Nat.add_assoc]
    refine congrArg (ofRank negative) (nearestRank_congr Nat.one_pos (hten scale) ?_)
    rw [← hscaled]
    ring
  · have hdown : down + scale = (-(up - down - scale : Int)).toNat + up := by omega
    set power := (-(up - down - scale : Int)).toNat
    have hscaled : digits * 10 ^ scale = scaled * 10 ^ power := by
      refine Nat.mul_right_cancel (hten up) ?_
      rw [Nat.mul_right_comm, hvalue, Nat.mul_assoc, ← Nat.pow_add, hdown, Nat.pow_add,
        ← Nat.mul_assoc]
    refine congrArg (ofRank negative) (nearestRank_congr (hten power) (hten scale) ?_)
    rw [Nat.mul_right_comm, hscaled, Nat.mul_right_comm]

end Decimal

namespace Numeral.Names

open Decimal Binary64

variable {n : Numeral} {negative : Bool}

/-- A numeral that names a multiple is the number nearest to it, unless the multiple is cut off. -/
theorem toBinary64_ofMultiple {multiple : Nat × Nat}
    (h : n.Names negative (ofMultiple multiple)) (hmultiple : multiple.1 ≠ 0)
    (hlow : scale ≤ digitCount multiple.1 + multiple.2 + 330)
    (hhigh : digitCount multiple.1 + multiple.2 ≤ 310 + scale) :
    n.toBinary64 = ofRank negative (readsAs (multiple.1 * 10 ^ multiple.2)) := by
  obtain ⟨zeros, hvalue, hexponent⟩ := h.digits
  obtain ⟨more, hdigits⟩ := exists_zeros_significant hmultiple
  -- What was dropped from the multiple is in the exponent, the zeros of the text are not.
  have hlength := congrArg List.length hdigits
  have hmore := congrArg digitsValue hdigits
  rw [digitsValue_toDigits, digitsValue_append_zeros] at hmore
  rw [List.length_append, List.length_replicate] at hlength
  rw [digits_ofMultiple] at hvalue hexponent
  set significand := digitsValue (significant multiple.1)
  have hsignificand : significand ≠ 0 := by
    intro hzero
    rw [hzero, Nat.zero_mul] at hmore
    exact hmultiple hmore
  have hcount : digitCount multiple.1 = digitCount significand + more := by
    rw [hmore, digitCount_mul_pow hsignificand]
  have hplaces : n.exponent - n.fraction.length =
      ((more + multiple.2 : Nat) : Int) - (zeros : Nat) - (scale : Nat) := by
    rw [hexponent, ofMultiple]
    dsimp only
    omega
  unfold toBinary64
  rw [h.sign, hvalue, hplaces]
  refine ofDecimal_eq negative ?_ ?_ ?_ ?_
  · exact Nat.mul_ne_zero hsignificand (Nat.pos_iff_ne_zero.mp (Nat.pow_pos (by decide)))
  · rw [digitCount_mul_pow hsignificand]
    omega
  · rw [digitCount_mul_pow hsignificand]
    omega
  · rw [hmore]
    ring

theorem toBinary64_zero (h : n.Names negative ⟨['0'], 0⟩) : n.toBinary64 = ofRank negative 0 := by
  obtain ⟨zeros, hvalue, -⟩ := h.digits
  unfold toBinary64
  rw [h.sign, hvalue, show digitsValue ['0'] = 0 from rfl, Nat.zero_mul]
  unfold ofDecimal
  exact if_pos (Or.inl rfl)

end Numeral.Names

namespace Binary64

/-- The text of a finite number is read as that number. -/
theorem numberOf_text {x : Binary64} (h : x.isFinite = true) : numberOf x.text.toList = .real x := by
  cases x with
  | nan => cases h
  | infinite negative => cases h
  | finite negative rank =>
      have hdigits : AreDigits (Decimal.shortest rank).digits := by
        obtain hzero | hleads := Decimal.shortest_cases rank
        · rw [hzero]
          exact areDigits_toDigits 0
        · exact hleads.1
      obtain ⟨n, htake, hnames⟩ :=
        Decimal.exists_names_write negative hdigits Decimal.documentLayout
      have htext : (finite negative rank).text.toList =
          signChars negative ++ (Decimal.shortest rank).write Decimal.documentLayout := by
        rw [text, String.toList_ofList]
        cases negative <;> rfl
      have hread : n.toBinary64 = ofRank negative rank := by
        unfold Decimal.shortest at hnames
        split_ifs at hnames with hrank
        · rw [hrank]
          exact hnames.toBinary64_zero
        · -- The digits are chosen so that they are read as the rank that they were made for.
          have hreads := Decimal.readsAs_coarsest rank
          have hfound : (Decimal.coarsest rank (Decimal.exact rank)).1 ≠ 0 :=
            Decimal.coarsest_ne_zero hrank (Decimal.exact_ne_zero hrank)
          obtain ⟨hlow, hhigh⟩ := Decimal.magnitude_bounds (hreads ▸ hrank)
            (hreads.symm ▸ rank.isLt) hfound
          rw [hnames.toBinary64_ofMultiple hfound hlow hhigh, hreads]
      rw [numberOf, htext, htake, Numeral.toNumber, hnames.isWhole, hread, ofRank, dif_pos rank.isLt]
      rfl

end Binary64

end DocFilter
