import DocFilter.Proofs.Number.Quotient
import Mathlib.Order.Compare
import Mathlib.Algebra.Order.Ring.Int

/-!
Exact integers are compared as integers.
-/

namespace DocFilter.Number

theorem compare?_int (a b : Int) : (int a).compare? (int b) = some (compare a b) := by
  have hone : (0 : Int) < Binary64.one := by exact_mod_cast Binary64.one_pos
  have hcompare : compare (a * Binary64.one : Int) (b * Binary64.one) = compare a b := by
    rcases lt_trichotomy a b with h | rfl | h
    · rw [compare_lt_iff_lt.mpr h, compare_lt_iff_lt]
      exact mul_lt_mul_of_pos_right h hone
    · rw [compare_eq_iff_eq.mpr rfl, compare_eq_iff_eq.mpr rfl]
    · rw [compare_gt_iff_gt.mpr h, compare_gt_iff_gt]
      exact mul_lt_mul_of_pos_right h hone
  rw [← hcompare]
  rfl

theorem less_int (a b : Int) : (int a).less (int b) = decide (a < b) := by
  rw [less, compare?_int, Bool.eq_iff_iff]
  simp [compare_lt_iff_lt]

end DocFilter.Number
