import Mathlib.Algebra.Order.Ring.Abs
import Mathlib.Tactic.NormNum
import Reckon.Proofs.Decimal.Nearest
import Reckon.Proofs.Matrix.ExactRun

/-!
# Integers among the decimals

A decimal that stands for an integer may have zeros behind the point; its mantissa is then the
magnitude of the integer followed by them. The integers below `2 ^ 96` in magnitude are those that
have a decimal, and a product of two decimals that are integers is exact, or has no room.
-/

namespace Reckon.Decimal

/-- A decimal that is an integer has its multiple as signed mantissa. -/
theorem signed_of_toRat {d : Decimal} {n : ℤ} (value : d.toRat = n) :
    d.signed = n * 10 ^ d.scale := by
  have unit : (10 : ℚ) ^ d.scale ≠ 0 := by positivity
  rw [toRat_eq_div, div_eq_iff unit] at value
  exact_mod_cast value

/-- A decimal that is an integer has a multiple of its size as mantissa. -/
theorem mantissa_of_toRat {d : Decimal} {n : ℤ} (value : d.toRat = n) :
    d.mantissa = n.natAbs * 10 ^ d.scale := by
  rw [← signed_natAbs, signed_of_toRat value, Int.natAbs_mul, Int.natAbs_pow]
  rfl

/-- A decimal whose rational is an integer is tested to be one. -/
theorem isInteger_of_toRat {d : Decimal} {n : ℤ} (value : d.toRat = n) : d.isInteger = true := by
  rw [isInteger, mantissa_of_toRat value, Nat.mul_mod_left]
  rfl

/-- The integer part of a decimal that is an integer is that integer. -/
theorem truncate_of_toRat {d : Decimal} {n : ℤ} (value : d.toRat = n) : d.truncate = n := by
  have mantissa := mantissa_of_toRat value
  have signs := signed_of_toRat value
  have unit : (0 : ℤ) < 10 ^ d.scale := by positivity
  rw [signed, mantissa, Nat.cast_mul, Nat.cast_pow, Nat.cast_ofNat] at signs
  rw [truncate, mantissa, Nat.mul_div_cancel _ (pow_ten_pos _)]
  split at signs
  · next negative =>
    rw [← neg_mul] at signs
    rw [if_pos negative]
    exact mul_right_cancel₀ unit.ne' signs
  · next plain =>
    rw [if_neg plain]
    exact mul_right_cancel₀ unit.ne' signs

/-- A decimal is tested to be zero exactly when it is. -/
theorem isZero_iff_toRat {d : Decimal} : d.isZero = true ↔ d.toRat = 0 :=
  ⟨toRat_of_isZero, isZero_of_toRat_eq_zero⟩

/-- No decimal is as large as `2 ^ 96`. -/
theorem abs_toRat_lt (d : Decimal) : |d.toRat| < 2 ^ 96 := by
  have unit : (1 : ℚ) ≤ 10 ^ d.scale := one_le_pow₀ (by norm_num)
  have room : (d.mantissa : ℚ) < 2 ^ 96 := by exact_mod_cast d.mantissa_lt
  rw [Value.abs_toRat]
  exact (div_le_self (Nat.cast_nonneg _) unit).trans_lt room

/-- Every integer below `2 ^ 96` in magnitude is a decimal. -/
theorem exists_toRat_eq {n : ℤ} (room : |n| < 2 ^ 96) : ∃ d : Decimal, d.toRat = n := by
  have small : n.natAbs < 2 ^ 96 := by
    rw [Int.abs_eq_natAbs] at room
    exact_mod_cast room
  refine ⟨⟨n < 0, n.natAbs, 0, small, by decide⟩, ?_⟩
  rw [toRat_eq_div, signed]
  simp only [decide_eq_true_eq, pow_zero, div_one]
  split
  · next negative => rw [show -(n.natAbs : ℤ) = n by omega]
  · next plain => rw [show (n.natAbs : ℤ) = n by omega]

/-- A product of integers is exact. -/
theorem toRat_mul?_of_integers {x y z : Decimal} {m n : ℤ} (hx : x.toRat = m) (hy : y.toRat = n)
    (product : x.mul? y = some z) : z.toRat = (m * n : ℤ) := by
  have whole : x.mantissa * y.mantissa = (m * n).natAbs * 10 ^ (x.scale + y.scale) := by
    rw [mantissa_of_toRat hx, mantissa_of_toRat hy, Int.natAbs_mul, pow_add]
    ac_rfl
  have fitted := toRat_mul? x y
  have digits : 10 ^ (x.scale + y.scale) ∣ x.mantissa * y.mantissa * 10 ^ 0 :=
    ⟨(m * n).natAbs, by rw [whole, pow_zero, Nat.mul_one, Nat.mul_comm]⟩
  rw [product, Option.map_some, toRat_fit?_of_le (pow_ten_pos _) digits (Nat.zero_le _)
    (Nat.min_le_right _ _), fit?, whole, roundHalfEven_mul_right _ (pow_ten_pos _)] at fitted
  obtain ⟨d, parts, same⟩ := Option.map_eq_some_iff.1 fitted.symm
  have exact' : x.mantissa * y.mantissa * 10 ^ 0 = (m * n).natAbs * 10 ^ (x.scale + y.scale) := by
    rw [pow_zero, Nat.mul_one, whole]
  rw [← same, toRat_of_ofParts?_mul exact' parts, hx, hy, Int.cast_mul]

/-- A product of integers has room if it is below `2 ^ 96`. -/
theorem exists_mul?_of_integers {x y : Decimal} {m n : ℤ} (hx : x.toRat = m) (hy : y.toRat = n)
    (room : |m * n| < 2 ^ 96) : ∃ z, x.mul? y = some z ∧ z.toRat = (m * n : ℤ) := by
  obtain ⟨r, value⟩ := exists_toRat_eq room
  have isProduct : r.toRat = x.toRat * y.toRat := by rw [value, hx, hy, Int.cast_mul]
  obtain ⟨z, product, same⟩ := exists_mul?_of_toRat_eq isProduct
  exact ⟨z, product, same.trans value⟩

end Reckon.Decimal
