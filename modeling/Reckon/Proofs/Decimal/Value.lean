import Reckon.Decimal.Basic

/-!
# The number that a decimal stands for

Two decimals are the same number if their rationals agree; the scale does not matter. Dropping zeros
at the end of the fraction and the sign of zero keeps the number.
-/

namespace Reckon.Decimal

/-- No power of ten is zero. -/
theorem pow_ten_ne_zero (scale : Nat) : 10 ^ scale ≠ 0 :=
  Nat.ne_of_gt (Nat.pow_pos (by omega))

/-- Over a common power of ten, equal numbers have equal mantissas. -/
theorem toRat_eq_iff {a b : Decimal} :
    a.toRat = b.toRat ↔ a.signed * 10 ^ b.scale = b.signed * 10 ^ a.scale := by
  rw [toRat, toRat, Rat.mkRat_eq_iff (pow_ten_ne_zero _) (pow_ten_ne_zero _)]
  simp only [Int.natCast_pow, Int.cast_ofNat_Int]

/-- Over a common power of ten, equal mantissas with equal signs are equal numbers. -/
theorem toRat_eq_of_mantissa {a b : Decimal} (sign : a.negative = b.negative)
    (cross : a.mantissa * 10 ^ b.scale = b.mantissa * 10 ^ a.scale) : a.toRat = b.toRat := by
  have cast : (a.mantissa : Int) * 10 ^ b.scale = (b.mantissa : Int) * 10 ^ a.scale := by
    exact_mod_cast cross
  rw [toRat_eq_iff, signed, signed, sign]
  split
  · rw [Int.neg_mul, Int.neg_mul, cast]
  · exact cast

/-- Equal numbers stay equal when they are negated. -/
theorem toRat_neg_congr {a b : Decimal} (h : a.toRat = b.toRat) : a.neg.toRat = b.neg.toRat := by
  rw [toRat_eq_iff, signed_neg, signed_neg, Int.neg_mul, Int.neg_mul]
  exact congrArg Neg.neg (toRat_eq_iff.1 h)

/-- Being the same number is having the same rational. -/
theorem same_iff {a b : Decimal} : a.same b = true ↔ a.toRat = b.toRat := by
  rw [same, compare, beq_iff_eq, Std.LawfulEqCmp.compare_eq_iff_eq, toRat_eq_iff]

/-- The signed mantissa is as large as the mantissa. -/
theorem signed_natAbs (d : Decimal) : d.signed.natAbs = d.mantissa := by
  rw [signed]
  split
  · rw [Int.natAbs_neg, Int.natAbs_natCast]
  · rw [Int.natAbs_natCast]

/-- Trimming changes the mantissa as it changes the scale. -/
theorem trimZeros_mul_pow_scale (mantissa scale : Nat) :
    (trimZeros mantissa scale).1 * 10 ^ scale = mantissa * 10 ^ (trimZeros mantissa scale).2 := by
  have shorter := trimZeros_snd_le mantissa scale
  have split : 10 ^ scale =
      10 ^ (scale - (trimZeros mantissa scale).2) * 10 ^ (trimZeros mantissa scale).2 := by
    rw [← Nat.pow_add, Nat.sub_add_cancel shorter]
  rw [split, ← Nat.mul_assoc, trimZeros_mul_pow]

/-- The normal form stands for the same number. -/
theorem toRat_normalize (d : Decimal) : d.normalize.toRat = d.toRat := by
  by_cases zero : d.mantissa = 0
  · have trimmed : (trimZeros 0 d.scale).1 = 0 := Nat.eq_zero_of_le_zero (trimZeros_fst_le 0 _)
    rw [toRat_eq_iff]
    simp only [signed, normalize, zero, trimmed, Int.natCast_zero, Int.neg_zero, ite_self,
      Int.zero_mul]
  · have kept : d.normalize.negative = d.negative := by
      rw [normalize, bne_iff_ne.2 zero, Bool.and_true]
    exact toRat_eq_of_mantissa kept (trimZeros_mul_pow_scale d.mantissa d.scale)

/-- The normal form of a number is the same number. -/
theorem normalize_same (d : Decimal) : d.normalize.same d = true :=
  same_iff.2 (toRat_normalize d)

end Reckon.Decimal
