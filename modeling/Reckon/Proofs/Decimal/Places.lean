import Mathlib.Algebra.Order.Field.Rat
import Mathlib.Tactic.FieldSimp
import Mathlib.Tactic.Linarith
import Mathlib.Tactic.Positivity
import Reckon.Proofs.Decimal.Exact
import Reckon.Proofs.Matrix.ExactRun

/-!
# How far rounding to places moves a number

A number that is shown with some places is within half a unit of the last place of the number it
shows. Shown with six places, exactly the numbers below half a millionth count as zero.
-/

namespace Reckon

namespace Decimal

/-- Numbers of one sign are as far apart as their magnitudes. -/
theorem abs_sub_of_negative_eq {a b : Decimal} (sign : a.negative = b.negative) :
    |a.toRat - b.toRat| = |(a.mantissa : ℚ) / 10 ^ a.scale - b.mantissa / 10 ^ b.scale| := by
  rw [toRat_eq_div, toRat_eq_div, signed, signed, sign]
  split
  · push_cast
    rw [neg_div, neg_div, neg_sub_neg, abs_sub_comm]
  · push_cast
    rfl

/-! ## Rounding to places -/

/-- Two divides every power of ten but the first. -/
theorem two_dvd_pow_ten {k : Nat} (positive : 0 < k) : 2 ∣ 10 ^ k :=
  Dvd.dvd.pow (by decide) (Nat.ne_of_gt positive)

/-- The mantissa that is left is the nearest one in the unit of the last place. -/
theorem rounded_mantissa_near (mantissa : Nat) {unit : Nat} (even : 2 ∣ unit) (positive : 0 < unit) :
    2 * mantissa ≤ 2 * ((mantissa + unit / 2) / unit * unit) + unit ∧
      2 * ((mantissa + unit / 2) / unit * unit) ≤ 2 * mantissa + unit := by
  obtain ⟨half, rfl⟩ := even
  have halved : 2 * half / 2 = half := Nat.mul_div_cancel_left half (by decide)
  have whole := Nat.div_add_mod (mantissa + half) (2 * half)
  have rest := Nat.mod_lt (mantissa + half) positive
  rw [halved, Nat.mul_comm _ (2 * half)]
  omega

/-- A mantissa with some digits less is off by half a unit of the last place at most. -/
theorem abs_shorter_sub_le {kept mantissa places more : Nat}
    (low : 2 * mantissa ≤ 2 * (kept * 10 ^ more) + 10 ^ more)
    (high : 2 * (kept * 10 ^ more) ≤ 2 * mantissa + 10 ^ more) :
    |(kept : ℚ) / 10 ^ places - mantissa / 10 ^ (places + more)| ≤ 1 / (2 * 10 ^ places) := by
  have low : 2 * (mantissa : ℚ) ≤ 2 * (kept * 10 ^ more) + 10 ^ more := by exact_mod_cast low
  have high : 2 * ((kept : ℚ) * 10 ^ more) ≤ 2 * mantissa + 10 ^ more := by exact_mod_cast high
  have unit : (0 : ℚ) < 10 ^ more := by positivity
  have place : (0 : ℚ) < 10 ^ places := by positivity
  have difference : (kept : ℚ) / 10 ^ places - mantissa / 10 ^ (places + more) =
      (kept * 10 ^ more - mantissa) / (10 ^ places * 10 ^ more) := by
    rw [pow_add]
    field_simp
  have bound : |(kept : ℚ) * 10 ^ more - mantissa| ≤ 10 ^ more / 2 :=
    abs_le.2 ⟨by linarith, by linarith⟩
  rw [difference, abs_div, abs_of_pos (mul_pos place unit)]
  calc |(kept : ℚ) * 10 ^ more - mantissa| / (10 ^ places * 10 ^ more)
      ≤ 10 ^ more / 2 / (10 ^ places * 10 ^ more) :=
        div_le_div_of_nonneg_right bound (mul_pos place unit).le
    _ = 1 / (2 * 10 ^ places) := by field_simp

/-- Rounding to places keeps the sign. -/
theorem negative_roundTo (places : Nat) (d : Decimal) :
    (d.roundTo places).negative = d.negative := by
  unfold roundTo
  split <;> rfl

/-- A scale beyond the places is beyond them by one or more. -/
theorem exists_longer {scale places : Nat} (h : ¬scale ≤ places) :
    ∃ more, scale = places + (more + 1) := by
  obtain ⟨more, longer⟩ := Nat.exists_eq_add_of_lt (Nat.lt_of_not_le h)
  exact ⟨more, by omega⟩

/-- What rounding leaves of a longer fraction. -/
theorem roundTo_of_longer {places more : Nat} {d : Decimal} (longer : d.scale = places + (more + 1)) :
    (d.roundTo places).scale = places ∧
      (d.roundTo places).mantissa = (d.mantissa + 10 ^ (more + 1) / 2) / 10 ^ (more + 1) := by
  have apart : ¬d.scale ≤ places := by omega
  have digits : d.scale - places = more + 1 := by omega
  unfold roundTo
  rw [dif_neg apart, ← digits]
  exact ⟨rfl, rfl⟩

/-- Rounding to places moves a number by half a unit of the last place at most. -/
theorem abs_roundTo_sub_le (places : Nat) (d : Decimal) :
    |(d.roundTo places).toRat - d.toRat| ≤ 1 / (2 * 10 ^ places) := by
  by_cases short : d.scale ≤ places
  · rw [roundTo_of_le short, sub_self, abs_zero]
    positivity
  · obtain ⟨more, longer⟩ := exists_longer short
    obtain ⟨scale, mantissa⟩ := roundTo_of_longer longer
    obtain ⟨low, high⟩ := rounded_mantissa_near d.mantissa (two_dvd_pow_ten (Nat.succ_pos more))
      (Nat.pow_pos (by decide))
    rw [abs_sub_of_negative_eq (negative_roundTo places d), scale, mantissa, longer]
    exact abs_shorter_sub_le low high

/-- A number without digits beyond the places stays the same number. -/
theorem toRat_roundTo_of_dvd {places : Nat} {d : Decimal}
    (whole : 10 ^ (d.scale - places) ∣ d.mantissa) : (d.roundTo places).toRat = d.toRat := by
  by_cases short : d.scale ≤ places
  · rw [roundTo_of_le short]
  · obtain ⟨more, longer⟩ := exists_longer short
    obtain ⟨scale, mantissa⟩ := roundTo_of_longer longer
    have digits : d.scale - places = more + 1 := by omega
    have positive : 0 < 10 ^ (more + 1) := pow_ten_pos _
    have half : 10 ^ (more + 1) / 2 < 10 ^ (more + 1) := Nat.div_lt_self positive (by decide)
    obtain ⟨kept, digitsKept⟩ := whole
    rw [digits] at digitsKept
    rw [digitsKept, Nat.mul_add_div positive, Nat.div_eq_of_lt half, Nat.add_zero] at mantissa
    refine toRat_eq_of_mantissa (negative_roundTo places d) ?_
    rw [scale, mantissa, digitsKept, longer, Nat.pow_add, Nat.mul_comm (10 ^ (more + 1)) kept,
      Nat.mul_assoc, Nat.mul_comm (10 ^ places)]

/-- Rounded, a number is at most `k` units of the last place exactly if it is less than half a unit
above that. -/
theorem abs_roundTo_le_iff (places k : Nat) (d : Decimal) :
    |(d.roundTo places).toRat| ≤ k / 10 ^ places ↔
      |d.toRat| < k / 10 ^ places + 1 / (2 * 10 ^ places) := by
  have sum : (k : ℚ) / 10 ^ places + 1 / (2 * 10 ^ places) = (2 * k + 1 : ℕ) / (2 * 10 ^ places) := by
    push_cast
    field_simp
  rw [sum, Value.abs_toRat, Value.abs_toRat]
  by_cases short : d.scale ≤ places
  · obtain ⟨more, length⟩ := Nat.exists_eq_add_of_le short
    rw [roundTo_of_le short, length, pow_add,
      div_le_div_iff₀ (by positivity) (by positivity), div_lt_div_iff₀ (by positivity) (by positivity)]
    have place : (0 : ℚ) < 10 ^ d.scale := by positivity
    have units : (d.mantissa : ℚ) * (10 ^ d.scale * 10 ^ more) ≤ k * 10 ^ d.scale ↔
        d.mantissa * 10 ^ more ≤ k := by
      rw [mul_left_comm, mul_comm (k : ℚ), mul_le_mul_iff_right₀ place]
      exact_mod_cast Iff.rfl
    have halves : (d.mantissa : ℚ) * (2 * (10 ^ d.scale * 10 ^ more)) <
          ((2 * k + 1 : ℕ) : ℚ) * 10 ^ d.scale ↔ 2 * (d.mantissa * 10 ^ more) < 2 * k + 1 := by
      rw [show (d.mantissa : ℚ) * (2 * (10 ^ d.scale * 10 ^ more)) =
        10 ^ d.scale * (2 * (d.mantissa * 10 ^ more)) by ring, mul_comm _ ((10 : ℚ) ^ d.scale),
        mul_lt_mul_iff_right₀ place]
      exact_mod_cast Iff.rfl
    rw [units, halves]
    omega
  · obtain ⟨more, longer⟩ := exists_longer short
    obtain ⟨scale, mantissa⟩ := roundTo_of_longer longer
    obtain ⟨half, even⟩ := two_dvd_pow_ten (Nat.succ_pos more)
    have positive : 0 < 10 ^ (more + 1) := Nat.pow_pos (by decide)
    have halved : 10 ^ (more + 1) / 2 = half := by omega
    have place : (0 : ℚ) < 10 ^ places := by positivity
    have units : (d.roundTo places).mantissa ≤ k ↔ d.mantissa + half < (k + 1) * (2 * half) := by
      rw [mantissa, halved, ← Nat.lt_succ_iff, Nat.div_lt_iff_lt_mul positive, even]
    have halves : (d.mantissa : ℚ) * (2 * 10 ^ places) <
          ((2 * k + 1 : ℕ) : ℚ) * (10 ^ places * 10 ^ (more + 1)) ↔
        2 * d.mantissa < (2 * k + 1) * 10 ^ (more + 1) := by
      rw [show (d.mantissa : ℚ) * (2 * 10 ^ places) = 10 ^ places * (2 * d.mantissa) by ring,
        show ((2 * k + 1 : ℕ) : ℚ) * (10 ^ places * 10 ^ (more + 1)) =
          10 ^ places * ((2 * k + 1 : ℕ) * 10 ^ (more + 1)) by ring, mul_lt_mul_iff_right₀ place]
      exact_mod_cast Iff.rfl
    rw [scale, div_le_div_iff_of_pos_right place, Nat.cast_le, units, longer, pow_add,
      div_lt_div_iff₀ (by positivity) (by positivity), halves, even,
      show (k + 1) * (2 * half) = 2 * (k * half) + 2 * half by ring,
      show (2 * k + 1) * (2 * half) = 4 * (k * half) + 2 * half by ring]
    omega

/-- Exactly the numbers below half a unit of the last place become zero. -/
theorem isZero_roundTo_iff {places : Nat} {d : Decimal} :
    (d.roundTo places).isZero = true ↔ |d.toRat| < 1 / (2 * 10 ^ places) := by
  have units := abs_roundTo_le_iff places 0 d
  rw [Nat.cast_zero, zero_div, zero_add, abs_nonpos_iff] at units
  rw [← units]
  exact ⟨toRat_of_isZero, isZero_of_toRat_eq_zero⟩

end Decimal

namespace Value

open Decimal (abs_roundTo_sub_le isZero_roundTo_iff scale_roundTo_le toRat_normalize)

/-- What is shown is within half a millionth of the number. -/
theorem exists_rounded (d : Decimal) : ∃ r : Decimal, (number d).rounded 6 = number r ∧
    |r.toRat - d.toRat| ≤ 1 / (2 * 10 ^ 6) := by
  rw [rounded]
  split
  · next small =>
    rw [isNegligible_iff] at small
    refine ⟨.zero, rfl, ?_⟩
    rw [Decimal.toRat_of_isZero rfl, zero_sub, abs_neg]
    exact small.trans (by norm_num)
  · refine ⟨(d.roundTo 6).normalize, rfl, ?_⟩
    rw [toRat_normalize]
    exact abs_roundTo_sub_le 6 d

/-- A number with six places at most is zero, or well away from it. -/
theorem isNegligible_iff_isZero {d : Decimal} (short : d.scale ≤ 6) :
    d.isNegligible = true ↔ d.isZero = true := by
  constructor
  · intro small
    have stays : d.roundTo 6 = d := Decimal.roundTo_of_le short
    rw [← stays, isZero_roundTo_iff]
    exact ((isNegligible_iff d).1 small).trans_lt (by norm_num)
  · intro zero
    rw [isNegligible_iff, Decimal.toRat_of_isZero zero, abs_zero]
    positivity

/-- Shown with six places, exactly the numbers below half a millionth count as zero. -/
theorem isZero_rounded_iff (d : Decimal) :
    ((number d).rounded 6).isZero = true ↔ |d.toRat| < 1 / (2 * 10 ^ 6) := by
  rw [rounded]
  split
  · next small =>
    rw [isNegligible_iff] at small
    exact iff_of_true rfl (small.trans_lt (by norm_num))
  · have short : (d.roundTo 6).normalize.scale ≤ 6 :=
      (Decimal.trimZeros_snd_le _ _).trans (scale_roundTo_le 6 d)
    have same : (d.roundTo 6).normalize.isZero = (d.roundTo 6).isZero :=
      Decimal.isZero_congr (toRat_normalize _)
    rw [isZero, isNegligible_iff_isZero short, same, isZero_roundTo_iff]

end Value

end Reckon
