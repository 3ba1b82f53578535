import Mathlib.Algebra.Order.Field.Rat
import Mathlib.Tactic.FieldSimp
import Mathlib.Tactic.Positivity
import Mathlib.Tactic.Ring
import Reckon.Proofs.Decimal.ByValue

/-!
# Exact operations

An operation is exact if its result, when there is room for one, is that of rational arithmetic.
Signs are always exact, and so is taking one from an integer. A product that is a decimal is found.
-/

namespace Reckon.Decimal

/-! ## Operations that do not round -/

/-- The sum is not rounded. -/
def AddsExactly (x y : Decimal) : Prop :=
  ∀ z ∈ x.add? y, z.toRat = x.toRat + y.toRat

/-- The difference is not rounded. -/
def SubtractsExactly (x y : Decimal) : Prop :=
  ∀ z ∈ x.sub? y, z.toRat = x.toRat - y.toRat

/-- The product is not rounded. -/
def MultipliesExactly (x y : Decimal) : Prop :=
  ∀ z ∈ x.mul? y, z.toRat = x.toRat * y.toRat

/-- The quotient is not rounded. -/
def DividesExactly (x y : Decimal) : Prop :=
  ∀ z ∈ x.div? y, z.toRat = x.toRat / y.toRat

instance (x y : Decimal) : Decidable (x.AddsExactly y) :=
  inferInstanceAs (Decidable (∀ z ∈ x.add? y, z.toRat = x.toRat + y.toRat))

instance (x y : Decimal) : Decidable (x.SubtractsExactly y) :=
  inferInstanceAs (Decidable (∀ z ∈ x.sub? y, z.toRat = x.toRat - y.toRat))

instance (x y : Decimal) : Decidable (x.MultipliesExactly y) :=
  inferInstanceAs (Decidable (∀ z ∈ x.mul? y, z.toRat = x.toRat * y.toRat))

instance (x y : Decimal) : Decidable (x.DividesExactly y) :=
  inferInstanceAs (Decidable (∀ z ∈ x.div? y, z.toRat = x.toRat / y.toRat))

/-! ## Signs and constants -/

/-- The decimal zero is the rational zero. -/
@[simp] theorem toRat_zero : zero.toRat = 0 := by decide

/-- The decimal one is the rational one. -/
@[simp] theorem toRat_one : one.toRat = 1 := by decide

/-- The decimal two is the rational two. -/
@[simp] theorem toRat_two : two.toRat = 2 := by decide

/-- The decimal minus one is the rational minus one. -/
@[simp] theorem toRat_negOne : negOne.toRat = -1 := by decide

/-- The rational of a decimal is its signed mantissa over the power of ten that its scale says. -/
theorem toRat_eq_div (d : Decimal) : d.toRat = d.signed / 10 ^ d.scale := by
  rw [toRat, Rat.mkRat_eq_div]
  push_cast
  rfl

/-- The negated decimal has the negated rational. -/
theorem toRat_neg (d : Decimal) : d.neg.toRat = -d.toRat := by
  rw [toRat, toRat, signed_neg, Rat.neg_mkRat]
  rfl

/-! ## Zeros -/

/-- A decimal with the rational zero is tested to be zero. -/
theorem isZero_of_toRat_eq_zero {d : Decimal} (zero : d.toRat = 0) : d.isZero = true :=
  isZero_congr (zero.trans toRat_zero.symm)

/-- With zero on one side, a sum is the other side. -/
theorem addsExactly_of_zero {x y : Decimal} (zero : x.toRat = 0 ∨ y.toRat = 0) :
    x.AddsExactly y := by
  intro z sum
  rw [Option.mem_def, add?] at sum
  split at sum
  · next first =>
    rw [← Option.some.inj sum, toRat_of_isZero first, zero_add]
  · next first =>
    have second := zero.resolve_left fun zero => first (isZero_of_toRat_eq_zero zero)
    rw [if_pos (isZero_of_toRat_eq_zero second)] at sum
    rw [← Option.some.inj sum, second, add_zero]

/-- With zero on one side, a difference is the other side with its sign. -/
theorem subtractsExactly_of_zero {x y : Decimal} (zero : x.toRat = 0 ∨ y.toRat = 0) :
    x.SubtractsExactly y := by
  intro z difference
  rw [Option.mem_def, sub?] at difference
  split at difference
  · next second =>
    rw [← Option.some.inj difference, toRat_of_isZero second, sub_zero]
    split
    · next first => rw [toRat_of_isZero first, toRat_of_isZero second]
    · rfl
  · next second =>
    have first := zero.resolve_right fun zero => second (isZero_of_toRat_eq_zero zero)
    rw [addsExactly_of_zero (.inl first) z difference, toRat_neg, sub_eq_add_neg]

/-! ## Products that have room -/

/-- Without its sign, a product of numbers is the quotient of the product of mantissas. -/
theorem mantissa_of_toRat_eq_mul {x y r : Decimal} (h : r.toRat = x.toRat * y.toRat) :
    x.mantissa * y.mantissa * 10 ^ r.scale = r.mantissa * 10 ^ (x.scale + y.scale) := by
  have unit (d : Decimal) : (10 : ℚ) ^ d.scale ≠ 0 := pow_ne_zero _ (by norm_num)
  have hx := unit x
  have hy := unit y
  have hr := unit r
  rw [toRat_eq_div, toRat_eq_div x, toRat_eq_div y, div_mul_div_comm,
    div_eq_div_iff hr (mul_ne_zero hx hy), ← pow_add] at h
  have signed : r.signed * 10 ^ (x.scale + y.scale) = x.signed * y.signed * 10 ^ r.scale := by
    exact_mod_cast h
  have magnitude := congrArg Int.natAbs signed
  rw [Int.natAbs_mul, Int.natAbs_mul, Int.natAbs_mul, signed_natAbs, signed_natAbs, signed_natAbs,
    Int.natAbs_pow, Int.natAbs_pow] at magnitude
  exact magnitude.symm

/-- The number of a product that is put together from its sign and its parts. -/
theorem toRat_of_ofParts?_mul {x y d : Decimal} {mantissa scale : Nat}
    (whole : x.mantissa * y.mantissa * 10 ^ scale = mantissa * 10 ^ (x.scale + y.scale))
    (h : ofParts? (x.negative != y.negative) mantissa scale = some d) :
    d.toRat = x.toRat * y.toRat := by
  have unit (n : Nat) : (10 : ℚ) ^ n ≠ 0 := pow_ne_zero _ (by norm_num)
  have cast : (x.mantissa : ℚ) * y.mantissa * 10 ^ scale =
      mantissa * (10 ^ x.scale * 10 ^ y.scale) := by
    rw [← pow_add]
    exact_mod_cast whole
  have hx := unit x.scale
  have hy := unit y.scale
  have hs := unit scale
  rw [toRat_of_ofParts? h, toRat_eq_div x, toRat_eq_div y, Rat.mkRat_eq_div, div_mul_div_comm,
    signed, signed]
  push_cast
  rw [div_eq_div_iff hs (mul_ne_zero hx hy)]
  cases x.negative <;> cases y.negative <;> simp [cast]

/-- A product for which there is a decimal is that decimal. -/
theorem exists_mul?_of_toRat_eq {x y r : Decimal} (h : r.toRat = x.toRat * y.toRat) :
    ∃ z, x.mul? y = some z ∧ z.toRat = r.toRat := by
  have whole := mantissa_of_toRat_eq_mul h
  have fits : ∃ d : Decimal, (x.mul? y).map toRat = some d.toRat ∧ d.toRat = r.toRat := by
    rw [toRat_mul?]
    by_cases long : r.scale ≤ min (x.scale + y.scale) 28
    · -- The search passes the scale of the decimal, and nothing is rounded on the way there.
      have digits : 10 ^ (x.scale + y.scale) ∣ x.mantissa * y.mantissa * 10 ^ r.scale :=
        ⟨r.mantissa, whole.trans (Nat.mul_comm _ _)⟩
      obtain ⟨d, parts⟩ : ∃ d, ofParts? (x.negative != y.negative) r.mantissa r.scale = some d := by
        rw [ofParts?, dif_pos ⟨r.mantissa_lt, r.scale_le⟩]
        exact ⟨_, rfl⟩
      refine ⟨d, ?_, (toRat_of_ofParts?_mul whole parts).trans h.symm⟩
      rw [toRat_fit?_of_le (pow_ten_pos _) digits long (Nat.min_le_right _ _),
        fit?_of_eq_mul (pow_ten_pos _) whole r.mantissa_lt r.scale_le, parts, Option.map_some]
    · -- The product of the mantissas has room at the scale of the product.
      have short : x.scale + y.scale < r.scale := by
        have most := r.scale_le
        omega
      have small : x.mantissa * y.mantissa < 2 ^ 96 := by
        refine Nat.lt_of_le_of_lt ?_ r.mantissa_lt
        refine Nat.le_of_mul_le_mul_right ?_ (pow_ten_pos (x.scale + y.scale))
        rw [← whole]
        exact Nat.mul_le_mul_left _ (Nat.pow_le_pow_right (by decide) (Nat.le_of_lt short))
      have bound : x.scale + y.scale ≤ 28 := Nat.le_trans (Nat.le_of_lt short) r.scale_le
      obtain ⟨d, parts⟩ : ∃ d, ofParts? (x.negative != y.negative) (x.mantissa * y.mantissa)
          (x.scale + y.scale) = some d := by
        rw [ofParts?, dif_pos ⟨small, bound⟩]
        exact ⟨_, rfl⟩
      refine ⟨d, ?_, (toRat_of_ofParts?_mul rfl parts).trans h.symm⟩
      rw [Nat.min_eq_left bound, fit?_of_eq_mul (pow_ten_pos _) rfl small bound, parts,
        Option.map_some]
  obtain ⟨d, product, same⟩ := fits
  obtain ⟨z, found, equal⟩ := Option.map_eq_some_iff.1 product
  exact ⟨z, found, equal.trans same⟩

/-! ## Integers -/

/-- Two integers over a power of ten have an integer as their sum. -/
theorem dvd_natAbs_add {unit : Nat} {x y : Int} (hx : (unit : Int) ∣ x) (hy : (unit : Int) ∣ y) :
    unit ∣ (x + y).natAbs :=
  Int.natCast_dvd.1 (Int.dvd_add hx hy)

/-- A fitted quotient that is an integer is not rounded. -/
theorem toRat_fit?_of_dvd {sum : Int} {scale : Nat} (bound : scale ≤ 28)
    (whole : 10 ^ scale ∣ sum.natAbs) {z : Decimal}
    (fits : fit? (sum < 0) sum.natAbs (10 ^ scale) scale = some z) :
    z.toRat = mkRat sum (10 ^ scale) := by
  have integral : 10 ^ scale ∣ sum.natAbs * 10 ^ 0 := by rwa [Nat.pow_zero, Nat.mul_one]
  have low : (fit? (sum < 0) sum.natAbs (10 ^ scale) scale).map toRat =
      (fit? (sum < 0) sum.natAbs (10 ^ scale) 0).map toRat :=
    toRat_fit?_of_le (pow_ten_pos scale) integral (Nat.zero_le scale) bound
  rw [fits] at low
  obtain ⟨quotient, multiple⟩ := whole
  have rounded : roundHalfEven sum.natAbs (10 ^ scale) = quotient := by
    rw [multiple, Nat.mul_comm, roundHalfEven_mul_right _ (pow_ten_pos scale)]
  rw [fit?, rounded] at low
  cases parts : ofParts? (decide (sum < 0)) quotient 0 with
  | none =>
    rw [parts] at low
    cases low
  | some d =>
    rw [parts] at low
    have same : z.toRat = d.toRat := Option.some.inj low
    rw [same, toRat_of_ofParts? parts, Rat.mkRat_eq_iff (by decide) (pow_ten_ne_zero scale)]
    have magnitude : (sum.natAbs : Int) = 10 ^ scale * quotient := by exact_mod_cast multiple
    by_cases negative : sum < 0
    · rw [decide_eq_true negative, if_pos rfl]
      push_cast
      rw [show sum = -(sum.natAbs : Int) by omega, magnitude]
      ring
    · rw [decide_eq_false negative, if_neg Bool.false_ne_true]
      push_cast
      rw [show sum = (sum.natAbs : Int) by omega, magnitude]
      ring

/-- The signed mantissa of an integer is a multiple of its unit. -/
theorem dvd_signed_of_isInteger {d : Decimal} (integer : d.isInteger = true) :
    ((10 ^ d.scale : Nat) : Int) ∣ d.signed := by
  rw [Int.natCast_dvd, signed_natAbs]
  exact Nat.dvd_of_mod_eq_zero (beq_iff_eq.1 integer)

/-- One less than an integer is not rounded. -/
theorem subtractsExactly_one {n : Decimal} (integer : n.isInteger = true) :
    n.SubtractsExactly one := by
  intro z difference
  rw [Option.mem_def, sub?, if_neg (by decide), add?] at difference
  cases zero : n.isZero with
  | true =>
    rw [zero, if_pos rfl] at difference
    rw [← Option.some.inj difference, toRat_of_isZero zero, toRat_neg, zero_sub]
  | false =>
    rw [zero, if_neg Bool.false_ne_true, if_neg (by decide)] at difference
    have most : max n.scale one.neg.scale = n.scale := Nat.max_eq_left (Nat.zero_le _)
    have whole : 10 ^ n.scale ∣ (n.alignedTo n.scale + one.neg.alignedTo n.scale).natAbs := by
      refine dvd_natAbs_add ?_ ?_
      · rw [alignedTo, Nat.sub_self, Int.pow_zero, Int.mul_one]
        exact dvd_signed_of_isInteger integer
      · rw [alignedTo, show one.neg.scale = 0 from rfl, Nat.sub_zero]
        push_cast
        exact Int.dvd_mul_left _ _
    rw [most] at difference
    rw [toRat_fit?_of_dvd n.scale_le whole difference, toRat_one, toRat, alignedTo, alignedTo,
      Nat.sub_self, show one.neg.scale = 0 from rfl, show one.neg.signed = -1 from rfl,
      Nat.sub_zero, Rat.mkRat_eq_div, Rat.mkRat_eq_div]
    have unit : (10 : ℚ) ^ n.scale ≠ 0 := by positivity
    push_cast
    field_simp
    ring

end Reckon.Decimal
