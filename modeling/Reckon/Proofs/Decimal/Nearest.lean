import Mathlib.Algebra.Order.Field.Rat
import Mathlib.Tactic.FieldSimp
import Mathlib.Tactic.Linarith
import Mathlib.Tactic.Positivity
import Mathlib.Tactic.Ring
import Reckon.Proofs.Decimal.Exact

/-!
# Results that are rounded once

What it is for a decimal to be a rational rounded once is said here without the search that finds
it: the integer nearest to the rational, counted in the smallest unit in which that integer still is
a mantissa. A fitted quotient is of this kind, and so is the quotient of two decimals.
-/

namespace Reckon.Decimal

/-- The integer is nearest to the rational. Of two that are equally near it is the even one. -/
structure IsNearest (q : ℚ) (k : ℤ) : Prop where
  near : |q - k| ≤ 1 / 2
  even : |q - k| = 1 / 2 → Even k

/-- The decimal is the rational rounded once, at the greatest scale up to 28 at which the nearest
integer has room. -/
def IsRoundingOf (q : ℚ) (d : Decimal) : Prop :=
  ∃ scale ≤ 28, ∃ k : ℤ, IsNearest (q * 10 ^ scale) k ∧ |k| < 2 ^ 96 ∧ d.toRat = k / 10 ^ scale ∧
    ∀ finer, scale < finer → finer ≤ 28 → ∀ k', IsNearest (q * 10 ^ finer) k' → 2 ^ 96 ≤ |k'|

/-! ## The nearest integer -/

/-- The nearest integer of the negated number is the negated one. -/
theorem IsNearest.neg {q : ℚ} {k : ℤ} (h : IsNearest q k) : IsNearest (-q) (-k) := by
  have same : |-q - (-k : ℤ)| = |q - k| := by
    push_cast
    rw [neg_sub_neg, abs_sub_comm]
  exact ⟨same ▸ h.near, fun tie => (h.even (same ▸ tie)).neg⟩

/-- Only one integer is nearest. -/
theorem IsNearest.unique {q : ℚ} {k k' : ℤ} (h : IsNearest q k) (h' : IsNearest q k') :
    k = k' := by
  obtain ⟨low, high⟩ := abs_le.1 h.near
  obtain ⟨low', high'⟩ := abs_le.1 h'.near
  have above : (k : ℚ) ≤ (k' + 1 : ℤ) := by
    push_cast
    linarith
  have below : (k' : ℚ) ≤ (k + 1 : ℤ) := by
    push_cast
    linarith
  rw [Int.cast_le] at above below
  by_contra different
  -- Two nearest integers are neighbours, the rational lies half way, and both would be even.
  have tie : |q - k| = 1 / 2 ∧ |q - k'| = 1 / 2 := by
    rcases (show k = k' + 1 ∨ k' = k + 1 by omega) with rfl | rfl
    · push_cast at low high ⊢
      have middle : q = k' + 1 / 2 := by linarith
      subst middle
      constructor <;> norm_num
    · push_cast at low' high' ⊢
      have middle : q = k + 1 / 2 := by linarith
      subst middle
      constructor <;> norm_num
  obtain ⟨half, rfl⟩ := h.even tie.1
  obtain ⟨half', rfl⟩ := h'.even tie.2
  omega

/-- Half-even rounding of a quotient gives the nearest integer. -/
theorem isNearest_roundHalfEven (num : Nat) {den : Nat} (positive : 0 < den) :
    IsNearest (num / den) (roundHalfEven num den) := by
  have unit : (0 : ℚ) < den := by exact_mod_cast positive
  obtain ⟨low, high⟩ := @roundHalfEven_near num den positive
  have low' : 2 * (num : ℚ) ≤ 2 * (roundHalfEven num den * den) + den := by exact_mod_cast low
  have high' : 2 * ((roundHalfEven num den : ℚ) * den) ≤ 2 * num + den := by exact_mod_cast high
  have distance : (num : ℚ) / den - (roundHalfEven num den : ℤ) =
      (num - roundHalfEven num den * den) / den := by
    push_cast
    field_simp
  refine ⟨?_, fun tie => ?_⟩
  · rw [distance, abs_div, abs_of_pos unit, div_le_iff₀ unit, abs_le]
    constructor <;> linarith
  · rw [distance, abs_div, abs_of_pos unit, div_eq_iff unit.ne'] at tie
    have parity : roundHalfEven num den % 2 = 0 := by
      have whole := Nat.div_add_mod num den
      have rest := Nat.mod_lt num positive
      have ties : 2 * num = 2 * (roundHalfEven num den * den) + den ∨
          2 * (roundHalfEven num den * den) = 2 * num + den := by
        rcases abs_choice ((num : ℚ) - roundHalfEven num den * den) with sign | sign <;>
          rw [sign] at tie
        · left
          have : (2 : ℚ) * num = 2 * (roundHalfEven num den * den) + den := by linarith
          exact_mod_cast this
        · right
          have : (2 : ℚ) * (roundHalfEven num den * den) = 2 * num + den := by linarith
          exact_mod_cast this
      rw [Nat.mul_comm] at whole
      simp only [roundHalfEven] at ties ⊢
      split at ties <;> rename_i choice
      · rw [if_pos choice]
        omega
      · rw [if_neg choice]
        rw [Nat.add_mul, Nat.one_mul] at ties
        omega
    exact (Int.even_coe_nat _).2 (Nat.even_iff.2 parity)

/-! ## Fitted quotients -/

/-- What the search for a scale finds. -/
theorem exists_scale_of_fit? {negative : Bool} {num den start : Nat} {d : Decimal}
    (fits : fit? negative num den start = some d) :
    ∃ scale ≤ start, ofParts? negative (roundHalfEven (num * 10 ^ scale) den) scale = some d ∧
      ∀ finer, scale < finer → finer ≤ start →
        ofParts? negative (roundHalfEven (num * 10 ^ finer) den) finer = none := by
  induction start with
  | zero =>
    refine ⟨0, Nat.le_refl 0, ?_, fun finer below above => absurd below (by omega)⟩
    rwa [Nat.pow_zero, Nat.mul_one]
  | succ start ih =>
    rw [fit?] at fits
    split at fits
    · next room =>
      cases fits
      exact ⟨start + 1, Nat.le_refl _, room, fun finer below above => absurd below (by omega)⟩
    · next full =>
      obtain ⟨scale, within, parts, others⟩ := ih fits
      refine ⟨scale, Nat.le_succ_of_le within, parts, fun finer below above => ?_⟩
      rcases Nat.lt_or_eq_of_le above with less | rfl
      · exact others finer below (Nat.le_of_lt_succ less)
      · exact full

/-- A quotient has a fitted decimal from any start if its nearest integer has room. -/
theorem exists_fit? (negative : Bool) {num den : Nat} (room : roundHalfEven num den < 2 ^ 96)
    (start : Nat) : ∃ d, fit? negative num den start = some d := by
  induction start with
  | zero =>
    rw [fit?, ofParts?, dif_pos ⟨room, by decide⟩]
    exact ⟨_, rfl⟩
  | succ start ih =>
    rw [fit?]
    split
    · next d found => exact ⟨d, rfl⟩
    · exact ih

/-- A rational with its sign taken from a flag. -/
def signedRat (negative : Bool) (q : ℚ) : ℚ :=
  if negative then -q else q

/-- A quotient that is fitted from scale 28 on is rounded once. -/
theorem isRoundingOf_of_fit? {negative : Bool} {num den : Nat} {d : Decimal} (positive : 0 < den)
    (fits : fit? negative num den 28 = some d) : IsRoundingOf (signedRat negative (num / den)) d := by
  obtain ⟨scale, within, parts, others⟩ := exists_scale_of_fit? fits
  have nearest (scale : Nat) : IsNearest (signedRat negative (num / den) * 10 ^ scale)
      (if negative then -(roundHalfEven (num * 10 ^ scale) den : ℤ)
        else roundHalfEven (num * 10 ^ scale) den) := by
    have magnitude := isNearest_roundHalfEven (num * 10 ^ scale) positive
    push_cast at magnitude
    rw [← div_mul_eq_mul_div] at magnitude
    cases negative with
    | true =>
      rw [signedRat, if_pos rfl, if_pos rfl, neg_mul]
      exact magnitude.neg
    | false =>
      rw [signedRat, if_neg Bool.false_ne_true, if_neg Bool.false_ne_true]
      exact magnitude
  have magnitude (k : Nat) : |if negative then -(k : ℤ) else k| = k := by
    split
    · rw [abs_neg, Nat.abs_cast]
    · rw [Nat.abs_cast]
  have room : roundHalfEven (num * 10 ^ scale) den < 2 ^ 96 := by
    by_contra full
    rw [ofParts?, dif_neg fun inRange => full inRange.1] at parts
    cases parts
  refine ⟨scale, within, _, nearest scale, ?_, ?_, fun finer below above k' nearest' => ?_⟩
  · rw [magnitude]
    exact_mod_cast room
  · rw [toRat_of_ofParts? parts, Rat.mkRat_eq_div]
    push_cast
    rfl
  · rw [nearest'.unique (nearest finer), magnitude]
    by_contra small
    have small : roundHalfEven (num * 10 ^ finer) den < 2 ^ 96 := by exact_mod_cast not_le.1 small
    have full := others finer below above
    rw [ofParts?, dif_pos ⟨small, above⟩] at full
    cases full

/-! ## Quotients of decimals -/

/-- A decimal by its sign and its magnitude. -/
theorem toRat_eq_signedRat (d : Decimal) :
    d.toRat = signedRat d.negative (d.mantissa / 10 ^ d.scale) := by
  rw [toRat_eq_div, signed, signedRat]
  split
  · push_cast
    rw [neg_div]
  · push_cast
    rfl

/-- The quotient of two decimals is rounded once. -/
theorem isRoundingOf_div? {a b d : Decimal} (dividend : a.isZero = false)
    (divisor : b.isZero = false) (quotient : a.div? b = some d) :
    IsRoundingOf (a.toRat / b.toRat) d := by
  have positive : 0 < b.mantissa * 10 ^ a.scale :=
    Nat.mul_pos (Nat.pos_of_ne_zero (mantissa_ne_zero divisor)) (pow_ten_pos _)
  have fitted := toRat_div? dividend divisor
  have all : (fit? (a.negative != b.negative) (a.mantissa * 10 ^ b.scale)
      (b.mantissa * 10 ^ a.scale) 28).map toRat = some d.toRat := by
    rw [quotient, Option.map_some] at fitted
    rw [fitted]
    rcases dvd_quotientPlaces a b with full | whole
    · rw [full]
    · exact toRat_fit?_of_le positive whole (quotientPlaces_le a b) (Nat.le_refl 28)
  obtain ⟨r, fits, same⟩ := Option.map_eq_some_iff.1 all
  have exact' : a.toRat / b.toRat = signedRat (a.negative != b.negative)
      ((a.mantissa * 10 ^ b.scale : ℕ) / (b.mantissa * 10 ^ a.scale : ℕ)) := by
    have nonzero : (b.mantissa : ℚ) ≠ 0 := by exact_mod_cast mantissa_ne_zero divisor
    have cross : (a.mantissa : ℚ) / 10 ^ a.scale / (b.mantissa / 10 ^ b.scale) =
        a.mantissa * 10 ^ b.scale / (b.mantissa * 10 ^ a.scale) := by
      field_simp
    rw [toRat_eq_signedRat a, toRat_eq_signedRat b]
    push_cast
    rw [← cross]
    cases a.negative <;> cases b.negative <;> simp [signedRat, neg_div, div_neg]
  rw [exact']
  obtain ⟨scale, within, k, nearest, room, value, others⟩ := isRoundingOf_of_fit? positive fits
  exact ⟨scale, within, k, nearest, room, same.symm.trans value, others⟩

/-- A quotient of at most one in magnitude has room. -/
theorem exists_div?_of_abs_le {a b : Decimal} (dividend : a.isZero = false)
    (divisor : b.isZero = false) (small : a.mantissa * 10 ^ b.scale ≤ b.mantissa * 10 ^ a.scale) :
    ∃ d, a.div? b = some d := by
  have positive : 0 < b.mantissa * 10 ^ a.scale :=
    Nat.mul_pos (Nat.pos_of_ne_zero (mantissa_ne_zero divisor)) (pow_ten_pos _)
  have room : roundHalfEven (a.mantissa * 10 ^ b.scale) (b.mantissa * 10 ^ a.scale) < 2 ^ 96 := by
    have above := (roundHalfEven_bounds (a.mantissa * 10 ^ b.scale) (b.mantissa * 10 ^ a.scale)).2
    have one : a.mantissa * 10 ^ b.scale / (b.mantissa * 10 ^ a.scale) ≤ 1 :=
      Nat.div_le_of_le_mul (by rwa [Nat.mul_one])
    omega
  obtain ⟨r, fits⟩ := exists_fit? (a.negative != b.negative) room (a.quotientPlaces b)
  have fitted := toRat_div? dividend divisor
  rw [fits, Option.map_some] at fitted
  obtain ⟨d, found, -⟩ := Option.map_eq_some_iff.1 fitted
  exact ⟨d, found⟩

end Reckon.Decimal
