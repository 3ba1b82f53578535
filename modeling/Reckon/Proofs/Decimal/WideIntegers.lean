import Reckon.Decimal.Power
import Reckon.Proofs.Decimal.Integers

/-!
# Wide integers

A wide number that stands for an integer stands for it exactly after every product, however often its
mantissa has to give up places: only zeros can be given up, or the mantissa has no room at all. The
integers 1 and -1 always have room, for they are a power of ten over itself.
-/

namespace Reckon.Decimal.Wide

/-- The wide number is the integer. Its digits behind the point are all zero. -/
structure StandsFor (w : Wide) (n : ℤ) : Prop where
  mantissa : w.mantissa = n.natAbs * 10 ^ w.scale
  sign : n ≠ 0 → w.negative = decide (n < 0)

/-- Some of the zeros behind the point, taken off. -/
theorem mul_pow_ten_eq (k : Nat) {step scale : Nat} (within : step ≤ scale) :
    k * 10 ^ scale = k * 10 ^ (scale - step) * 10 ^ step := by
  rw [Nat.mul_assoc, Nat.pow_sub_mul_pow 10 within]

/-- Lowering the scale of an integer drops zeros. -/
theorem fst_lowerScale (k scale : Nat) :
    (lowerScale (k * 10 ^ scale) scale).1 = k * 10 ^ (lowerScale (k * 10 ^ scale) scale).2 := by
  induction scale using Nat.strongRecOn with
  | _ scale ih =>
    rw [lowerScale]
    split
    · next long =>
      have shorter : roundHalfEven (k * 10 ^ scale) (10 ^ min 9 (scale - 57)) =
          k * 10 ^ (scale - min 9 (scale - 57)) := by
        rw [mul_pow_ten_eq k (show min 9 (scale - 57) ≤ scale by omega),
          roundHalfEven_mul_right _ (pow_ten_pos _)]
      dsimp only
      rw [shorter]
      exact ih _ (by omega)
    · rfl

/-- Dropping digits of an integer drops zeros. -/
theorem mantissa_of_dropDigits {bound k scale digits : Nat} {r : Reduced}
    (done : dropDigits bound (k * 10 ^ scale) scale digits 0 = some r) :
    r.mantissa = k * 10 ^ r.scale ∧ r.dropped = 0 := by
  induction scale using Nat.strongRecOn generalizing digits with
  | _ scale ih =>
    rw [dropDigits] at done
    split at done
    · cases done
      exact ⟨rfl, rfl⟩
    · split at done
      · cases done
      · have split := mul_pow_ten_eq k (show min digits 9 ≤ scale by omega)
        have shorter : k * 10 ^ scale / 10 ^ min digits 9 = k * 10 ^ (scale - min digits 9) := by
          rw [split, Nat.mul_div_cancel _ (pow_ten_pos _)]
        have zeros : k * 10 ^ scale % 10 ^ min digits 9 = 0 := by
          rw [split, Nat.mul_mod_left]
        dsimp only at done
        rw [shorter, zeros] at done
        exact ih _ (by omega) done

/-- Reducing an integer keeps it. -/
theorem StandsFor.reduce {bits limit : Nat} {w r : Wide} {n : ℤ} (h : w.StandsFor n)
    (reduced : w.reduce bits limit = some r) : r.StandsFor n := by
  rw [Wide.reduce, h.mantissa] at reduced
  dsimp only at reduced
  split at reduced
  · cases reduced
  · next shorter dropped =>
    obtain ⟨mantissa, none⟩ := mantissa_of_dropDigits dropped
    have exact' : ¬(0 < shorter.dropped ∧ (shorter.mantissa % 2 = 1 ∨ 1 < shorter.dropped)) :=
      fun up => absurd up.1 (by omega)
    rw [if_neg exact'] at reduced
    split at reduced
    · cases reduced
      exact ⟨mantissa, h.sign⟩
    · split at reduced
      · cases reduced
      · next some' =>
        cases reduced
        refine ⟨?_, h.sign⟩
        dsimp only
        rw [mantissa, mul_pow_ten_eq _ (show 1 ≤ shorter.scale by omega), pow_one,
          Nat.mul_div_cancel _ (by decide)]

/-- A product of wide integers is exact. -/
theorem StandsFor.mul? {a b c : Wide} {x y : ℤ} (ha : a.StandsFor x) (hb : b.StandsFor y)
    (product : a.mul? b = some c) : c.StandsFor (x * y) := by
  rw [Wide.mul?] at product
  split at product
  · next zero =>
    cases product
    have none : x * y = 0 := by
      have unit (s : Nat) : (10 : Nat) ^ s ≠ 0 := pow_ten_ne_zero s
      rw [ha.mantissa, hb.mantissa] at zero
      rcases zero with zero | zero
      · rw [Int.natAbs_eq_zero.1 ((Nat.mul_eq_zero.1 zero).resolve_right (unit _)), zero_mul]
      · rw [Int.natAbs_eq_zero.1 ((Nat.mul_eq_zero.1 zero).resolve_right (unit _)), mul_zero]
    rw [none]
    exact ⟨rfl, fun nonzero => absurd rfl nonzero⟩
  · have whole : a.mantissa * b.mantissa = (x * y).natAbs * 10 ^ (a.scale + b.scale) := by
      rw [ha.mantissa, hb.mantissa, Int.natAbs_mul, pow_add]
      ac_rfl
    have sign : x * y ≠ 0 → (a.negative != b.negative) = decide (x * y < 0) := by
      intro nonzero
      obtain ⟨left, right⟩ := mul_ne_zero_iff.1 nonzero
      rw [ha.sign left, hb.sign right]
      rcases lt_or_gt_of_ne left with hx | hx <;> rcases lt_or_gt_of_ne right with hy | hy
      · simp [hx, hy, (mul_pos_of_neg_of_neg hx hy).not_gt]
      · simp [hx, hy.not_gt, mul_neg_of_neg_of_pos hx hy]
      · simp [hx.not_gt, hy, mul_neg_of_pos_of_neg hx hy]
      · simp [hx.not_gt, hy.not_gt, (mul_pos hx hy).not_gt]
    dsimp only at product
    split at product
    · cases product
      refine ⟨?_, sign⟩
      dsimp only
      rw [whole]
      exact fst_lowerScale _ _
    · exact StandsFor.reduce ⟨whole, sign⟩ product

/-- A decimal for a wide integer is that integer. -/
theorem StandsFor.toDecimal? {w : Wide} {n : ℤ} {d : Decimal} (h : w.StandsFor n)
    (fits : w.toDecimal? = some d) : d.toRat = n := by
  rw [Wide.toDecimal?] at fits
  split at fits
  · cases fits
  · next r reduced =>
    have kept := h.reduce reduced
    obtain ⟨own, parts, rfl⟩ := Option.map_eq_some_iff.1 fits
    have unit : (10 : ℚ) ^ r.scale ≠ 0 := by positivity
    rw [toRat_normalize, toRat_of_ofParts? parts, Rat.mkRat_eq_div]
    push_cast
    rw [div_eq_iff unit]
    have mantissa : (r.mantissa : ℤ) = n.natAbs * 10 ^ r.scale := by exact_mod_cast kept.mantissa
    have signs : (if r.negative = true then -(r.mantissa : ℤ) else r.mantissa) =
        n * 10 ^ r.scale := by
      by_cases zero : n = 0
      · rw [mantissa, zero]
        simp
      · rw [kept.sign zero, mantissa]
        by_cases negative : n < 0
        · rw [if_pos (decide_eq_true negative), show (n.natAbs : ℤ) = -n by omega, neg_mul,
            Int.neg_neg]
        · rw [if_neg (by simpa using negative), show (n.natAbs : ℤ) = n by omega]
    exact_mod_cast signs

/-- A decimal that is an integer, as a wide number. -/
theorem standsFor_of_toRat {base : Decimal} {b : ℤ} (value : base.toRat = b) :
    StandsFor ⟨base.negative, base.mantissa, base.scale⟩ b where
  mantissa := mantissa_of_toRat value
  sign nonzero := by
    have some' : base.isZero = false := by
      rw [Bool.eq_false_iff]
      intro zero
      rw [isZero_iff_toRat, value, Int.cast_eq_zero] at zero
      exact nonzero zero
    have unit : (0 : ℤ) < 10 ^ base.scale := by positivity
    change base.negative = decide (b < 0)
    rw [Bool.eq_iff_iff, negative_iff some', signed_of_toRat value, decide_eq_true_eq]
    exact ⟨fun h => neg_of_mul_neg_left h unit.le, fun h => mul_neg_of_neg_of_pos h unit⟩

/-! ## Powers of -1 -/

/-- There are enough zeros to drop behind the point of a unit. -/
theorem exists_dropDigits {bound : Nat} (room : 1 < bound) (scale digits dropped : Nat)
    (within : digits ≤ scale) :
    ∃ r, dropDigits bound (10 ^ scale) scale digits dropped = some r ∧ r.scale + digits ≤ scale := by
  induction scale using Nat.strongRecOn generalizing digits dropped with
  | _ scale ih =>
    rw [dropDigits]
    by_cases done : digits = 0
    · rw [if_pos done]
      exact ⟨_, rfl, by rw [done, Nat.add_zero]⟩
    · have some' : min digits 9 ≤ scale := by omega
      have shorter : 10 ^ scale / 10 ^ min digits 9 = 10 ^ (scale - min digits 9) :=
        Nat.pow_div some' (by decide)
      rw [if_neg done, if_neg (Nat.not_lt.2 within)]
      dsimp only
      rw [shorter]
      split
      · next more =>
        -- The mantissa is above 1, so that one more digit is there.
        have longer : scale - min digits 9 ≠ 0 := by
          intro whole
          rw [whole, pow_zero] at more
          omega
        obtain ⟨r, found, length⟩ := ih (scale - min digits 9) (by omega) 1
          (10 ^ scale % 10 ^ min digits 9) (by omega)
        exact ⟨r, found, by omega⟩
      · obtain ⟨r, found, length⟩ := ih (scale - min digits 9) (by omega) (digits - min digits 9)
          (10 ^ scale % 10 ^ min digits 9) (by omega)
        exact ⟨r, found, by omega⟩

/-- No more digits of a unit are in excess than stand behind the point. -/
theorem excessDigits_le {bits scale : Nat} (wide : 96 ≤ bits) (short : scale ≤ 114) :
    excessDigits bits (10 ^ scale) ≤ scale := by
  rw [excessDigits]
  split
  · exact Nat.zero_le _
  · next large =>
    have some' : scale ≠ 0 := by
      rintro rfl
      exact large (Nat.one_lt_two_pow (by omega))
    have length : (10 ^ scale).log2 < 4 * scale + 1 := by
      rw [Nat.log2_lt (pow_ten_ne_zero scale), pow_succ, pow_mul]
      have digit : 10 ^ scale ≤ (2 ^ 4) ^ scale := Nat.pow_le_pow_left (by decide) scale
      have positive : 0 < (2 ^ 4) ^ scale := Nat.pow_pos (by decide)
      omega
    omega

/-- A unit can be reduced. -/
theorem exists_reduce (bits limit : Nat) {w : Wide} (unit : w.mantissa = 10 ^ w.scale)
    (wide : 96 ≤ bits) (short : w.scale ≤ 114) (room : 10 ^ limit < 2 ^ bits) :
    ∃ r, w.reduce bits limit = some r ∧ r.mantissa < 2 ^ bits ∧ r.scale ≤ limit := by
  have excess := excessDigits_le wide short
  rw [Wide.reduce, unit]
  dsimp only
  have room' : 1 < 2 ^ bits := Nat.one_lt_two_pow (by omega)
  obtain ⟨r, found, length⟩ := exists_dropDigits room' w.scale
    (if limit < w.scale - excessDigits bits (10 ^ w.scale) then w.scale - limit
      else excessDigits bits (10 ^ w.scale)) 0 (by split <;> omega)
  have within : r.scale ≤ limit := by
    split at length <;> omega
  have kept := mantissa_of_dropDigits (k := 1) (by rwa [Nat.one_mul])
  rw [Nat.one_mul] at kept
  have exact' : ¬(0 < r.dropped ∧ (r.mantissa % 2 = 1 ∨ 1 < r.dropped)) :=
    fun up => absurd up.1 (by omega)
  have small : r.mantissa < 2 ^ bits :=
    kept.1 ▸ (Nat.pow_le_pow_right (by decide) within).trans_lt room
  rw [found]
  dsimp only
  rw [if_neg exact', if_pos small]
  exact ⟨_, rfl, small, within⟩

/-- Units have a product. -/
theorem exists_mul? {a b : Wide} (ha : a.mantissa = 10 ^ a.scale) (hb : b.mantissa = 10 ^ b.scale)
    (short : a.scale ≤ 57) (short' : b.scale ≤ 57) : ∃ c, a.mul? b = some c ∧ c.scale ≤ 57 := by
  have nonzero : ¬(a.mantissa = 0 ∨ b.mantissa = 0) := by
    rw [ha, hb]
    exact not_or.2 ⟨pow_ten_ne_zero _, pow_ten_ne_zero _⟩
  have unit : a.mantissa * b.mantissa = 10 ^ (a.scale + b.scale) := by rw [ha, hb, pow_add]
  rw [Wide.mul?, if_neg nonzero]
  dsimp only
  split
  · next small =>
    have length : ¬57 < a.scale + b.scale := by
      intro long
      have large : 10 ^ 58 ≤ 10 ^ (a.scale + b.scale) := Nat.pow_le_pow_right (by decide) long
      rw [unit] at small
      exact absurd (large.trans_lt small) (by decide)
    refine ⟨_, rfl, ?_⟩
    rw [lowerScale, if_neg length]
    exact Nat.le_of_not_lt length
  · obtain ⟨c, product, -, within⟩ := exists_reduce 192 57 (w := ⟨_, _, _⟩) unit (by decide)
      (Nat.add_le_add short short') (by decide)
    exact ⟨c, product, within⟩

/-- An integer of magnitude 1 has a power of ten as its digits. -/
theorem StandsFor.mantissa_of_unit {w : Wide} {n : ℤ} (h : w.StandsFor n) (unit : |n| = 1) :
    w.mantissa = 10 ^ w.scale := by
  have magnitude : n.natAbs = 1 := by
    rw [Int.abs_eq_natAbs] at unit
    exact_mod_cast unit
  rw [h.mantissa, magnitude, Nat.one_mul]

/-- A unit is a decimal. -/
theorem exists_toDecimal? {w : Wide} (unit : w.mantissa = 10 ^ w.scale) (short : w.scale ≤ 57) :
    ∃ d, w.toDecimal? = some d := by
  obtain ⟨r, reduced, small, within⟩ := exists_reduce 96 28 unit (Nat.le_refl 96) (by omega)
    (by decide)
  rw [Wide.toDecimal?, reduced]
  dsimp only
  rw [ofParts?, dif_pos ⟨small, within⟩]
  exact ⟨_, rfl⟩

end Reckon.Decimal.Wide
