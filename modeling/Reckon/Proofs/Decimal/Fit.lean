import Reckon.Decimal.Fit
import Reckon.Proofs.Decimal.Value

/-!
# What a fitted quotient depends on

A quotient that is fitted into a decimal depends on the ratio of its terms only. Starting the search
for a scale further up changes the scale of the result but not its number, as long as the quotient
has no digits beyond the lower start.
-/

namespace Reckon.Decimal

/-- Rounding depends on the ratio. -/
theorem roundHalfEven_mul_mul (num den : Nat) {k : Nat} (h : 0 < k) :
    roundHalfEven (num * k) (den * k) = roundHalfEven num den := by
  have quotient : num * k / (den * k) = num / den := Nat.mul_div_mul_right num den h
  have remainder : 2 * (num * k % (den * k)) = 2 * (num % den) * k := by
    rw [Nat.mul_mod_mul_right, Nat.mul_assoc]
  have below : 2 * (num % den) * k < den * k ↔ 2 * (num % den) < den :=
    Nat.mul_lt_mul_right h
  have tie : 2 * (num % den) * k = den * k ↔ 2 * (num % den) = den :=
    Nat.mul_right_cancel_iff h
  simp only [roundHalfEven, quotient, remainder, below, tie]

/-- A fraction may be expanded before it is fitted. -/
theorem fit?_mul_mul (negative : Bool) (num den : Nat) {k : Nat} (h : 0 < k) (scale : Nat) :
    fit? negative (num * k) (den * k) scale = fit? negative num den scale := by
  induction scale with
  | zero => rw [fit?, fit?, roundHalfEven_mul_mul num den h]
  | succ scale ih =>
    have moved : num * k * 10 ^ (scale + 1) = num * 10 ^ (scale + 1) * k := Nat.mul_right_comm _ _ _
    rw [fit?, fit?, moved, roundHalfEven_mul_mul _ den h, ih]

/-- Quotients that are equal fit in the same way. -/
theorem fit?_congr (negative : Bool) {num den num' den' : Nat} (positive : 0 < den)
    (positive' : 0 < den') (same : num * den' = num' * den) (scale : Nat) :
    fit? negative num den scale = fit? negative num' den' scale := by
  rw [← fit?_mul_mul negative num den positive', same, Nat.mul_comm den,
    fit?_mul_mul negative num' den' positive]

/-- The number of a decimal that is put together from its parts. -/
theorem toRat_of_ofParts? {negative : Bool} {mantissa scale : Nat} {d : Decimal}
    (h : ofParts? negative mantissa scale = some d) :
    d.toRat = mkRat (if negative then -mantissa else mantissa) (10 ^ scale) := by
  unfold ofParts? at h
  split at h
  · cases h
    rw [toRat, signed]
    by_cases zero : mantissa = 0
    · simp [zero]
    · rw [bne_iff_ne.2 zero, Bool.and_true]
  · cases h

/-- The first scale is taken if the rounded quotient has room there. -/
theorem fit?_of_rounded {negative : Bool} {num den scale mantissa : Nat}
    (rounded : roundHalfEven (num * 10 ^ scale) den = mantissa) (small : mantissa < 2 ^ 96)
    (le : scale ≤ 28) : fit? negative num den scale = ofParts? negative mantissa scale := by
  cases scale with
  | zero =>
    rw [Nat.pow_zero, Nat.mul_one] at rounded
    rw [fit?, rounded]
  | succ scale =>
    have inRange : mantissa < 2 ^ 96 ∧ scale + 1 ≤ 28 := ⟨small, le⟩
    rw [fit?, rounded, ofParts?, dif_pos inRange]

/-- A quotient with no digits beyond a scale, and with room for its digits, is taken as it is. -/
theorem fit?_of_eq_mul {negative : Bool} {num den scale mantissa : Nat} (positive : 0 < den)
    (whole : num * 10 ^ scale = mantissa * den) (small : mantissa < 2 ^ 96) (le : scale ≤ 28) :
    fit? negative num den scale = ofParts? negative mantissa scale := by
  have rounded : roundHalfEven (num * 10 ^ scale) den = mantissa := by
    rw [whole, roundHalfEven_mul_right mantissa positive]
  exact fit?_of_rounded rounded small le

/-- Where a quotient has no digits beyond a scale, the next scale gives the same number. -/
theorem toRat_fit?_succ {negative : Bool} {num den scale : Nat} (positive : 0 < den)
    (whole : den ∣ num * 10 ^ scale) (le : scale + 1 ≤ 28) :
    (fit? negative num den (scale + 1)).map toRat = (fit? negative num den scale).map toRat := by
  obtain ⟨mantissa, multiple⟩ := whole
  have whole : num * 10 ^ scale = mantissa * den := multiple.trans (Nat.mul_comm _ _)
  have longer : num * 10 ^ (scale + 1) = mantissa * 10 * den := by
    rw [Nat.pow_succ, ← Nat.mul_assoc, whole, Nat.mul_right_comm]
  by_cases small : mantissa * 10 < 2 ^ 96
  · have smaller : mantissa < 2 ^ 96 := by omega
    rw [fit?_of_eq_mul positive longer small le,
      fit?_of_eq_mul positive whole smaller (Nat.le_of_succ_le le)]
    have inRange : mantissa * 10 < 2 ^ 96 ∧ scale + 1 ≤ 28 := ⟨small, le⟩
    have inRange' : mantissa < 2 ^ 96 ∧ scale ≤ 28 := ⟨smaller, Nat.le_of_succ_le le⟩
    obtain ⟨long, isLong⟩ : ∃ d, ofParts? negative (mantissa * 10) (scale + 1) = some d := by
      rw [ofParts?, dif_pos inRange]
      exact ⟨_, rfl⟩
    obtain ⟨short, isShort⟩ : ∃ d, ofParts? negative mantissa scale = some d := by
      rw [ofParts?, dif_pos inRange']
      exact ⟨_, rfl⟩
    rw [isLong, isShort, Option.map_some, Option.map_some, toRat_of_ofParts? isLong,
      toRat_of_ofParts? isShort]
    have numerator : (if negative then -((mantissa * 10 : Nat) : Int) else (mantissa * 10 : Nat)) =
        (if negative then -(mantissa : Int) else mantissa) * (10 : Nat) := by
      split
      · rw [Int.natCast_mul, Int.neg_mul]
      · rw [Int.natCast_mul]
    rw [numerator, Nat.pow_succ, Rat.mkRat_mul_right (by omega)]
  · have rounded : roundHalfEven (num * 10 ^ (scale + 1)) den = mantissa * 10 := by
      rw [longer, roundHalfEven_mul_right _ positive]
    have outside : ¬(mantissa * 10 < 2 ^ 96 ∧ scale + 1 ≤ 28) := fun inRange => small inRange.1
    conv => lhs; rw [fit?, rounded, ofParts?, dif_neg outside]

/-- Starting further up changes no number. -/
theorem toRat_fit?_of_le {negative : Bool} {num den low high : Nat} (positive : 0 < den)
    (whole : den ∣ num * 10 ^ low) (le : low ≤ high) (bound : high ≤ 28) :
    (fit? negative num den high).map toRat = (fit? negative num den low).map toRat := by
  obtain ⟨steps, rfl⟩ := Nat.exists_eq_add_of_le le
  induction steps with
  | zero => rfl
  | succ steps ih =>
    have longer : den ∣ num * 10 ^ (low + steps) := by
      rw [Nat.pow_add, ← Nat.mul_assoc]
      exact Nat.dvd_mul_right_of_dvd whole _
    rw [← Nat.add_assoc, toRat_fit?_succ positive longer bound]
    exact ih (Nat.le_add_right low steps) (Nat.le_of_succ_le bound)

/-- Two equal quotients, fitted from two starts, give the same number if the starts are the same or
the quotient has no digits beyond the lower one. -/
theorem toRat_fit?_congr {negative : Bool} {num den num' den' start start' : Nat}
    (positive : 0 < den) (positive' : 0 < den') (same : num * den' = num' * den)
    (exact' : start = start' ∨ den ∣ num * 10 ^ min start start') (bound : start ≤ 28)
    (bound' : start' ≤ 28) :
    (fit? negative num den start).map toRat = (fit? negative num' den' start').map toRat := by
  rw [← fit?_congr negative positive positive' same start']
  rcases exact' with rfl | whole
  · rfl
  · rw [toRat_fit?_of_le positive whole (Nat.min_le_left _ _) bound,
      toRat_fit?_of_le positive whole (Nat.min_le_right _ _) bound']

end Reckon.Decimal
