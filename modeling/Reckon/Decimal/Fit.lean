import Reckon.Decimal.Basic

/-!
# Rounding a quotient into a decimal

Every decimal operation rounds its exact result once. The result takes the greatest scale, up to a
given one, at which the nearest integer still is a mantissa; a tie goes to the even neighbour. There
is no result when even scale 0 has no room.
-/

namespace Reckon.Decimal

/-- The integer nearest to `num / den`, a tie going to the even neighbour. -/
def roundHalfEven (num den : Nat) : Nat :=
  let quotient := num / den
  let twice := 2 * (num % den)
  if twice < den ∨ (twice = den ∧ quotient % 2 = 0) then quotient else quotient + 1

/-- The decimal nearest to `num / den`, with a sign, at the greatest scale up to the given one
that has room for it. -/
def fit? (negative : Bool) (num den : Nat) : (scale : Nat) → Option Decimal
  | 0 => ofParts? negative (roundHalfEven num den) 0
  | scale + 1 =>
    match ofParts? negative (roundHalfEven (num * 10 ^ (scale + 1)) den) (scale + 1) with
    | some d => some d
    | none => fit? negative num den scale

/-- An integer needs no rounding. -/
theorem roundHalfEven_one (num : Nat) : roundHalfEven num 1 = num := by
  simp [roundHalfEven, Nat.mod_one]

/-- The nearest integer is the quotient or the one above it. -/
theorem roundHalfEven_bounds (num den : Nat) :
    num / den ≤ roundHalfEven num den ∧ roundHalfEven num den ≤ num / den + 1 := by
  simp only [roundHalfEven]
  split <;> omega

/-- The distance to the nearest integer is at most one half. -/
theorem roundHalfEven_near {num den : Nat} (h : 0 < den) :
    2 * num ≤ 2 * (roundHalfEven num den * den) + den ∧
      2 * (roundHalfEven num den * den) ≤ 2 * num + den := by
  have hdiv := Nat.div_add_mod num den
  have hmod := Nat.mod_lt num h
  rw [Nat.mul_comm] at hdiv
  simp only [roundHalfEven]
  split
  · next hlow => omega
  · next hhigh => rw [Nat.add_mul, Nat.one_mul]; omega

/-- An integer quotient is kept. -/
theorem roundHalfEven_mul_right (num : Nat) {den : Nat} (h : 0 < den) :
    roundHalfEven (num * den) den = num := by
  simp only [roundHalfEven, Nat.mul_div_cancel _ h, Nat.mul_mod_left, Nat.mul_zero, h, true_or,
    if_true]

end Reckon.Decimal
