import Reckon.Decimal.Basic

/-!
# Rounding to a number of places

Numbers are returned with a fixed number of places at most. A half goes away from zero.
-/

namespace Reckon.Decimal

/-- A mantissa that is rounded to fewer places stays in range. -/
theorem rounded_lt {mantissa unit : Nat} (h : mantissa < 2 ^ 96) (hu : 0 < unit) :
    (mantissa + unit / 2) / unit < 2 ^ 96 := by
  rw [Nat.div_lt_iff_lt_mul hu]
  have hle : 2 ^ 96 * 1 ≤ 2 ^ 96 * unit := Nat.mul_le_mul_left _ hu
  have hmul : (2 ^ 96 - 1) * unit = 2 ^ 96 * unit - unit := by
    rw [Nat.sub_mul, Nat.one_mul]
  have hstep : mantissa ≤ (2 ^ 96 - 1) * 1 := by omega
  have hgrow : (2 ^ 96 - 1) * 1 ≤ (2 ^ 96 - 1) * unit := Nat.mul_le_mul_left _ hu
  omega

/-- The number to the given places, a half going away from zero. A shorter fraction stays as it
is. -/
def roundTo (places : Nat) (d : Decimal) : Decimal :=
  if h : d.scale ≤ places then d
  else
    let unit := 10 ^ (d.scale - places)
    ⟨d.negative, (d.mantissa + unit / 2) / unit, places,
      rounded_lt d.mantissa_lt (Nat.pow_pos (by decide)),
      Nat.le_trans (Nat.le_of_lt (Nat.lt_of_not_le h)) d.scale_le⟩

/-- A number with no more places is left as it is. -/
theorem roundTo_of_le {places : Nat} {d : Decimal} (h : d.scale ≤ places) :
    d.roundTo places = d := by
  simp only [roundTo, h, dif_pos]

/-- A rounded number has no more places than asked for. -/
theorem scale_roundTo_le (places : Nat) (d : Decimal) : (d.roundTo places).scale ≤ places := by
  unfold roundTo
  split
  · next h => exact h
  · exact Nat.le_refl _

end Reckon.Decimal
