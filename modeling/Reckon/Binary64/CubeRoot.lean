import Reckon.Binary64.Basic

/-!
# The cube root of a binary64 number

The cube root of a float is the float nearest to the real root. The integer root of the scaled
mantissa has more digits than a float holds, and one last bit says whether the root goes on behind
them, which decides every rounding. Zeros, infinities and NaN are their own roots.
-/

namespace Reckon.Binary64

/-- Adds to `root` those of the last `bits` binary digits with which its cube is at most `n`, from
the highest digit down. -/
def integerCubeRoot (n : Nat) : (bits root : Nat) → Nat
  | 0, root => root
  | bits + 1, root =>
    if (root + 2 ^ bits) ^ 3 ≤ n then integerCubeRoot n bits (root + 2 ^ bits)
    else integerCubeRoot n bits root

/-- The integer root is the greatest number whose cube is at most `n`. -/
theorem integerCubeRoot_bounds {n bits root : Nat} (low : root ^ 3 ≤ n)
    (high : n < (root + 2 ^ bits) ^ 3) :
    integerCubeRoot n bits root ^ 3 ≤ n ∧ n < (integerCubeRoot n bits root + 1) ^ 3 := by
  induction bits generalizing root with
  | zero => exact ⟨low, high⟩
  | succ bits ih =>
    unfold integerCubeRoot
    split
    · next fits => exact ih fits (by rwa [Nat.add_assoc, ← Nat.two_mul, ← Nat.pow_succ'])
    · next exceeds => exact ih low (Nat.lt_of_not_le exceeds)

/-- The float nearest to the real cube root. -/
def cubeRoot (x : Float) : Float :=
  match parts? x with
  | none => x
  | some p =>
    if p.mantissa = 0 then x
    else
      let scaled := p.mantissa * 2 ^ (282 + p.exponent % 3).toNat
      let root := integerCubeRoot scaled 114 0
      let sticky := if root ^ 3 = scaled then 2 * root else 2 * root + 1
      let magnitude := (ofNat sticky).scaleB (p.exponent / 3 - 95)
      if p.negative then -magnitude else magnitude

end Reckon.Binary64
