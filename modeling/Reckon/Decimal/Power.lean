import Reckon.Decimal.Arithmetic

/-!
# Powers with a natural exponent

A power is taken by squaring, from the lowest binary digit of the exponent on. Below exponent 1024
every product is a decimal product. From there on the intermediate numbers are wide, with a mantissa
below `2 ^ 192` and a scale up to 57, and only the last one is brought back into a decimal. A power
is refused when one of its products has no room, also when that product is a square the result does
not need in full.
-/

namespace Reckon.Decimal

/-- The product of `product` and the `n`-th power of `power`, by squaring. -/
def binaryPower {α : Type} (mul : α → α → Option α) (power product : α) (n : Nat) : Option α :=
  match if n % 2 = 1 then mul product power else some product with
  | none => none
  | some product =>
    if n / 2 = 0 then some product
    else
      match mul power power with
      | none => none
      | some square => binaryPower mul square product (n / 2)
termination_by n
decreasing_by omega

/-- A number with room for intermediate digits. -/
structure Wide where
  /-- Whether the number is below zero. -/
  negative : Bool
  /-- All digits, read as one natural number. -/
  mantissa : Nat
  /-- How many of the digits stand behind the point. -/
  scale : Nat
deriving DecidableEq, Repr

namespace Wide

/-- A mantissa after digits were dropped, with the last digits dropped. -/
structure Reduced where
  /-- What is left of the mantissa. -/
  mantissa : Nat
  /-- The scale that is left. -/
  scale : Nat
  /-- The digits dropped last, as one natural number. -/
  dropped : Nat

/-- Drops `digits` digits from the end, at most nine at a time, and one more at a time while the
mantissa is not below `bound`. Digits in front of the point are never dropped. -/
def dropDigits (bound mantissa scale digits dropped : Nat) : Option Reduced :=
  if digits = 0 then some ⟨mantissa, scale, dropped⟩
  else if scale < digits then none
  else
    let step := min digits 9
    let shorter := mantissa / 10 ^ step
    let left := if bound ≤ shorter ∧ digits = step then 1 else digits - step
    dropDigits bound shorter (scale - step) left (mantissa % 10 ^ step)
termination_by scale
decreasing_by omega

/-- How many decimal digits to drop so that the mantissa has about `bits` binary digits. -/
def excessDigits (bits mantissa : Nat) : Nat :=
  if mantissa < 2 ^ bits then 0 else (mantissa.log2 + 1 - bits) * 77 / 256 + 1

/-- Brings a number into the given binary digits and scale. Only the digits dropped last decide the
rounding: any of them rounds an odd mantissa up, and more than a single unit an even one. -/
def reduce (bits limit : Nat) (w : Wide) : Option Wide :=
  let excess := excessDigits bits w.mantissa
  let digits := if limit < w.scale - excess then w.scale - limit else excess
  match dropDigits (2 ^ bits) w.mantissa w.scale digits 0 with
  | none => none
  | some r =>
    let up := 0 < r.dropped ∧ (r.mantissa % 2 = 1 ∨ 1 < r.dropped)
    let mantissa := if up then r.mantissa + 1 else r.mantissa
    if mantissa < 2 ^ bits then some ⟨w.negative, mantissa, r.scale⟩
    else if r.scale = 0 then none
    else some ⟨w.negative, mantissa / 10, r.scale - 1⟩

/-- Lowers a scale above 57, at most nine places at a time, each time to the nearest mantissa. -/
def lowerScale (mantissa scale : Nat) : Nat × Nat :=
  if 57 < scale then
    let step := min 9 (scale - 57)
    lowerScale (roundHalfEven mantissa (10 ^ step)) (scale - step)
  else (mantissa, scale)
termination_by scale
decreasing_by omega

/-- The product, if there is room for it. -/
def mul? (a b : Wide) : Option Wide :=
  if a.mantissa = 0 ∨ b.mantissa = 0 then some ⟨false, 0, 0⟩
  else
    let product : Wide := ⟨a.negative != b.negative, a.mantissa * b.mantissa, a.scale + b.scale⟩
    if product.mantissa < 2 ^ 192 then
      let lowered := lowerScale product.mantissa product.scale
      some ⟨product.negative, lowered.1, lowered.2⟩
    else product.reduce 192 57

/-- The number as a decimal, if there is room for it. -/
def toDecimal? (w : Wide) : Option Decimal :=
  match w.reduce 96 28 with
  | none => none
  | some r => (ofParts? r.negative r.mantissa r.scale).map normalize

end Wide

/-- The power with a natural exponent, if there is room for it and the products on the way. -/
def pow? (base : Decimal) (n : Nat) : Option Decimal :=
  if n = 0 then some one
  else if base.isZero then some zero
  else if base.same one then some one
  else if n = 1 then some base
  else if n = 2 then base.mul? base
  else if n < 1024 then (binaryPower mul? base one n).map normalize
  else
    (binaryPower Wide.mul? ⟨base.negative, base.mantissa, base.scale⟩ ⟨false, 1, 0⟩ n).bind
      Wide.toDecimal?

/-- Every number to the power zero is one. -/
theorem pow?_zero (base : Decimal) : base.pow? 0 = some one := by
  simp only [pow?, if_true]

end Reckon.Decimal
