import Reckon.Decimal.Fit

/-!
# Decimal arithmetic

Sum, difference, product and quotient are exact results rounded once by `fit?`; without room for
the result there is none. The scale of a result is that of pencil and paper where it fits: the
longer one for a sum, both together for a product, and for a quotient the places that long division
writes down.
-/

namespace Reckon.Decimal

/-- The signed mantissa that the number has at a larger scale. -/
def alignedTo (d : Decimal) (scale : Nat) : Int :=
  d.signed * 10 ^ (scale - d.scale)

/-- The sum. A zero summand leaves the other one as it is. -/
def add? (a b : Decimal) : Option Decimal :=
  if a.isZero then some b
  else if b.isZero then some a
  else
    let scale := max a.scale b.scale
    let sum := a.alignedTo scale + b.alignedTo scale
    fit? (sum < 0) sum.natAbs (10 ^ scale) scale

/-- The difference. -/
def sub? (a b : Decimal) : Option Decimal :=
  if b.isZero then some (if a.isZero then b else a) else a.add? b.neg

/-- The most places that a product of two short mantissas can have and still leave a digit. -/
def shortProductPlaces : Nat := 47

/-- The product. A zero factor gives the plain zero. A product too small for 28 places is a zero
that keeps its sign and its places. With both mantissas below `2 ^ 32` it has no sign, and far
enough behind the point it is the plain zero. -/
def mul? (a b : Decimal) : Option Decimal :=
  let negative := a.negative != b.negative
  let scale := a.scale + b.scale
  let short := max a.mantissa b.mantissa < 2 ^ 32
  if a.isZero || b.isZero || short && shortProductPlaces < scale then some zero
  else
    (fit? negative (a.mantissa * b.mantissa) (10 ^ scale) (min scale 28)).map fun product =>
      if short then product else { product with negative := negative }

/-- The number of places that long division writes down. While a remainder is left, the fraction
grows by nine places, up to 28. -/
def quotientPlaces (a b : Decimal) : Nat :=
  match (List.range 8).find? fun runs => a.mantissa * 10 ^ (9 * runs) % b.mantissa = 0 with
  | some runs => min (a.scale + 9 * runs - b.scale) 28
  | none => 28

/-- Drops `count` zeros from the end of the fraction of a mantissa that `unit` divides. Without so
many zeros the number stays as it is. -/
def dropZeros (d : Decimal) (count unit : Nat) : Decimal :=
  if count ≤ d.scale ∧ d.mantissa % 10 ^ count = 0 ∧ d.mantissa % unit = 0 then
    ⟨d.negative, d.mantissa / 10 ^ count, d.scale - count,
      Nat.lt_of_le_of_lt (Nat.div_le_self _ _) d.mantissa_lt,
      Nat.le_trans (Nat.sub_le _ _) d.scale_le⟩
  else d

/-- Dropping zeros keeps the number: what is dropped is a power of ten. -/
theorem dropZeros_mul_pow (d : Decimal) (count unit : Nat) :
    (d.dropZeros count unit).mantissa * 10 ^ (d.scale - (d.dropZeros count unit).scale) =
      d.mantissa := by
  unfold dropZeros
  split
  · next h =>
    simp only [Nat.sub_sub_self h.1]
    exact Nat.div_mul_cancel (Nat.dvd_of_mod_eq_zero h.2.1)
  · simp

/-- The same number with up to seven zeros less at the end of its fraction: a run of four, one of
two and a single one. Runs of eight go before them if the mantissa is a multiple of `2 ^ 32`. -/
def trimmed (d : Decimal) : Decimal :=
  [(8, 2 ^ 32), (8, 2 ^ 32), (8, 2 ^ 32), (4, 1), (2, 1), (1, 1)].foldl
    (fun d run => d.dropZeros run.1 run.2) d

/-- The quotient, none for a zero divisor. When one mantissa divides the other the scales subtract;
otherwise zeros that long division wrote at the end are trimmed. -/
def div? (a b : Decimal) : Option Decimal :=
  if b.isZero then none
  else if a.isZero then some zero
  else
    let quotient := fit? (a.negative != b.negative) (a.mantissa * 10 ^ b.scale)
      (b.mantissa * 10 ^ a.scale) (a.quotientPlaces b)
    if a.mantissa % b.mantissa = 0 then quotient else quotient.map trimmed

/-- Factors may be exchanged, rounding and range included. -/
theorem mul?_comm (a b : Decimal) : a.mul? b = b.mul? a := by
  simp only [mul?, Bool.or_comm a.isZero, Nat.mul_comm a.mantissa, Nat.add_comm a.scale,
    Nat.max_comm a.mantissa]
  cases a.negative <;> cases b.negative <;> rfl

/-- Nothing is divided by zero. -/
theorem div?_zero {a b : Decimal} (h : b.isZero = true) : a.div? b = none := by
  simp only [div?, h, if_true]

end Reckon.Decimal
