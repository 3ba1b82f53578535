/-!
# Decimals

A decimal is a sign, a mantissa below `2 ^ 96` and a scale of at most 28: it stands for the mantissa
over a power of ten. Equal numbers may differ in scale (`2.5` and `2.50`) and zero may carry a minus
sign, so equality of the structure is finer than equality of the number; `compare` and `toRat`
look at the number only.
-/

-- Powers of naturals are those of the core library, also beside an algebraic library.
attribute [instance (high), default_instance (high + 1)] instPowNat

namespace Reckon

/-- A signed decimal number with its scale. -/
structure Decimal where
  /-- Whether the number carries a minus sign; zero may. -/
  negative : Bool
  /-- All digits, read as one natural number. -/
  mantissa : Nat
  /-- How many of the digits stand behind the point. -/
  scale : Nat
  mantissa_lt : mantissa < 2 ^ 96
  scale_le : scale ≤ 28
deriving DecidableEq, Repr

namespace Decimal

/-- A decimal from its parts, if both are in range. Zero takes no sign here. -/
def ofParts? (negative : Bool) (mantissa scale : Nat) : Option Decimal :=
  if h : mantissa < 2 ^ 96 ∧ scale ≤ 28 then
    some ⟨negative && mantissa != 0, mantissa, scale, h.1, h.2⟩
  else none

/-- A natural number as a decimal, if it is in range. -/
def ofNat? (n : Nat) : Option Decimal :=
  ofParts? false n 0

/-- An integer as a decimal, if it is in range. -/
def ofInt? (n : Int) : Option Decimal :=
  ofParts? (n < 0) n.natAbs 0

/-- The number 0. -/
def zero : Decimal := ⟨false, 0, 0, by decide, by decide⟩

/-- The number 1. -/
def one : Decimal := ⟨false, 1, 0, by decide, by decide⟩

/-- The number 2. -/
def two : Decimal := ⟨false, 2, 0, by decide, by decide⟩

/-- The number 3. -/
def three : Decimal := ⟨false, 3, 0, by decide, by decide⟩

/-- The number 4. -/
def four : Decimal := ⟨false, 4, 0, by decide, by decide⟩

/-- The number -1. -/
def negOne : Decimal := ⟨true, 1, 0, by decide, by decide⟩

/-- The base of the natural logarithm, to 28 places. -/
def e : Decimal := ⟨false, 27182818284590452353602874714, 28, by decide, by decide⟩

/-- The ratio of a circle's circumference to its diameter, to 28 places. -/
def pi : Decimal := ⟨false, 31415926535897932384626433833, 28, by decide, by decide⟩

/-- Magnitudes up to this one count as zero. -/
def epsilon : Decimal := ⟨false, 1, 7, by decide, by decide⟩

instance : Inhabited Decimal := ⟨zero⟩

/-- Whether the number is zero, of either sign and any scale. -/
def isZero (d : Decimal) : Bool :=
  d.mantissa == 0

/-- The mantissa with its sign. -/
def signed (d : Decimal) : Int :=
  if d.negative then -d.mantissa else d.mantissa

/-- The number as a rational. -/
def toRat (d : Decimal) : Rat :=
  mkRat d.signed (10 ^ d.scale)

/-- The number with the other sign, zero included. -/
def neg (d : Decimal) : Decimal :=
  { d with negative := !d.negative }

/-- The magnitude of the number. -/
def abs (d : Decimal) : Decimal :=
  { d with negative := false }

/-- The order of two numbers, whatever their scales. -/
def compare (a b : Decimal) : Ordering :=
  Ord.compare (a.signed * 10 ^ b.scale) (b.signed * 10 ^ a.scale)

/-- Whether two decimals are the same number. -/
def same (a b : Decimal) : Bool :=
  a.compare b == .eq

/-- Whether the number is below another one. -/
def lt (a b : Decimal) : Bool :=
  a.compare b == .lt

/-- Whether the number is at most another one. -/
def le (a b : Decimal) : Bool :=
  a.compare b != .gt

/-- Whether the number is an integer. -/
def isInteger (d : Decimal) : Bool :=
  d.mantissa % 10 ^ d.scale == 0

/-- The integer between the number and zero that is nearest to it. -/
def truncate (d : Decimal) : Int :=
  if d.negative then -(d.mantissa / 10 ^ d.scale : Nat) else (d.mantissa / 10 ^ d.scale : Nat)

/-- Whether the magnitude is at most `epsilon`. -/
def isNegligible (d : Decimal) : Bool :=
  d.abs.le epsilon

/-- Mantissa and scale without the zeros at the end of the fraction. -/
def trimZeros (mantissa : Nat) : Nat → Nat × Nat
  | 0 => (mantissa, 0)
  | scale + 1 =>
    if mantissa % 10 = 0 then trimZeros (mantissa / 10) scale else (mantissa, scale + 1)

/-- Dropping trailing zeros makes no mantissa greater. -/
theorem trimZeros_fst_le (mantissa scale : Nat) : (trimZeros mantissa scale).1 ≤ mantissa := by
  induction scale generalizing mantissa with
  | zero => exact Nat.le_refl _
  | succ scale ih =>
    unfold trimZeros
    split
    · exact Nat.le_trans (ih _) (Nat.div_le_self _ _)
    · exact Nat.le_refl _

/-- Dropping trailing zeros makes no scale greater. -/
theorem trimZeros_snd_le (mantissa scale : Nat) : (trimZeros mantissa scale).2 ≤ scale := by
  induction scale generalizing mantissa with
  | zero => exact Nat.le_refl _
  | succ scale ih =>
    unfold trimZeros
    split
    · exact Nat.le_succ_of_le (ih _)
    · exact Nat.le_refl _

/-- Trimming keeps the number: what is dropped is a power of ten. -/
theorem trimZeros_mul_pow (mantissa scale : Nat) :
    (trimZeros mantissa scale).1 * 10 ^ (scale - (trimZeros mantissa scale).2) = mantissa := by
  induction scale generalizing mantissa with
  | zero => simp [trimZeros]
  | succ scale ih =>
    unfold trimZeros
    split
    · next h =>
      have hle := trimZeros_snd_le (mantissa / 10) scale
      have := ih (mantissa / 10)
      rw [Nat.succ_sub hle, Nat.pow_succ, ← Nat.mul_assoc, this]
      omega
    · simp

/-- The same number without zeros at the end of its fraction; zero loses its sign. -/
def normalize (d : Decimal) : Decimal :=
  let trimmed := trimZeros d.mantissa d.scale
  ⟨d.negative && d.mantissa != 0, trimmed.1, trimmed.2,
    Nat.lt_of_le_of_lt (trimZeros_fst_le _ _) d.mantissa_lt,
    Nat.le_trans (trimZeros_snd_le _ _) d.scale_le⟩

/-- The negated number has the negated signed mantissa. -/
@[simp] theorem signed_neg (d : Decimal) : d.neg.signed = -d.signed := by
  cases h : d.negative <;> simp [signed, neg, h]

/-- A number negated twice is itself. -/
@[simp] theorem neg_neg (d : Decimal) : d.neg.neg = d := by
  simp [neg]

/-- A number is the same as itself. -/
@[simp] theorem same_self (d : Decimal) : d.same d = true := by
  simp [same, compare]

end Decimal

end Reckon
