/-!
# Binary64 numbers

A finite binary64 number is a sign, an integer mantissa and a power of two. This module takes such
numbers apart and rounds natural numbers to the nearest of them. The functions of the number itself
(sine, power and so on) are those of `Float`.
-/

-- Powers of naturals are those of the core library, also beside an algebraic library.
attribute [instance (high), default_instance (high + 1)] instPowNat

namespace Reckon.Binary64

/-- Sign, mantissa and binary exponent of a finite number; none for infinities and NaN. -/
structure Parts where
  negative : Bool
  /-- The integer mantissa, below `2 ^ 53`. -/
  mantissa : Nat
  /-- The power of two by which the mantissa is multiplied. -/
  exponent : Int
deriving DecidableEq, Repr

/-- Takes a 64-bit word apart: one sign bit, eleven exponent bits, 52 bits of the mantissa. -/
def Parts.ofWord? (word : Nat) : Option Parts :=
  let negative := word / 2 ^ 63 % 2 == 1
  let field : Nat := word / 2 ^ 52 % 2 ^ 11
  let fraction := word % 2 ^ 52
  if field = 2047 then none
  else if field = 0 then some ⟨negative, fraction, -1074⟩
  else some ⟨negative, 2 ^ 52 + fraction, Int.ofNat field - 1075⟩

/-- Sign, mantissa and binary exponent of a float. -/
def parts? (x : Float) : Option Parts :=
  Parts.ofWord? x.toBits.toNat

/-- The float nearest to a natural number below `2 ^ 128`. Beyond 64 bits the bits that are cut off
are kept as one last bit, which is enough to tell a tie from what lies above it. -/
def ofNat (n : Nat) : Float :=
  if n < 2 ^ 64 then (UInt64.ofNat n).toFloat
  else
    let excess := n.log2 - 63
    let kept := n / 2 ^ excess
    let sticky := if n % 2 ^ excess = 0 then kept else kept ||| 1
    (UInt64.ofNat sticky).toFloat.scaleB excess

/-- A float power with a natural exponent, by squaring from the lowest binary digit on. -/
def powNat (power product : Float) (n : Nat) : Float :=
  let product := if n % 2 = 1 then product * power else product
  if n / 2 = 0 then product else powNat (power * power) product (n / 2)
termination_by n
decreasing_by omega

end Reckon.Binary64
