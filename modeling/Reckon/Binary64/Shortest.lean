import Reckon.Binary64.Basic

/-!
# The shortest text of a binary64 number

A finite number is written with the fewest decimal digits that still read back as the same number,
and of those with the digits nearest to it. The text is positional: it never has an exponent, and
zeros fill the places up to the point. The search is exact integer arithmetic on the interval of
reals that round to the number.
-/

namespace Reckon.Binary64

/-- The reals that round to a positive number, over a common denominator: the number itself and the
two ends of the interval, which belong to it when the mantissa is even. -/
structure Interval where
  /-- The numerator of the lower end. -/
  low : Nat
  /-- The numerator of the number. -/
  value : Nat
  /-- The numerator of the upper end. -/
  high : Nat
  /-- The common denominator. -/
  den : Nat
  /-- Whether the ends belong to the interval. -/
  closed : Bool

/-- The interval of a positive mantissa and exponent. Below a power of two the next float is half as
far away as above it. -/
def Interval.ofParts (mantissa : Nat) (exponent : Int) : Interval :=
  let edge := mantissa = 2 ^ 52 ∧ -1074 < exponent
  let value := 4 * mantissa
  let low := if edge then value - 1 else value - 2
  let up := 2 ^ exponent.toNat
  let down := 2 ^ (-exponent).toNat
  ⟨low * up, value * up, (value + 2) * up, 4 * down, mantissa % 2 == 0⟩

/-- Whether `num / den` lies in the interval. -/
def Interval.holds (i : Interval) (num den : Nat) : Bool :=
  let x := num * i.den
  let low := i.low * den
  let high := i.high * den
  if i.closed then low ≤ x && x ≤ high else low < x && x < high

/-- The point of the grid of multiples of `10 ^ place` that lies in the interval nearest to its
value, as a multiple. -/
def Interval.onGrid? (i : Interval) (place : Int) : Option Nat :=
  let up := 10 ^ place.toNat
  let down := 10 ^ (-place).toNat
  let below := i.value * down / (i.den * up)
  let lowHit := i.holds (below * up) down
  let highHit := i.holds ((below + 1) * up) down
  let rest := 2 * (i.value * down % (i.den * up))
  if lowHit && highHit then
    if rest < i.den * up || (rest == i.den * up && below % 2 == 0) then some below
    else some (below + 1)
  else if lowHit then some below
  else if highHit then some (below + 1)
  else none

/-- How many decimal digits the integer part of `num / den` has. -/
def wholeDigits (num den : Nat) : Nat :=
  if num / den = 0 then 0 else (Nat.toDigits 10 (num / den)).length

/-- The place of the leading digit of a positive number below one, counted down from 0. -/
def leadingPlace (num den : Nat) : Nat → Int → Int
  | 0, place => place
  | fuel + 1, place =>
    if den ≤ 10 * num then place else leadingPlace (10 * num) den fuel (place - 1)

/-- The first grid with a hit, from the coarsest on that can have one. -/
def Interval.search (i : Interval) : Nat → Int → Nat × Int
  | 0, place => (i.value * 10 ^ (-place).toNat / (i.den * 10 ^ place.toNat), place)
  | fuel + 1, place =>
    match i.onGrid? place with
    | some digits => (digits, place)
    | none => i.search fuel (place - 1)

/-- Digits and the place of the last one: the number reads as `digits * 10 ^ place`. -/
def shortest (mantissa : Nat) (exponent : Int) : Nat × Int :=
  let i := Interval.ofParts mantissa exponent
  let whole := wholeDigits i.value i.den
  let top : Int := if whole = 0 then leadingPlace i.value i.den 400 (-1) else (whole : Int) - 1
  i.search 20 (top + 1)

/-- Positional text of `digits * 10 ^ place`, without zeros at the end of a fraction. -/
def positional (digits : Nat) (place : Int) : List Char :=
  if 0 ≤ place then Nat.toDigits 10 (digits * 10 ^ place.toNat)
  else
    let places := (-place).toNat
    let plain := Nat.toDigits 10 digits
    let padded := List.replicate (places + 1 - plain.length) '0' ++ plain
    let front := padded.length - places
    let fraction := ((padded.drop front).reverse.dropWhile (· == '0')).reverse
    if fraction.isEmpty then padded.take front else padded.take front ++ '.' :: fraction

/-- The shortest text of a float; infinities are `inf` and `-inf`. -/
def text (x : Float) : String :=
  match parts? x with
  | none => if x.isNaN then "NaN" else if x < 0 then "-inf" else "inf"
  | some p =>
    let sign := if p.negative then ['-'] else []
    if p.mantissa = 0 then String.ofList (sign ++ ['0'])
    else
      let s := shortest p.mantissa p.exponent
      String.ofList (sign ++ positional s.1 s.2)

end Reckon.Binary64
