import Reckon.Binary64.Basic
import Reckon.Decimal.Basic

/-!
# Decimals and binary64 numbers

A float becomes a decimal by trading its powers of two for powers of ten: every factor of two that
is taken away is made good by a factor of five, and digits are given up only where the mantissa has
no room or carries more than 52 bits behind the point. A decimal becomes a float through its integer
part and its fraction, rounded to as many places as it has.
-/

namespace Reckon.Decimal

/-- Trades `count` negative powers of two for powers of ten. -/
def tradeHalves : Nat → Nat → Int → Nat × Int
  | 0, mantissa, ten => (mantissa, ten)
  | count + 1, mantissa, ten =>
    if mantissa % 2 = 0 then tradeHalves count (mantissa / 2) (ten + 1)
    else if 5 * mantissa < 2 ^ 96 then tradeHalves count (5 * mantissa) ten
    else tradeHalves count (mantissa / 2) (ten + 1)

/-- Trades `count` positive powers of two for powers of ten. -/
def tradeDoubles : Nat → Nat → Int → Option (Nat × Int)
  | 0, mantissa, ten => some (mantissa, ten)
  | count + 1, mantissa, ten =>
    if mantissa < 2 ^ 95 then tradeDoubles count (2 * mantissa) (ten - 1)
    else if count + 1 < 2 * ten then none
    else tradeDoubles count (mantissa / 5) ten

/-- Multiplies by ten `count` times, if there is room for it. -/
def widen : Nat → Nat → Option Nat
  | 0, mantissa => some mantissa
  | count + 1, mantissa => if 10 * mantissa < 2 ^ 96 then widen count (10 * mantissa) else none

/-- Drops digits until the scale is at most 28, each digit rounding the ones before it. -/
def narrow : Nat → Nat → Nat × Nat
  | mantissa, 0 => (mantissa, 0)
  | mantissa, scale + 1 =>
    if scale + 1 ≤ 28 then (mantissa, scale + 1)
    else if mantissa / 10 = 0 then (0, 0)
    else narrow (if 5 ≤ mantissa % 10 then mantissa / 10 + 1 else mantissa / 10) scale

/-- Drops digits behind the point while the mantissa has more than 52 bits, each digit rounding
the ones before it. -/
def shorten : Nat → Nat → Nat × Nat
  | mantissa, 0 => (mantissa, 0)
  | mantissa, scale + 1 =>
    if mantissa < 2 ^ 52 then (mantissa, scale + 1)
    else shorten (if 5 ≤ mantissa % 10 then mantissa / 10 + 1 else mantissa / 10) scale

/-- The decimal for a finite binary64 number, if it is in range. -/
def ofParts64? (p : Binary64.Parts) : Option Decimal :=
  if p.mantissa = 0 then some { zero with negative := p.negative }
  else
    let traded :=
      if p.exponent < 0 then some (tradeHalves (-p.exponent).toNat p.mantissa p.exponent)
      else tradeDoubles p.exponent.toNat p.mantissa p.exponent
    match traded with
    | none => none
    | some (mantissa, ten) =>
      if 0 < ten then (widen ten.toNat mantissa).bind fun m => ofParts? p.negative m 0
      else
        let narrowed := narrow mantissa (-ten).toNat
        let shortened := shorten narrowed.1 narrowed.2
        let trimmed := trimZeros shortened.1 shortened.2
        ofParts? p.negative trimmed.1 trimmed.2

/-- The decimal for a float, if it is finite and in range. -/
def ofFloat? (x : Float) : Option Decimal :=
  (Binary64.parts? x).bind ofParts64?

/-- The float for a magnitude. -/
def magnitudeToFloat (mantissa scale : Nat) : Float :=
  if scale = 0 then Binary64.ofNat mantissa
  else
    let unit := 10 ^ scale
    let whole := Binary64.ofNat (mantissa / unit)
    let fraction := Binary64.ofNat (mantissa % unit) / Binary64.ofNat unit
    if fraction == 0 then whole
    else
      let places := Binary64.powNat 10 1 scale
      ((whole + fraction) * places).round / places

/-- The float for a decimal. Zero keeps its sign only with a fraction written behind it. -/
def toFloat (d : Decimal) : Float :=
  let magnitude := magnitudeToFloat d.mantissa d.scale
  if d.negative && (d.scale != 0 || d.mantissa != 0) then -magnitude else magnitude

end Reckon.Decimal
