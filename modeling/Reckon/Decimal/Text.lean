import Reckon.Decimal.Basic

/-!
# Decimal text

A decimal is written with all places of its scale and no exponent. Digits are read one by one: once
28 places are taken or the next digit has no room, that digit rounds the number and the rest is
dropped. An integer part without room is no decimal.
-/

namespace Reckon.Decimal

/-- Digits with at least one in front of the point and `scale` behind it. -/
def digits (mantissa scale : Nat) : List Char :=
  let plain := Nat.toDigits 10 mantissa
  if scale = 0 then plain
  else
    let padded := List.replicate (scale + 1 - plain.length) '0' ++ plain
    let front := padded.length - scale
    padded.take front ++ '.' :: padded.drop front

/-- The text of a decimal, all places of its scale included. -/
def text (d : Decimal) : String :=
  String.ofList ((if d.negative then ['-'] else []) ++ digits d.mantissa d.scale)

/-- The shortest text of the number: no zeros at the end of the fraction, and no sign on zero. -/
def render (d : Decimal) : String :=
  d.normalize.text

/-- The value of a decimal digit. -/
def digitValue (c : Char) : Nat :=
  c.toNat - '0'.toNat

/-- The natural number that digits spell. -/
def readDigits (cs : List Char) : Nat :=
  cs.foldl (fun n c => 10 * n + digitValue c) 0

/-- Lets the first digit without room decide the last place. -/
def roundLast (mantissa scale digit : Nat) : Option (Nat × Nat) :=
  if digit < 5 then some (mantissa, scale)
  else if mantissa + 1 < 2 ^ 96 then some (mantissa + 1, scale)
  else if scale = 0 then none
  else some ((mantissa + 5) / 10, scale - 1)

/-- Takes digits behind the point while there is room for them. -/
def readFraction (mantissa scale : Nat) : List Char → Option (Nat × Nat)
  | [] => some (mantissa, scale)
  | c :: cs =>
    let longer := 10 * mantissa + digitValue c
    if scale = 28 ∨ 2 ^ 96 ≤ longer then roundLast mantissa scale (digitValue c)
    else readFraction longer (scale + 1) cs

/-- The decimal that digits spell, in front of the point and behind it. -/
def ofDigits? (negative : Bool) (whole fraction : List Char) : Option Decimal :=
  let mantissa := readDigits whole
  if 2 ^ 96 ≤ mantissa then none
  else
    match readFraction mantissa 0 fraction with
    | none => none
    | some (mantissa, scale) => ofParts? negative mantissa scale

/-- Reads digits with an optional fraction behind a point. -/
def ofUnsigned? (negative : Bool) (cs : List Char) : Option Decimal :=
  let whole := cs.takeWhile Char.isDigit
  match cs.dropWhile Char.isDigit with
  | [] => if whole.isEmpty then none else ofDigits? negative whole []
  | '.' :: fraction =>
    if fraction.all Char.isDigit && !(whole.isEmpty && fraction.isEmpty) then
      ofDigits? negative whole fraction
    else none
  | _ => none

/-- Reads a decimal: an optional sign, digits and an optional fraction. -/
def ofText? (text : String) : Option Decimal :=
  match text.toList with
  | '-' :: cs => ofUnsigned? true cs
  | '+' :: cs => ofUnsigned? false cs
  | cs => ofUnsigned? false cs

end Reckon.Decimal
