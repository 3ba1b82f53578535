import Reckon.Decimal.Basic
import Reckon.Expr.Basic

/-!
# Degrees of polynomials

The degree of a tree as a polynomial in one variable, other names counting as constants. Degrees are
counted up to `2 ^ 32 - 1`; beyond that, and for a tree that is no polynomial, there is none.
-/

namespace Reckon.Expr

/-- A degree, if it is within the count. -/
def degreeWithin (n : Nat) : Option Nat :=
  if n < 2 ^ 32 then some n else none

/-- The degree that an exponent gives: a natural number within the count. -/
def wholeExponent? (exponent : Decimal) : Option Nat :=
  if exponent.isInteger && !exponent.negative then degreeWithin exponent.truncate.toNat else none

/-- The degree of a tree as a polynomial in a variable, if it is one. -/
def degree? (name : String) : Expr → Option Nat
  | .number _ => some 0
  | .variable own term =>
    if own ≠ name then some 0
    else
      match term with
      | none => some 1
      | some term => if term.coefficient.isZero then some 0 else wholeExponent? term.exponent
  | .signed _ operand => operand.degree? name
  | .binary op left right =>
    match op with
    | .add | .subtract =>
      match left.degree? name, right.degree? name with
      | some a, some b => some (max a b)
      | _, _ => none
    | .multiply =>
      match left.degree? name, right.degree? name with
      | some a, some b => degreeWithin (a + b)
      | _, _ => none
    | .divide =>
      match right.degree? name with
      | some 0 => left.degree? name
      | _ => none
    | .power =>
      if !right.mentions name && !left.mentions name then some 0
      else
        match right, left.degree? name with
        | .number n, some d => (wholeExponent? n).bind fun k => degreeWithin (d * k)
        | _, _ => none
    | _ => none
  | .call f args => if (Expr.call f args).mentions name then none else some 0
  | .vector _ | .matrix _ | .definition _ _ _ => none

end Reckon.Expr
