import Reckon.Decimal.Arithmetic
import Reckon.Decimal.Binary64
import Reckon.Decimal.Power
import Reckon.Fault

/-!
# Operators on numbers

What each operator does to two decimals. Comparisons give 1 or 0. A power with an integer exponent
is exact or refused, and a negative exponent gives the reciprocal; with any other exponent it is the
real power of binary64 numbers, for which the base may not be below zero.
-/

namespace Reckon

/-- A result, or the arithmetic problem that there is none. -/
def Decimal.orProblem (problem : ArithmeticProblem) : Option Decimal → Except Fault Decimal
  | some d => .ok d
  | none => .error (.arithmetic problem)

/-- A missing result is a problem, and any other is the result. -/
theorem Decimal.orProblem_eq_ok {problem : ArithmeticProblem} {x : Option Decimal} {d : Decimal} :
    orProblem problem x = .ok d ↔ x = some d := by
  cases x <;> simp [orProblem]

/-- The number 1 for what is true and 0 for what is not. -/
def Decimal.ofBool (b : Bool) : Decimal :=
  if b then .one else .zero

/-- The least integer of 64 bits. -/
def leastInt64 : Int := -2 ^ 63

/-- One number to the power of another one. -/
def Decimal.power (base exponent : Decimal) : Except Fault Decimal :=
  let orOverflow := Decimal.orProblem (.powerOverflow base exponent)
  if exponent.isInteger then
    let n := exponent.truncate
    if n < leastInt64 ∨ 2 ^ 63 ≤ n then orOverflow none
    else if 0 ≤ n then orOverflow (base.pow? n.toNat)
    else if base.isZero then .error (.arithmetic .zeroToNegativePower)
    else if n = leastInt64 then orOverflow none
    else orOverflow ((base.pow? (-n).toNat).bind Decimal.one.div?)
  else if base.negative && !base.isZero then .error (.arithmetic (.negativeBase base exponent))
  else orOverflow (Decimal.ofFloat? (base.toFloat.pow exponent.toFloat))

/-- The operator applied to two numbers. -/
def Operator.apply (op : Operator) (left right : Decimal) : Except Fault Decimal :=
  match op with
  | .add => Decimal.orProblem .additionOverflow (left.add? right)
  | .subtract => Decimal.orProblem .subtractionOverflow (left.sub? right)
  | .multiply => Decimal.orProblem .multiplicationOverflow (left.mul? right)
  | .divide =>
    if right.isZero then .error (.arithmetic .divisionByZero)
    else Decimal.orProblem .divisionOverflow (left.div? right)
  | .power => left.power right
  | .greater => .ok (Decimal.ofBool (right.lt left))
  | .less => .ok (Decimal.ofBool (left.lt right))
  | .greaterEqual => .ok (Decimal.ofBool (right.le left))
  | .lessEqual => .ok (Decimal.ofBool (left.le right))
  | .equal | .assign => .ok (Decimal.ofBool (left.same right))
  | .notEqual => .ok (Decimal.ofBool (!left.same right))

/-- The operator that a symbol stands for, or the fault that it stands for none. -/
def Operator.read (text : String) : Except Fault Operator :=
  match Operator.ofSymbol? text with
  | some op => .ok op
  | none => .error (.unknownOperator text)

end Reckon
